import GuardianshipAgency.Agency.Theorems
import GuardianshipAgency.Routing.Lemmas.Names

/-!
# Theorems about routes
-/

namespace GuardianshipAgency.Routing

open Agency Text AgentRouterModule

/-! ## Names -/

/--
The id of an agent comes back from its webhook URL and its endpoint, and the name of a wallet from its webhook URL, just
when nothing in it has a meaning in a URL.
-/
theorem names_arrive_iff_urlSafe (env : Env) (agentDto : AgentCreateDto) (walletDto : WalletCreateDto)
    (hagent : agentDto.controllerUrl = none) (hwallet : walletDto.controllerUrl = none) :
    ((WebhooksArrive env (AgentConfig.new env agentDto).webhookUrl agentDto.agentId ∧
        EndpointNames env (AgentConfig.new env agentDto).endpoint agentDto.agentId) ↔ UrlSafe agentDto.agentId) ∧
      (WebhooksArrive env (walletWebhookUrl env walletDto) walletDto.walletName ↔ UrlSafe walletDto.walletName) := by
  have hwebhookUrl : (AgentConfig.new env agentDto).webhookUrl =
      env.internalUrl ++ "/v1/controller/" ++ agentDto.agentId := by
    simp [AgentConfig.new, hagent, orElse]
  have hwalletUrl : walletWebhookUrl env walletDto = env.internalUrl ++ "/v1/controller/" ++ walletDto.walletName := by
    simp [walletWebhookUrl, hwallet, orElse]
  rw [hwebhookUrl, hwalletUrl, webhooksArrive_iff, webhooksArrive_iff]
  refine ⟨⟨fun h => h.1, fun h => ⟨h, ?_⟩⟩, Iff.rfl⟩
  exact (endpointNames_iff env agentDto.agentId).mpr h.inSegment

theorem names_arrive_sampleAgent :
    UrlSafe "agent" ∧ UrlSafe "wallet" ∧
      (WebhooksArrive sampleEnv (AgentConfig.new sampleEnv sampleAgent).webhookUrl "agent" ∧
        EndpointNames sampleEnv (AgentConfig.new sampleEnv sampleAgent).endpoint "agent") ∧
      WebhooksArrive sampleEnv (walletWebhookUrl sampleEnv sampleWallet) "wallet" := by
  have hagentSafe : UrlSafe "agent" := ⟨by decide, by simp⟩
  have hwalletSafe : UrlSafe "wallet" := ⟨by decide, by simp⟩
  obtain ⟨hagent, hwallet⟩ := names_arrive_iff_urlSafe sampleEnv sampleAgent sampleWallet rfl rfl
  exact ⟨hagentSafe, hwalletSafe, hagent.mpr hagentSafe, hwallet.mpr hwalletSafe⟩

def slashedAgent : AgentCreateDto := { agentId := "a/b", adminApiKey := "key" }

/-- The pattern for ids only looks for a match somewhere. -/
theorem not_names_arrive_slashedAgent :
    accepts slashedAgent ∧ slashedAgent.controllerUrl = none ∧
      ¬WebhooksArrive sampleEnv (AgentConfig.new sampleEnv slashedAgent).webhookUrl slashedAgent.agentId ∧
      ¬EndpointNames sampleEnv (AgentConfig.new sampleEnv slashedAgent).endpoint slashedAgent.agentId := by
  refine ⟨by decide, rfl, fun h => ?_, fun h => ?_⟩
  · have hsafe := (webhooksArrive_iff sampleEnv "a/b").mp h
    exact absurd hsafe.slash (by decide)
  · have hsegment := (endpointNames_iff sampleEnv "a/b").mp h '/' (by decide)
    exact absurd hsegment (by decide)

/-! ## Rewriting -/

/-- The router and the rewriting agree on an id just when a slash follows it or nothing does, not even a query. -/
theorem routesRight_iff_addressed (u : RequestUrl) : RoutesRight u ↔ Addressed u :=
  ⟨RoutesRight.addressed, Addressed.routesRight⟩

/-- An invitation's URL: the endpoint of an agent and a query. -/
def invitationUrl : RequestUrl where
  path := "/v1/router/agent".toList
  query := "?c_i=abc".toList
  path_plain := by decide
  query_start := .inr ⟨_, rfl⟩

/-- The pattern strips the query with the id. -/
theorem not_routesRight_invitationUrl :
    context <+: invitationUrl.path ∧ ¬RoutesRight invitationUrl ∧ forwarded invitationUrl = [] := by
  have hforwarded : forwarded invitationUrl = [] := by decide
  refine ⟨by decide, fun hright => ?_, hforwarded⟩
  obtain ⟨id, slash, tail, -, -, -, -, -, -, htail⟩ := hright
  rw [hforwarded] at htail
  exact absurd (List.append_eq_nil_iff.mp htail.symm).2 (by decide)

end GuardianshipAgency.Routing
