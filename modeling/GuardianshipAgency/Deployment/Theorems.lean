import GuardianshipAgency.Deployment.Lemmas.Endpoints
import GuardianshipAgency.Ownership.Theorems

/-!
# Agents are what they were asked to be, and where they are looked for
-/

namespace GuardianshipAgency.Deployment

open Js Async
open Agency hiding AgentConfig AgentCreateDto

variable {env : Env} {settings : Settings}

/-! ## Command lines -/

/-- Two requests start agents with the same command line if and only if they say the same about the agent, whatever
texts their fields hold. -/
theorem start_args_eq_iff {agentDto agentDto' : AgentCreateDto} (hport : Json.Decimal agentDto.adminApiPort)
    (hport' : Json.Decimal agentDto'.adminApiPort) :
    (AgentConfig.new env settings agentDto).getStartArgs settings =
        (AgentConfig.new env settings agentDto').getStartArgs settings ↔
      (AgentConfig.new env settings agentDto).SameAgent (AgentConfig.new env settings agentDto') := by
  rw [getStartArgs_eq, getStartArgs_eq, ← options_eq_iff hport hport']
  constructor
  · intro h
    exact Cli.render_inj (arity_options _ _) (arity_options _ _) (List.tail_eq_of_cons_eq h)
  · intro h
    rw [h]

def sampleSettings : Settings where
  agentDockerImage := some "agent-image"
  indyPoolName := some "pool"
  networkName := some "network"
  agentLogLevel := none
  genesisFile := "\x7b\x7d"
  walletDbHost := some "wallets-db"
  walletDbPort := some "5432"
  walletDbUser := some "user"
  walletDbPass := none
  walletDbAdminUser := none
  walletDbAdminPass := none
  maxRequestSize := none
  tailsUrl := none
  ddEnv := none
  ddTags := none
  isLocal := true

def sampleRequest : AgentCreateDto :=
  { sampleAgent with
    walletId := "id"
    walletKey := "key" }

/-- A label may look like an option. -/
theorem start_args_eq_iff_labels :
    (AgentConfig.new sampleEnv sampleSettings sampleRequest).getStartArgs sampleSettings =
        (AgentConfig.new sampleEnv sampleSettings { sampleRequest with seed := some "" }).getStartArgs sampleSettings ∧
      (AgentConfig.new sampleEnv sampleSettings sampleRequest).getStartArgs sampleSettings ≠
        (AgentConfig.new sampleEnv sampleSettings { sampleRequest with label := some "--seed" }).getStartArgs
          sampleSettings := by
  have hport : Json.Decimal none := fun q hq => by cases hq
  constructor
  · exact (start_args_eq_iff hport hport).mpr ⟨rfl, rfl, rfl, rfl, rfl, rfl, rfl, rfl, rfl⟩
  · rw [ne_eq, start_args_eq_iff hport hport]
    intro h
    cases h.label

/-- In every run, each service has the name of its agent and reaches the pod of that agent and no other, on ports that
the agent is told to listen on. -/
theorem services_reach_pods {ls : List (Label Choice Call Event)} {c : Config JsError Op.Val World Call Reply}
    (hrun : (system env).run (.init .empty) ls = some c) {id : String} {config : Agency.AgentConfig}
    (hsome : c.world.runtime.services id = some config) {service : V1Service}
    (hservice : ServiceOf env settings config service) : Reaches env settings c.world.runtime id service :=
  service_reaches hrun hsome hservice

def started : List (Label Choice Call Event) := [.begin (.spinUpAgent sampleAgent), .answer 0 fine, .answer 0 fine]

theorem services_reach_pods_started : ∃ c, (system sampleEnv).run (.init .empty) started = some c ∧
    ∃ service, Reaches sampleEnv sampleSettings c.world.runtime "agent" service := by
  have hrun : ∃ c, (system sampleEnv).run (.init .empty) started = some c ∧
      c.world.runtime.services "agent" = some (Agency.AgentConfig.new sampleEnv sampleAgent) := ⟨_, rfl, rfl⟩
  obtain ⟨c, hc, hsome⟩ := hrun
  exact ⟨c, hc, _, services_reach_pods hc hsome ⟨sampleRequest, rfl, rfl⟩⟩

/-! ## Endpoints -/

/-- Where the id of an agent has no separators of URLs, a request to something below the endpoint of the agent is
forwarded, less the path of the endpoint, to the port `http` of the agent's service, which reaches the agent. -/
theorem endpoints_reach_agents {ls : List (Label Choice Call Event)} {c : Config JsError Op.Val World Call Reply}
    (hrun : (system env).run (.init .empty) ls = some c) {id : String} {config : Agency.AgentConfig}
    (hsome : c.world.runtime.services id = some config) {service : V1Service}
    (hservice : ServiceOf env settings config service)
    (hport : numberText (parseInt env.agentHttpPort) = env.agentHttpPort)
    (hid : id.toList ≠ []) (hsegment : ∀ c ∈ id.toList, Text.inSegment c = true)
    {u : Routing.AgentRouterModule.RequestUrl} {rest : List Char} (hrest : ∀ c ∈ rest, c ≠ '?' ∧ c ≠ '#')
    (hu : u.path = Routing.requestPath env.publicUrl (config.endpoint.toList ++ '/' :: rest)) :
    (∃ port ∈ service.ports, port.name = "http" ∧ Routing.AgentRouterService.getRouter env u.path =
        "http://" ++ service.name ++ ":" ++ numberText port.port) ∧
      Routing.AgentRouterModule.forwarded u = rest ++ u.query ∧ Reaches env settings c.world.runtime id service := by
  have hreaches := service_reaches hrun hsome hservice
  obtain ⟨origin, -, horigin, hconfig⟩ := ((originsOk hrun).inv.objects id).2.2 config hsome
  have hendpoint : config.endpoint = env.publicUrl ++ "/v1/router/" ++ id := by
    rw [hconfig, ← horigin]
    rfl
  rw [hendpoint, endpointPath hsegment hrest] at hu
  have hslash : '/' ∉ id.toList := fun hmem => absurd (hsegment '/' hmem) (by decide)
  refine ⟨⟨_, http_mem_ports hservice, rfl, ?_⟩, forwarded_endpoint hid hslash hu, hreaches⟩
  have hrouted : Routing.AgentRouterService.agentId? u.path = some id.toList := by
    rw [hu, Routing.agentId?_routerPath, List.takeWhile_append_of_pos (Routing.bne_slash_of_notMem hslash)]
    simp
  rw [hreaches.name, hconfig, show (Agency.AgentConfig.new env origin).httpPort = parseInt env.agentHttpPort from rfl,
    hport, Routing.AgentRouterService.getRouter, hrouted, Option.elim_some, String.ofList_toList]
  rfl

/-- A message to an agent below its endpoint. -/
def messageUrl : Routing.AgentRouterModule.RequestUrl where
  path := "/v1/router/agent/msg".toList
  query := "?id=1".toList
  path_plain := by decide
  query_start := .inr ⟨_, rfl⟩

theorem endpoints_reach_agents_messageUrl : ∃ c, (system sampleEnv).run (.init .empty) started = some c ∧
    ∃ service : V1Service,
      (∃ port ∈ service.ports, port.name = "http" ∧ Routing.AgentRouterService.getRouter sampleEnv messageUrl.path =
        "http://" ++ service.name ++ ":" ++ numberText port.port) ∧
      Routing.AgentRouterModule.forwarded messageUrl = "msg".toList ++ messageUrl.query ∧
      Reaches sampleEnv sampleSettings c.world.runtime "agent" service := by
  have hrun : ∃ c, (system sampleEnv).run (.init .empty) started = some c ∧
      c.world.runtime.services "agent" = some (Agency.AgentConfig.new sampleEnv sampleAgent) := ⟨_, rfl, rfl⟩
  obtain ⟨c, hc, hsome⟩ := hrun
  have hport : numberText (parseInt sampleEnv.agentHttpPort) = sampleEnv.agentHttpPort := by decide +kernel
  have hpath : messageUrl.path = Routing.requestPath sampleEnv.publicUrl
      ((Agency.AgentConfig.new sampleEnv sampleAgent).endpoint.toList ++ '/' :: "msg".toList) := by decide +kernel
  exact ⟨c, hc, _, endpoints_reach_agents hc hsome ⟨sampleRequest, rfl, rfl⟩ hport (by decide)
    (by simp [Text.inSegment]) (by simp) hpath⟩

/-! ## Containers -/

end GuardianshipAgency.Deployment
