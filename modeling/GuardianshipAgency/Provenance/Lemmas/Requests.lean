import GuardianshipAgency.Agency.Lemmas.Webhooks
import GuardianshipAgency.Provenance.Lemmas.Origins

/-!
# Whose key goes where
-/

namespace GuardianshipAgency.Agency

open Js Async Expiring

variable (env : Env) (asked : Call → Prop)

/-- A wallet of this name was asked for. -/
def WalletAsked (name : String) : Prop := ∃ body, asked (.createWallet body) ∧ body.walletName = name

/-- The keys that reach the host of an agent: its own, the one a caller of `connectAgent` gives, and the admin key of
the multitenant server where someone asks for a connection of a wallet as if it were an agent. -/
inductive KeyFor (id : String) : String → Prop where
  | own {agentDto : AgentCreateDto} (hasked : asked (.spinUpAgent agentDto)) (hid : agentDto.agentId = id) :
      KeyFor id agentDto.adminApiKey
  | given {adminApiKey : String} (hasked : asked (.connectAgent id adminApiKey)) : KeyFor id adminApiKey
  | wallet (hwallet : WalletAsked asked id)
      (hasked : asked (.createAgentConnection id) ∨ ∃ body, asked (.registerWithTDC id body)) :
      KeyFor id env.acapyAdminApiKey

def TargetFrom (t : AdminTarget) : Prop :=
  match t.host with
  | .agent id _ => KeyFor env asked id t.apiKey
  | .multitenant => t.apiKey = env.acapyAdminApiKey

/-- A webhook is passed on with the URL and the key of one agent, or with those of the multitenant server and a token. -/
inductive WebhookFrom (msg : WebhookMsg) : Prop where
  | agent {config : AgentConfig} (hconfig : ConfigFrom env asked msg.agentId config)
      (haccess : msg.access =
        { url := (AdminHost.agent msg.agentId (.number config.adminPort)).url env, apiKey := config.adminApiKey,
          token := none })
  | wallet {token : String} (hwallet : WalletAsked asked msg.agentId)
      (haccess : msg.access =
        { url := env.multitenantUrl, apiKey := env.acapyAdminApiKey, token := some token })

def RequestFrom : Op → Prop
  | .status t | .createInvitation t | .createWallet t _ | .getAllWallets t | .getToken t _ _ | .removeWallet t _ _ =>
      TargetFrom env asked t
  | .handleAcapyWebhookMsg msg => WebhookFrom env asked msg
  | _ => True

/-- A lookup finds only entries that were asked for. -/
def Known : (op : Op) → Except JsError op.Val → Prop
  | .cacheGet key, r => ∀ e, r = .ok (.entry e) → EntryFrom env asked key e
  | _, _ => True

variable {env asked}

/-! ## `AgentManagerService` -/

theorem manageOp_requestFrom {agentDto : AgentCreateDto} (hasked : asked (.spinUpAgent agentDto)) {op : Op}
    (hop : ManageOp (AgentConfig.new env agentDto) op) : RequestFrom env asked op := by
  cases op with
  | status t =>
      cases hop
      exact .own hasked rfl
  | createInvitation t =>
      cases hop
      exact .own hasked rfl
  | _ => trivial

theorem startOp_requestFrom {config : AgentConfig} {op : Op} (hop : StartOp config op) : RequestFrom env asked op := by
  cases op <;> trivial

theorem spinDownOp_requestFrom {id : String} {op : Op} (hop : SpinDownOp id op) : RequestFrom env asked op := by
  cases op <;> trivial

theorem connectAgent_requestFrom {agentId adminApiKey : String} (hasked : asked (.connectAgent agentId adminApiKey)) :
    (AgentManagerService.connectAgent env agentId adminApiKey).Calls (RequestFrom env asked) :=
  .bind (.call trivial) fun _ =>
    .bind (AgentManagerService.pingConnectionWithRetry_calls (RequestFrom env asked) (.given hasked) trivial trivial _)
      fun _ => .bind (.call (.given hasked)) fun _ => trivial

/-! ## `MultitenantService` -/

theorem getTokenAndWalletId_requestFrom (walletName walletKey : String) :
    (MultitenantService.getTokenAndWalletId env walletName walletKey).Calls (RequestFrom env asked) := by
  refine .bind (.call trivial) fun agent => ?_
  split
  · split <;> trivial
  · trivial
  · refine .bind (.call rfl) fun allWallets => ?_
    split
    · trivial
    · split
      · trivial
      · exact .bind (.call rfl) fun _ => trivial

theorem createWallet_requestFrom (body : WalletCreateDto) :
    (MultitenantService.createWallet env body).Calls (RequestFrom env asked) := by
  refine .bind (.tryCatch (.call rfl) fun e => ?_) fun _ => .bind (.call trivial) fun _ => .bind ?_ fun _ => trivial
  · split
    · exact getTokenAndWalletId_requestFrom _ _
    · trivial
  · unfold MultitenantService.invitationFor
    split
    · exact .call rfl
    · trivial

theorem removeWallet_requestFrom (walletName walletKey : String) :
    (MultitenantService.removeWallet env walletName walletKey).Calls (RequestFrom env asked) := by
  refine .bind (.call trivial) fun agent => ?_
  split
  · exact .call rfl
  · trivial

/-! ## Services that look up an entry -/

theorem webhookFrom_entry {agentId route topic : String} {body : Json} {e : CacheEntry}
    (he : EntryFrom env asked agentId e) : WebhookFrom env asked (webhookMsg env agentId route topic body e) := by
  cases he with
  | agent hconfig => exact .agent hconfig rfl
  | wallet hasked hname => exact .wallet ⟨_, hasked, hname⟩ rfl

theorem handleRequest_requestFrom (agentId route topic : String) (body : Json) :
    ((Call.handleRequest agentId route topic body).body env).CallsIf (Known env asked) (RequestFrom env asked) := by
  rw [handleRequest_body]
  refine ⟨trivial, fun r hr => ?_⟩
  unfold afterLookup
  split
  · split
    · refine ⟨webhookFrom_entry (hr _ rfl), fun r _ => ?_⟩
      cases r <;> trivial
    · trivial
  · trivial
  · trivial

theorem keyFor_entry {agentId : String} {e : CacheEntry} (he : EntryFrom env asked agentId e)
    (hasked : asked (.createAgentConnection agentId) ∨ ∃ body, asked (.registerWithTDC agentId body)) :
    KeyFor env asked agentId e.adminApiKey := by
  cases he with
  | agent hconfig =>
      obtain ⟨agentDto, hspinUp, hid, rfl⟩ := hconfig
      exact .own hspinUp hid
  | wallet hwallet hname => exact .wallet ⟨_, hwallet, hname⟩ hasked

theorem createAgentConnection_requestFrom {agentId : String}
    (hasked : asked (.createAgentConnection agentId) ∨ ∃ body, asked (.registerWithTDC agentId body)) :
    (TransactionService.createAgentConnection env agentId).CallsIf (Known env asked) (RequestFrom env asked) := by
  refine ⟨trivial, fun r hr => ?_⟩
  cases r with
  | error e => trivial
  | ok found =>
      cases found with
      | entry e => exact ⟨keyFor_entry (hr e rfl) hasked, fun _ _ => trivial⟩
      | undefined => trivial
      | null => trivial

/-! ## All calls -/

theorem body_requestFrom {k : Call} (hk : Allowed env asked k) :
    (k.body env).CallsIf (Known env asked) (RequestFrom env asked) := by
  rcases hk with hk | ⟨now, t, rfl, -⟩
  · cases k with
    | spinUpAgent agentDto =>
        refine .of_calls ((Call.body_calls env (.spinUpAgent agentDto)).mono fun op hop => ?_)
        rcases hop with hop | hop
        · exact startOp_requestFrom hop
        · exact manageOp_requestFrom hk hop
    | spinDownAgent agentId =>
        exact .of_calls ((Call.body_calls env (.spinDownAgent agentId)).mono fun _ => spinDownOp_requestFrom)
    | connectAgent agentId adminApiKey => exact .of_calls (.bind (connectAgent_requestFrom hk) fun _ => trivial)
    | createWallet body => exact .of_calls (.bind (createWallet_requestFrom body) fun _ => trivial)
    | removeWallet walletName walletKey => exact .of_calls (.bind (removeWallet_requestFrom _ _) fun _ => trivial)
    | handleRequest agentId route topic body => exact handleRequest_requestFrom agentId route topic body
    | createAgentConnection agentId => exact .bind (createAgentConnection_requestFrom (.inl hk)) fun _ => trivial
    | registerWithTDC agentId body =>
        refine .bind (.bind (createAgentConnection_requestFrom (.inr ⟨body, hk⟩)) fun invitation => ?_) fun _ => trivial
        exact .bind (.of_calls trivial) fun label => .of_calls (.bind (.call trivial) fun _ => trivial)
  · exact .of_calls ((Call.body_calls env (.spinDownAgent t.agentId)).mono fun _ => spinDownOp_requestFrom)

end GuardianshipAgency.Agency
