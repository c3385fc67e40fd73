import GuardianshipAgency.Agency.Lemmas.Calls
import GuardianshipAgency.Agency.Lemmas.Steps
import GuardianshipAgency.Async.Lemmas.Pool
import GuardianshipAgency.Transactions.Lemmas.Shape

/-!
# Webhooks and the admin requests they lead to
-/

namespace GuardianshipAgency.Agency

open Js Async Expiring

variable {env : Env}

/-! ## `handleRequest` after its lookup -/

def webhookMsg (env : Env) (agentId route topic : String) (body : Json) (e : CacheEntry) : WebhookMsg :=
  let host : AdminHost := if e.multitenant then .multitenant else .agent agentId e.adminApiPort
  { agentUrl := host.url env, agentId, adminApiKey := e.adminApiKey, route, topic, body, token := e.token }

def afterLookup (env : Env) (agentId route topic : String) (body : Json) :
    Except JsError Lookup → Prog JsError Op.Val Reply
  | .ok (.entry e) =>
      match env.getHandler topic with
      | .ok _ => .await (.handleAcapyWebhookMsg (webhookMsg env agentId route topic body e)) fun
          | .ok data => .settled (.ok (.data data))
          | .error e => .settled (.error e)
      | .error e => .settled (.error e)
  | .ok found => .settled ((found.deref "multitenant").map fun _ => .nothing)
  | .error e => .settled (.error e)

theorem handleRequest_body (agentId route topic : String) (body : Json) :
    (Call.handleRequest agentId route topic body).body env =
      .await (.cacheGet agentId) (afterLookup env agentId route topic body) := by
  simp only [Call.body, AgentControllerService.handleRequest, Prog.call_bind, Prog.await_bind]
  congr 1
  funext r
  cases r with
  | error e => rfl
  | ok found =>
      cases found with
      | entry e =>
          simp only [afterLookup, Lookup.deref, Prog.settled_ok_bind, Prog.ofExcept_eq]
          cases env.getHandler topic with
          | error e => rfl
          | ok u =>
              simp only [Prog.settled_ok_bind, Prog.call, Prog.await_bind]
              congr 1
              funext r
              cases r <;> rfl
      | _ => rfl

theorem afterLookup_calls (agentId route topic : String) (body : Json) (r : Except JsError Lookup) :
    (afterLookup env agentId route topic body r).Calls fun op => ∀ key, op ≠ .cacheGet key := by
  unfold afterLookup
  split
  · split
    · refine ⟨fun key he => (by cases he), fun r => ?_⟩
      cases r <;> trivial
    · trivial
  · trivial
  · trivial

/-- A webhook that waits for its lookup has everything else before it. -/
theorem handleRequest_next {agentId route topic : String} {body : Json} {key : String}
    {next : Except JsError Lookup → Prog JsError Op.Val Reply}
    (h : ((Call.handleRequest agentId route topic body).body env).Reaches (.await (.cacheGet key) next)) :
    key = agentId ∧ next = afterLookup env agentId route topic body := by
  rw [handleRequest_body] at h
  cases h with
  | refl => exact ⟨rfl, rfl⟩
  | @answered _ _ r _ h => exact absurd rfl (((afterLookup_calls agentId route topic body r).reaches h).1 key)

theorem step_lookup {c c' : Config JsError Op.Val World Call Reply} {i : Nat}
    {th th' : Thread JsError Op.Val World Call Reply} {key : String}
    {next : Except JsError Lookup → Prog JsError Op.Val Reply} (hth : c.threads[i]? = some th)
    (hprog : th.prog = .await (.cacheGet key) next)
    (hstep : (system env).step c (.answer i (.done .plain .answered)) = some c')
    (hth' : c'.threads[i]? = some th') : th'.prog = next (.ok (c.world.get env key)) := by
  simp only [System.step, hth, hprog, system, machine, answer, effect] at hstep
  cases hstep
  obtain ⟨hi, -⟩ := List.getElem?_eq_some_iff.mp hth
  rw [List.getElem?_set_self hi] at hth'
  cases hth'
  rfl

/-! ## Runs without wallets -/

/-- The calls of `AgentManagerService`, and webhooks. -/
def Call.ofAgents : Call → Prop
  | .spinUpAgent _ | .spinDownAgent _ | .handleRequest _ _ _ _ => True
  | _ => False

def AgentsOnly (w : World) : Prop := w.cache.Forall fun _ entry => entry.multitenant = false

def agentsRely : Rely World where
  inv := AgentsOnly
  rel _ _ := True
  refl _ := trivial
  trans _ _ := trivial

theorem agentsOnly_answer {k : Call} (hk : k.ofAgents) {op : Op} (hop : k.Makes env op) {ch : Choice}
    {w w' : World} {a} (hw : AgentsOnly w) (h : answer env op ch w = some (a, w')) : AgentsOnly w' := by
  refine answer_world (fun _ w' => AgentsOnly w') hw (fun d v w' he => ?_) h
  rcases effect_cache he with hc | ⟨key, entry, ttl, rfl, rfl⟩ | ⟨key, -, rfl⟩
  · rw [AgentsOnly, hc]
    exact hw
  · cases k with
    | spinUpAgent agentDto =>
        rcases hop with hop | ⟨-, rfl, -⟩
        · exact absurd hop id
        · exact Store.Forall.write hw rfl _
    | spinDownAgent agentId => exact absurd hop id
    | handleRequest agentId route topic body => exact absurd hop id
    | _ => exact absurd hk id
  · exact Store.Forall.erase hw key

theorem agentsSound : (system env).Sound agentsRely Call.ofAgents (fun _ _ => {}) (fun _ _ _ _ => True) where
  arrive _ _ _ hinv := ⟨hinv, trivial⟩
  body k w hk _ _ := by
    refine .of_calls (Call.body_calls env k) (fun _ _ _ _ _ _ => trivial) (fun op ch w a w' hop hw ha => ?_)
      fun _ _ _ => trivial
    exact ⟨agentsOnly_answer hk hop hw ha, trivial⟩
  env e w w' ks hinv h := by
    have hinv : AgentsOnly w := hinv
    rcases event_cases h with ⟨ms, -, rfl, rfl⟩ | ⟨key, rfl, rfl⟩ | ⟨t, -, -, rfl, rfl⟩
    · exact ⟨hinv, trivial, fun k hk => by cases hk⟩
    · exact ⟨Store.Forall.erase hinv key, trivial, fun k hk => by cases hk⟩
    · refine ⟨hinv, trivial, fun k hk => ?_⟩
      rw [List.mem_singleton.mp hk]
      trivial

theorem agentsOnly {ls : List (Label Choice Call Event)} {c : Config JsError Op.Val World Call Reply}
    (hcalls : ∀ k, .begin k ∈ ls → k.ofAgents) (hrun : (system env).run (.init .empty) ls = some c) :
    AgentsOnly c.world := by
  have hinit : AgentsOnly World.empty := .empty
  have hok := Config.Ok.run agentsSound (.init hinit) (System.along_of_mem (fun l hl c => ?_) _) hrun
  · exact hok.inv
  · cases l with
    | begin k => exact hcalls k hl
    | answer i ch => exact fun _ _ _ _ _ => trivial
    | env e => trivial

/-! ## Where admin requests go -/

structure AdminAccess where
  url : String
  apiKey : String
  token : Option String
deriving DecidableEq

def AdminTarget.access (env : Env) (t : AdminTarget) : AdminAccess :=
  { url := t.host.url env, apiKey := t.apiKey, token := t.token }

def WebhookMsg.access (msg : WebhookMsg) : AdminAccess :=
  { url := msg.agentUrl, apiKey := msg.adminApiKey, token := msg.token }

/-- The message handlers send no bearer token. -/
def messageAccess (env : Env) (m : Transactions.SendMessage) : AdminAccess :=
  { url := m.baseUrl env.agentAdminPort, apiKey := m.adminApiKey, token := none }

/-- A lookup of `agentId` is answered with the entry `e`. -/
def Finds (agentId : String) (e : CacheEntry) : (op : Op) → Except JsError op.Val → Prop
  | .cacheGet key, r => key = agentId → r = .ok (.entry e)
  | _, _ => True

theorem handleRequest_access {agentId route topic : String} {body : Json} {e : CacheEntry} {G : Op → Prop}
    (htopic : env.getHandler topic = .ok ()) (hget : G (.cacheGet agentId)) :
    ((Call.handleRequest agentId route topic body).body env).CallsIf (Finds agentId e) G ↔
      G (.handleAcapyWebhookMsg (webhookMsg env agentId route topic body e)) := by
  rw [handleRequest_body]
  constructor
  · intro h
    have hnext := h.2 (.ok (.entry e)) fun _ => rfl
    simp only [afterLookup, htopic] at hnext
    exact hnext.1
  · intro h
    refine ⟨hget, fun r hr => ?_⟩
    rw [hr rfl]
    simp only [afterLookup, htopic]
    refine ⟨h, fun r _ => ?_⟩
    cases r <;> trivial

theorem createAgentConnection_access {agentId : String} {e : CacheEntry} {G : Op → Prop}
    (hget : G (.cacheGet agentId)) :
    ((Call.createAgentConnection agentId).body env).CallsIf (Finds agentId e) G ↔
      G (.createInvitation { host := .agent agentId (.text env.agentAdminPort), apiKey := e.adminApiKey }) := by
  constructor
  · intro h
    exact (h.2 (.ok (.entry e)) fun _ => rfl).1
  · intro h
    refine ⟨hget, fun r hr => ?_⟩
    rw [hr rfl]
    refine ⟨h, fun r _ => ?_⟩
    cases r <;> trivial

end GuardianshipAgency.Agency
