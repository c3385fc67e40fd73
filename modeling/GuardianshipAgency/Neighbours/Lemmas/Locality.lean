import GuardianshipAgency.Ownership.Lemmas.Objects
import GuardianshipAgency.Sharing.Lemmas.Cuts

/-!
# What a call has to do with one agent

A call under the name of an agent depends on the objects, the cache entry and the time alone, and touches nothing of any
other agent.
-/

namespace GuardianshipAgency.Sharing

open Js Async Expiring Agency

variable {env : Env} {ids : String → Bool} {id : String} {d : Detail}

/-! ## The calls of one agent -/

/-- Calls to a runtime object, a cache entry or the admin API of the agent, and calls that change neither. -/
def OfAgent (id : String) : Op → Prop
  | .createContainer config | .createNamespacedPod config | .createNamespacedService config => config.agentId = id
  | .startContainer name | .stopContainer name | .deleteNamespacedService name | .deleteNamespacedPod name => name = id
  | .cacheGet key | .cacheSet key _ _ | .cacheDel key => key = id
  | .status t | .createInvitation t => ∃ port, t.host = .agent id port
  | .setTimeout agentId _ => agentId = id
  | .delay ms => 0 ≤ ms
  | .handleAcapyWebhookMsg msg => msg.agentId = id
  | .getTime | .register _ _ => True
  | _ => False

theorem ofAgent_of_spinUp {config : AgentConfig} {op : Op} (h : SpinUpOp config op) : OfAgent config.agentId op := by
  rcases h with h | h
  · cases op with
    | createContainer c | createNamespacedPod c | createNamespacedService c =>
        rw [show c = config from h]
        exact rfl
    | startContainer name => exact h
    | _ => exact absurd h id
  · cases op with
    | cacheGet key => exact h
    | cacheSet key entry ttl => exact h.1
    | status target | createInvitation target => exact ⟨_, by rw [show target = _ from h]⟩
    | getTime => trivial
    | delay ms =>
        rw [show ms = 1000 from h]
        exact (by norm_num : (0 : ℚ) ≤ 1000)
    | setTimeout agentId ms => exact h.1
    | _ => exact absurd h id

theorem ofAgent_of_spinDown {op : Op} (h : SpinDownOp id op) : OfAgent id op := by
  cases op with
  | cacheDel | stopContainer | deleteNamespacedService | deleteNamespacedPod => exact h
  | _ => exact absurd h (fun h => h)

theorem connectAgent_ofAgent (agentId adminApiKey : String) :
    (AgentManagerService.connectAgent env agentId adminApiKey).Calls (OfAgent agentId) := by
  refine .bind (.call rfl) fun agentCache => .bind ?_ fun _ => .bind (.call ⟨_, rfl⟩) fun _ => trivial
  refine AgentManagerService.pingConnectionWithRetry_calls _ ⟨_, rfl⟩ trivial ?_ _
  exact (by norm_num : (0 : ℚ) ≤ 1000)

theorem handleRequest_ofAgent (agentId route topic : String) (body : Json) :
    (AgentControllerService.handleRequest env agentId route topic body).Calls (OfAgent agentId) :=
  .bind (.call rfl) fun _ => .bind trivial fun _ => .bind trivial fun _ => .call rfl

theorem createAgentConnection_ofAgent (agentId : String) :
    (TransactionService.createAgentConnection env agentId).Calls (OfAgent agentId) := by
  refine .bind (.bind (.call rfl) fun agentData => ?_) fun _ => .call ⟨_, rfl⟩
  split
  · trivial
  · exact .bind trivial fun _ => trivial

theorem registerWithTDC_ofAgent (agentId : String) (body : RegisterTdcDto) :
    (TransactionService.registerWithTDC env agentId body).Calls (OfAgent agentId) :=
  .bind (createAgentConnection_ofAgent agentId) fun _ => .bind trivial fun _ => .bind (.call trivial) fun _ => trivial

theorem body_ofAgent {k : Call} (h : ofTenants k = false) : (k.body env).Calls (OfAgent (nameOf k)) := by
  cases k with
  | spinUpAgent agentDto =>
      exact .bind ((AgentManagerService.spinUpAgent_calls env agentDto).mono fun _ => ofAgent_of_spinUp)
        fun _ => trivial
  | spinDownAgent agentId =>
      exact .bind ((AgentManagerService.spinDownAgent_calls env agentId).mono fun _ => ofAgent_of_spinDown)
        fun _ => trivial
  | connectAgent agentId adminApiKey => exact .bind (connectAgent_ofAgent agentId adminApiKey) fun _ => trivial
  | handleRequest agentId route topic body =>
      exact .bind (handleRequest_ofAgent agentId route topic body) fun _ => trivial
  | createAgentConnection agentId => exact .bind (createAgentConnection_ofAgent agentId) fun _ => trivial
  | registerWithTDC agentId body => exact .bind (registerWithTDC_ofAgent agentId body) fun _ => trivial
  | createWallet | removeWallet => cases h

/-! ## The same objects, the same effect -/

theorem effect_plain {op : Op} (hop : op.ofRuntime) {w w' : World} {x} (h : effect env op d w = some (x, w')) :
    d = .plain := by
  cases op with
  | createContainer | startContainer | stopContainer | createNamespacedPod | createNamespacedService
  | deleteNamespacedService | deleteNamespacedPod =>
      cases d with
      | plain => rfl
      | _ => cases h
  | _ => cases hop

theorem OfAgent.isOn {op : Op} (h : OfAgent id op) (hop : op.ofRuntime) : op.IsOn id := by
  cases op with
  | createContainer | startContainer | stopContainer | createNamespacedPod | createNamespacedService
  | deleteNamespacedService | deleteNamespacedPod => exact h
  | _ => exact absurd hop (fun hop => hop)

/-- A call that can take effect on the objects of an agent does so in every world with these objects. -/
theorem effect_of_touches {op : Op} (hop : op.IsOn id) {o o' : Objects} (h : Touches id op o o') {v : World}
    (hv : v.runtime.objects id = o) (x : op.Val) :
    ∃ v', effect env op .plain v = some (x, v') ∧ v'.runtime.objects id = o' := by
  subst hv
  cases h with
  | @createContainer config _ hid hfree =>
      subst hid
      refine ⟨v.setContainer config.agentId (some { config, started := false }), ?_, ?_⟩
      · simp [effect, show v.runtime.containers _ = none from hfree]
      · simp [Runtime.objects, World.setContainer]
  | @startContainer config _ hcreated =>
      refine ⟨v.setContainer id (some { config, started := true }), ?_, ?_⟩
      · simp [effect, show v.runtime.containers _ = some _ from hcreated]
      · simp [Runtime.objects, World.setContainer]
  | stopContainer hstarted =>
      refine ⟨v.setContainer id none, ?_, ?_⟩
      · simp [effect, show v.runtime.containers _ = some _ from hstarted]
      · simp [Runtime.objects, World.setContainer]
  | @createPod config _ hid hfree =>
      subst hid
      refine ⟨v.setPod config.agentId (some config), ?_, ?_⟩
      · simp [effect, show v.runtime.pods _ = none from hfree]
      · simp [Runtime.objects, World.setPod]
  | @createService config _ hid hfree =>
      subst hid
      refine ⟨v.setService config.agentId (some config), ?_, ?_⟩
      · simp [effect, show v.runtime.services _ = none from hfree]
      · simp [Runtime.objects, World.setService]
  | deleteService hcreated =>
      refine ⟨v.setService id none, ?_, ?_⟩
      · simp [effect, show v.runtime.services _ = some _ from hcreated]
      · simp [Runtime.objects, World.setService]
  | deletePod hcreated =>
      refine ⟨v.setPod id none, ?_, ?_⟩
      · simp [effect, show v.runtime.pods _ = some _ from hcreated]
      · simp [Runtime.objects, World.setPod]
  | apart hapart => exact absurd hop hapart

/-- A call to the runtime changes nothing else. -/
theorem effect_frame {op : Op} (hop : op.ofRuntime) {w w' : World} {x} (h : effect env op d w = some (x, w')) :
    w' = { w with runtime := w'.runtime } := by
  rcases effect_cases h with rfl | ⟨-, hw⟩ | ⟨_, _, _, rfl, -⟩ | ⟨_, rfl, -⟩ | hserver | ⟨_, _, rfl, -⟩ |
    ⟨_, _, rfl, -⟩
  · rfl
  · exact hw
  · exact absurd hop (fun hop => hop)
  · exact absurd hop (fun hop => hop)
  · cases hserver <;> cases hop
  · exact absurd hop (fun hop => hop)
  · exact absurd hop (fun hop => hop)

/-- Whether an agent accepts a request depends on its objects alone. -/
theorem accepts_congr {w v : World} (h : v.runtime.objects id = w.runtime.objects id) {target : AdminTarget}
    (htarget : ∃ port, target.host = .agent id port) : v.accepts env target = w.accepts env target := by
  obtain ⟨port, hhost⟩ := htarget
  have hrunning : v.running env id = w.running env id := by
    have hcontainer : v.runtime.containers id = w.runtime.containers id := congrArg Objects.container h
    have hpod : v.runtime.pods id = w.runtime.pods id := congrArg Objects.pod h
    have hservice : v.runtime.services id = w.runtime.services id := congrArg Objects.service h
    simp only [World.running, Runtime.running, hcontainer, hpod, hservice]
  simp only [World.accepts, hhost, hrunning]

/-- A call touches no other agent. -/
theorem effect_apart {op : Op} (hop : ¬op.IsOn id) {w w' : World} {x} (h : effect env op d w = some (x, w')) :
    w'.runtime.objects id = w.runtime.objects id := by
  have htouches := effect_touches id h
  generalize w.runtime.objects id = o at htouches
  generalize w'.runtime.objects id = o' at htouches
  cases htouches with
  | createContainer hid _ | createPod hid _ | createService hid _ => exact absurd hid hop
  | startContainer | stopContainer | deleteService | deletePod => exact absurd rfl hop
  | apart _ => rfl

theorem OfAgent.frame {op : Op} (hop : OfAgent id op) {w w' : World} {x} (h : effect env op d w = some (x, w'))
    {id' : String} (hne : id' ≠ id) :
    w'.runtime.objects id' = w.runtime.objects id' ∧ w'.cache id' = w.cache id' := by
  refine ⟨effect_apart (fun hon => ?_) h, ?_⟩
  · cases op with
    | createContainer | startContainer | stopContainer | createNamespacedPod | createNamespacedService
    | deleteNamespacedService | deleteNamespacedPod => exact hne (Eq.trans (Eq.symm hon) hop)
    | _ => exact hon
  · rcases effect_cache h with hcache | ⟨key, entry, ttl, rfl, rfl⟩ | ⟨key, rfl, rfl⟩
    · rw [hcache]
    · obtain rfl : key = id := hop
      exact Store.write_of_ne _ _ _ hne
    · obtain rfl : key = id := hop
      exact Store.erase_of_ne _ hne

theorem OfAgent.timers {op : Op} (hop : OfAgent id op) {w w' : World} {x} (h : effect env op d w = some (x, w')) :
    ∃ new, w'.timers = w.timers ++ new ∧ ∀ t ∈ new, t.agentId = id := by
  rcases effect_cases h with rfl | ⟨-, hw⟩ | ⟨_, _, _, -, rfl⟩ | ⟨_, -, rfl⟩ | hserver | ⟨_, _, -, -, rfl⟩ |
    ⟨agentId, ms, rfl, rfl⟩
  · exact ⟨[], (List.append_nil _).symm, by simp⟩
  · exact ⟨[], by rw [hw, List.append_nil], by simp⟩
  · exact ⟨[], (List.append_nil _).symm, by simp⟩
  · exact ⟨[], (List.append_nil _).symm, by simp⟩
  · exact ⟨[], by rw [hserver.frame, List.append_nil], by simp⟩
  · exact ⟨[], (List.append_nil _).symm, by simp⟩
  · obtain rfl : agentId = id := hop
    exact ⟨[{ agentId, due := w.now + timerDelay ms }], rfl, by simp⟩

end GuardianshipAgency.Sharing
