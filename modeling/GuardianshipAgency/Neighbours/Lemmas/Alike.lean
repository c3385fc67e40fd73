import GuardianshipAgency.Neighbours.Lemmas.Locality

/-!
# Leaving agents out of a run

The agents of `ids` go on alike without the others.
-/

namespace GuardianshipAgency.Sharing

open Js Async Expiring Agency

variable {env : Env} {ids : String → Bool}

/-- The calls under the names of `ids` stay, and the timers of these agents. In place of a call that waits time
passes. -/
def agentsCut (ids : String → Bool) : Cut Op Choice Call Event where
  keeps k := ids (nameOf k)
  keepsEnv
    | .fire t => ids t.agentId
    | _ => true
  instead := waits

/-- What the agents of `ids` can see is the same in both worlds. -/
structure AgentsAlike (ids : String → Bool) (w v : World) : Prop where
  now : v.now = w.now
  objects : ∀ id, ids id = true → v.runtime.objects id = w.runtime.objects id
  cache : ∀ id, ids id = true → v.cache id = w.cache id
  timers : v.timers = w.timers.filter fun t => ids t.agentId

/-- No wallet has the name of an agent of `ids`. -/
def Apart (ids : String → Bool) (k : Call) : Prop := ids (nameOf k) = true → ofTenants k = false

def AwaitsOwn (k : Call) (op : Op) : Prop :=
  (ofTenants k = false → OfAgent (nameOf k) op) ∧ (ofTenants k = true → WalletOp (nameOf k) op)

theorem body_awaitsOwn (k : Call) : (k.body env).Calls (AwaitsOwn k) := by
  cases hk : ofTenants k with
  | false => exact (body_ofAgent hk).mono fun op hop => ⟨fun _ => hop, fun hk' => by simp [hk] at hk'⟩
  | true => exact (body_walletOp hk).mono fun op hop => ⟨fun hk' => (by simp [hk] at hk'), fun _ => hop⟩

namespace AgentsAlike

variable {w v w' : World} {id : String} {d : Detail}

/-! ## Calls that stay -/

theorem onRuntime (h : AgentsAlike ids w v) (hid : ids id = true) {op : Op} (hop : OfAgent id op)
    (hruntime : op.ofRuntime) {x} (he : effect env op d w = some (x, w')) :
    ∃ v', effect env op d v = some (x, v') ∧ AgentsAlike ids w' v' := by
  obtain rfl := effect_plain hruntime he
  obtain ⟨v', hv', hobjects⟩ := effect_of_touches (hop.isOn hruntime) (effect_touches id he) (h.objects id hid) x
  have hw := effect_frame hruntime he
  have hv := effect_frame hruntime hv'
  refine ⟨v', hv', ?_, fun id' hid' => ?_, fun id' hid' => ?_, ?_⟩
  · rw [hw, hv]
    exact h.now
  · by_cases hne : id' = id
    · rw [hne]
      exact hobjects
    · rw [(hop.frame he hne).1, (hop.frame hv' hne).1]
      exact h.objects id' hid'
  · rw [hw, hv]
    exact h.cache id' hid'
  · rw [hw, hv]
    exact h.timers

theorem onKey (h : AgentsAlike ids w v) (hid : ids id = true) {op : Op} {x} (he : effect env op d w = some (x, w'))
    (hop : OnKey id op) : ∃ v', effect env op d v = some (x, v') ∧ AgentsAlike ids w' v' := by
  obtain ⟨cw, cv, rfl, hv, hcache⟩ := effect_onKeys h.now h.cache hid hop he
  exact ⟨_, hv, h.now, h.objects, hcache, h.timers⟩

/-- A call that stays does the same. -/
theorem ofAgent (h : AgentsAlike ids w v) (hid : ids id = true) {op : Op} (hop : OfAgent id op) {x}
    (he : effect env op d w = some (x, w')) : ∃ v', effect env op d v = some (x, v') ∧ AgentsAlike ids w' v' := by
  cases op with
  | createContainer | startContainer | stopContainer | createNamespacedPod | createNamespacedService
  | deleteNamespacedService | deleteNamespacedPod => exact h.onRuntime hid hop trivial he
  | cacheGet | cacheSet | cacheDel => exact h.onKey hid he hop
  | status target =>
      cases d with
      | status code =>
          obtain ⟨haccepts, he⟩ := Option.ite_none_right_eq_some.mp he
          cases he
          refine ⟨v, ?_, h⟩
          simp only [effect, accepts_congr (h.objects id hid) hop, if_pos haccepts]
      | _ => cases he
  | createInvitation target =>
      cases d with
      | invitation invitation =>
          obtain ⟨haccepts, he⟩ := Option.ite_none_right_eq_some.mp he
          cases he
          refine ⟨v, ?_, h⟩
          simp only [effect, accepts_congr (h.objects id hid) hop, if_pos haccepts]
      | _ => cases he
  | handleAcapyWebhookMsg | register =>
      cases d with
      | data data =>
          cases he
          exact ⟨v, rfl, h⟩
      | _ => cases he
  | getTime =>
      cases d with
      | plain =>
          cases he
          refine ⟨v, ?_, h⟩
          simp only [effect, h.now]
      | _ => cases he
  | delay ms =>
      cases d with
      | elapsed d =>
          obtain ⟨hms, he⟩ := Option.ite_none_right_eq_some.mp he
          cases he
          refine ⟨{ v with now := v.now + d }, ?_, ?_, h.objects, h.cache, h.timers⟩
          · simp only [effect, if_pos hms]
          · simp only [h.now]
      | _ => cases he
  | setTimeout agentId ms =>
      obtain rfl : agentId = id := hop
      cases d with
      | plain =>
          cases he
          refine ⟨_, rfl, h.now, h.objects, h.cache, ?_⟩
          simp [h.timers, h.now, List.filter_append, hid]
      | _ => cases he
  | createWallet | getAllWallets | getToken | removeWallet => exact absurd hop (fun hop => hop)

/-! ## Calls left out -/

/-- What the other agents do goes unnoticed, but for the time that it takes. -/
theorem leavesAgent (h : AgentsAlike ids w v) (hid : ids id = false) {op : Op} (hop : OfAgent id op) {ch : Choice}
    {a} (ha : answer env op ch w = some (a, w')) :
    ∃ v', (system env).Moves v (waits op ch) v' ∧ AgentsAlike ids w' v' := by
  rcases answer_cases ha with ⟨rfl, e, -, rfl, -⟩ | ⟨d, o, x, rfl, he, -⟩
  · refine ⟨v, ?_, h⟩
    cases op <;> rfl
  have hothers : ∀ id', ids id' = true → w'.runtime.objects id' = w.runtime.objects id' ∧ w'.cache id' = w.cache id' :=
    fun id' hid' => hop.frame he fun hne => by simp [hne, hid] at hid'
  have htimers : (w'.timers.filter fun t => ids t.agentId) = w.timers.filter fun t => ids t.agentId := by
    obtain ⟨new, hnew, hof⟩ := hop.timers he
    have hnone : (new.filter fun t => ids t.agentId) = [] :=
      List.filter_eq_nil_iff.mpr fun t ht => by simp [hof t ht, hid]
    rw [hnew, List.filter_append, hnone, List.append_nil]
  have hobjects : ∀ id', ids id' = true → v.runtime.objects id' = w'.runtime.objects id' := fun id' hid' =>
    (h.objects id' hid').trans (hothers id' hid').1.symm
  have hcache : ∀ id', ids id' = true → v.cache id' = w'.cache id' := fun id' hid' =>
    (h.cache id' hid').trans (hothers id' hid').2.symm
  by_cases hdelay : ∃ ms, op = .delay ms
  · obtain ⟨ms, rfl⟩ := hdelay
    cases d with
    | elapsed d =>
        obtain ⟨hms, he⟩ := Option.ite_none_right_eq_some.mp he
        cases he
        have hpos : 0 ≤ d := le_trans hop hms
        refine ⟨{ v with now := v.now + d }, ?_, ?_, h.objects, h.cache, h.timers⟩
        · simp only [waits, System.Moves, system, event, if_pos hpos]
        · simp only [h.now]
    | _ => cases he
  · have hnow := effect_now (fun ms hms => hdelay ⟨ms, hms⟩) he
    refine ⟨v, ?_, h.now.trans hnow.symm, hobjects, hcache, h.timers.trans htimers.symm⟩
    cases op with
    | delay ms => exact absurd ⟨ms, rfl⟩ hdelay
    | _ => rfl

/-- So does what is done with wallets. -/
theorem leavesWallet (h : AgentsAlike ids w v) {name : String} (hname : ids name = false) {op : Op}
    (hop : WalletOp name op) {ch : Choice} {a} (ha : answer env op ch w = some (a, w')) :
    ∃ v', (system env).Moves v (waits op ch) v' ∧ AgentsAlike ids w' v' := by
  have hwaits : waits op ch = none := by
    cases op with
    | delay => rcases hop with hop | hop <;> exact absurd hop (fun hop => hop)
    | _ => rfl
  refine ⟨v, by rw [hwaits]; rfl, ?_⟩
  rcases answer_cases ha with ⟨rfl, -⟩ | ⟨d, o, x, rfl, he, -⟩
  · exact h
  obtain ⟨hnow, hruntime, htimers, hcache⟩ := walletOp_frame hop he
  refine ⟨h.now.trans hnow.symm, fun id hid => ?_, fun id hid => ?_, htimers ▸ h.timers⟩
  · rw [hruntime]
    exact h.objects id hid
  · have hne : id ≠ name := fun hne => by simp [hne, hname] at hid
    exact (h.cache id hid).trans (hcache id hne).symm

theorem event (h : AgentsAlike ids w v) {e : Event} {ks : List Call} (he : event e w = some (w', ks)) :
    (∀ k ∈ ks, Apart ids k ∧ ids (nameOf k) = (agentsCut ids).keepsEnv e) ∧
      ∃ v', (if (agentsCut ids).keepsEnv e then Agency.event e v = some (v', ks) else v' = v) ∧
        AgentsAlike ids w' v' := by
  cases e with
  | pass ms =>
      obtain ⟨hms, he⟩ := Option.ite_none_right_eq_some.mp he
      cases he
      refine ⟨fun k hk => (by cases hk), { v with now := v.now + ms }, ?_, ?_, h.objects, h.cache, h.timers⟩
      · simp only [agentsCut, if_true, Agency.event, if_pos hms]
      · simp only [h.now]
  | evict key =>
      cases he
      exact ⟨fun k hk => (by cases hk), v.del key, rfl, h.now, h.objects,
        fun id hid => del_alike key (h.cache id hid), h.timers⟩
  | fire t =>
      obtain ⟨ht, he⟩ := Option.ite_none_right_eq_some.mp he
      cases he
      refine ⟨fun k hk => ?_, ?_⟩
      · rw [List.mem_singleton.mp hk]
        exact ⟨fun _ => rfl, rfl⟩
      · cases hid : ids t.agentId with
        | true =>
            have ht' : t ∈ v.timers ∧ t.due ≤ v.now := by
              rw [h.timers, h.now, List.mem_filter]
              exact ⟨⟨ht.1, hid⟩, ht.2⟩
            refine ⟨{ v with timers := v.timers.erase t }, ?_, h.now, h.objects, h.cache, ?_⟩
            · simp only [agentsCut, hid, if_true, Agency.event, if_pos ht']
            · rw [h.timers, List.erase_filter]
        | false =>
            refine ⟨v, ?_, h.now, h.objects, h.cache, ?_⟩
            · simp [agentsCut, hid]
            · rw [h.timers, ← List.erase_filter, List.erase_of_not_mem (by simp [hid])]

end AgentsAlike

theorem agentsCut_sound (ids : String → Bool) :
    (agentsCut ids).Sound (system env) (Apart ids) AwaitsOwn (AgentsAlike ids) where
  body k _ := body_awaitsOwn k
  arrive k w v hk h := by
    split <;> exact h
  answer k op ch w a w' v hk hkeeps hop h ha :=
    answer_alike h (fun d x w' he => h.ofAgent hkeeps (hop.1 (hk hkeeps)) he) ha
  leaves k op ch w a w' v hk hkeeps hop h ha := by
    cases htenants : ofTenants k with
    | false => exact h.leavesAgent hkeeps (hop.1 htenants) ha
    | true => exact h.leavesWallet hkeeps (hop.2 htenants) ha
  env e w w' ks v h he := h.event he

end GuardianshipAgency.Sharing
