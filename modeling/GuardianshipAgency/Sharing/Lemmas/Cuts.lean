import GuardianshipAgency.Async.Lemmas.Projection
import GuardianshipAgency.Sharing.Lemmas.Footprint

/-!
# Leaving one service out of a run

With names that are not shared each service goes on alike without the other.
-/

namespace GuardianshipAgency.Sharing

open Js Async Expiring Agency

variable {env : Env} {ids names : String → Prop}

/-! ## The two cuts -/

/-- The manager's calls stay, with all that the surroundings do. -/
def managerCut : Cut Op Choice Call Event where
  keeps := ofManager
  keepsEnv _ := true
  instead _ _ := none

/-- In place of a call that waits time passes. -/
def waits : Op → Choice → Option Event
  | .delay _, .done (.elapsed d) _ => some (.pass d)
  | _, _ => none

/-- The calls of `MultitenantService` stay. The timers are the manager's. -/
def tenantCut : Cut Op Choice Call Event where
  keeps := ofTenants
  keepsEnv
    | .fire _ => false
    | _ => true
  instead := waits

/-- The calls of the two services, each on names of its own. -/
def Separate (ids names : String → Prop) (k : Call) : Prop :=
  (ofManager k = true ∧ ids (nameOf k)) ∨ (ofTenants k = true ∧ names (nameOf k))

def Awaits (k : Call) (op : Op) : Prop :=
  (ofManager k = true → AgentOp (nameOf k) op) ∧ (ofTenants k = true → WalletOp (nameOf k) op)

theorem body_awaits {k : Call} (h : Separate ids names k) : (k.body env).Calls (Awaits k) := by
  rcases h with ⟨hk, -⟩ | ⟨hk, -⟩
  · refine (body_agentOp hk).mono fun op hop => ⟨fun _ => hop, fun hk' => ?_⟩
    rw [ofTenants_eq_false hk] at hk'
    cases hk'
  · refine (body_walletOp hk).mono fun op hop => ⟨fun hk' => ?_, fun _ => hop⟩
    rw [ofTenants_eq_false hk'] at hk
    cases hk

/-! ## Answers -/

/-- An answer depends on the world through the effect of the call alone. -/
theorem answer_alike {R : World → World → Prop} {op : Op} {w v : World} (hR : R w v)
    (heffect : ∀ d x w', effect env op d w = some (x, w') → ∃ v', effect env op d v = some (x, v') ∧ R w' v')
    {ch : Choice} {a} {w' : World} (h : answer env op ch w = some (a, w')) :
    ∃ v', answer env op ch v = some (a, v') ∧ R w' v' := by
  cases ch with
  | failed e =>
      simp only [answer] at h ⊢
      split at h
      · rename_i hremote
        cases h
        exact ⟨v, by rw [if_pos hremote], hR⟩
      · cases h
  | done d o =>
      simp only [answer] at h
      split at h
      · cases h
      · rename_i x w₁ he
        obtain ⟨v', hv', hR'⟩ := heffect d x w₁ he
        simp only [answer, hv']
        cases o with
        | answered =>
            cases h
            exact ⟨v', rfl, hR'⟩
        | rejected e | unanswered =>
            dsimp only at h ⊢
            split at h
            · rename_i hop
              cases h
              exact ⟨v', by rw [if_pos hop], hR'⟩
            · cases h

theorem del_alike {w v : World} {name : String} (key : String) (h : v.cache name = w.cache name) :
    (v.del key).cache name = (w.del key).cache name := by
  by_cases hname : name = key
  · subst hname
    simp [World.del]
  · simp [World.del, hname, h]

/-! ## Wallets without agents -/

/-- What the calls on `names` can see is the same in both worlds. The timers are those of `ids`. -/
structure TenantsAlike (ids names : String → Prop) (w v : World) : Prop where
  now : v.now = w.now
  server : v.server = w.server
  cache : ∀ name, names name → v.cache name = w.cache name
  timers : ∀ t ∈ w.timers, ids t.agentId

theorem TenantsAlike.eq {w v : World} (h : TenantsAlike ids names w v) :
    v = { w with cache := v.cache, runtime := v.runtime, timers := v.timers } := by
  obtain ⟨now, cache, runtime, server, timers⟩ := v
  obtain ⟨rfl, rfl, -, -⟩ := h
  rfl

theorem TenantsAlike.onKey {w v w' : World} (h : TenantsAlike ids names w v) {name : String} (hname : names name)
    {op : Op} (hop : OnKey name op) {d : Detail} {x} (he : effect env op d w = some (x, w')) :
    ∃ v', effect env op d v = some (x, v') ∧ TenantsAlike ids names w' v' := by
  obtain ⟨cw, cv, rfl, hv, hcache⟩ := effect_onKeys h.now h.cache hname hop he
  exact ⟨_, hv, h.now, h.server, hcache, h.timers⟩

theorem TenantsAlike.toServer {w v w' : World} (h : TenantsAlike ids names w v) {op : Op} (hop : ToServer op)
    {d : Detail} {x} (he : effect env op d w = some (x, w')) :
    ∃ v', effect env op d v = some (x, v') ∧ TenantsAlike ids names w' v' := by
  refine ⟨{ w' with cache := v.cache, runtime := v.runtime, timers := v.timers }, ?_, rfl, rfl, ?_, ?_⟩
  · rw [h.eq, effect_toServer hop, he]
    rfl
  · rw [toServer_frame hop he]
    exact h.cache
  · rw [toServer_frame hop he]
    exact h.timers

/-- What the manager does goes unnoticed, but for the time that it takes. -/
theorem TenantsAlike.agentOp {w v w' : World} (h : TenantsAlike ids names w v)
    (hdisjoint : ∀ name, ids name → ¬names name) {id : String} (hid : ids id) {op : Op} (hop : AgentOp id op)
    {ch : Choice} {a} (ha : answer env op ch w = some (a, w')) :
    ∃ v', (system env).Moves v (waits op ch) v' ∧ TenantsAlike ids names w' v' := by
  rcases answer_cases ha with ⟨rfl, e, -, rfl, -⟩ | ⟨d, o, x, rfl, he, -⟩
  · refine ⟨v, ?_, h⟩
    cases op <;> rfl
  have hserver := (agentOp_frame hop he).1
  have hcache : ∀ name, names name → w'.cache name = w.cache name := fun name hname =>
    (agentOp_frame hop he).2 name fun hne => hdisjoint id hid (hne ▸ hname)
  have htimers : ∀ t ∈ w'.timers, ids t.agentId := fun t ht => by
    rcases effect_timers hop he t ht with hold | hnew
    · exact h.timers t hold
    · rw [hnew]
      exact hid
  by_cases hdelay : ∃ ms, op = .delay ms
  · obtain ⟨ms, rfl⟩ := hdelay
    cases d with
    | elapsed d =>
        obtain ⟨hms, he⟩ := Option.ite_none_right_eq_some.mp he
        cases he
        have hpos : 0 ≤ d := by
          rcases hop with hop | hop
          · exact le_trans hop hms
          · exact absurd hop (fun hop => hop)
        refine ⟨{ v with now := v.now + d }, ?_, ?_, h.server, h.cache, h.timers⟩
        · simp only [waits, System.Moves, system, event, if_pos hpos]
        · simp only [h.now]
    | _ => cases he
  · have hnow := effect_now (fun ms hms => hdelay ⟨ms, hms⟩) he
    refine ⟨v, ?_, h.now.trans hnow.symm, h.server.trans hserver.symm, fun name hname => ?_, htimers⟩
    · cases op with
      | delay ms => exact absurd ⟨ms, rfl⟩ hdelay
      | _ => rfl
    · exact (h.cache name hname).trans (hcache name hname).symm

theorem TenantsAlike.event {w v w' : World} (h : TenantsAlike ids names w v) {e : Event} {ks : List Call}
    (he : event e w = some (w', ks)) :
    (∀ k ∈ ks, Separate ids names k ∧ ofTenants k = tenantCut.keepsEnv e) ∧
      ∃ v', (if tenantCut.keepsEnv e then Agency.event e v = some (v', ks) else v' = v) ∧
        TenantsAlike ids names w' v' := by
  cases e with
  | pass ms =>
      obtain ⟨hms, he⟩ := Option.ite_none_right_eq_some.mp he
      cases he
      refine ⟨fun k hk => (by cases hk), { v with now := v.now + ms }, ?_, ?_, h.server, h.cache, h.timers⟩
      · simp only [tenantCut, if_true, Agency.event, if_pos hms]
      · simp only [h.now]
  | evict key =>
      cases he
      exact ⟨fun k hk => (by cases hk), v.del key, rfl, h.now, h.server,
        fun name hname => del_alike key (h.cache name hname), h.timers⟩
  | fire t =>
      obtain ⟨ht, he⟩ := Option.ite_none_right_eq_some.mp he
      cases he
      refine ⟨fun k hk => ?_, v, rfl, h.now, h.server, h.cache, fun t' ht' => h.timers t' (List.mem_of_mem_erase ht')⟩
      rw [List.mem_singleton.mp hk]
      exact ⟨.inl ⟨rfl, h.timers t ht.1⟩, rfl⟩

theorem tenantCut_sound (hdisjoint : ∀ name, ids name → ¬names name) :
    tenantCut.Sound (system env) (Separate ids names) Awaits (TenantsAlike ids names) where
  body k hk := body_awaits hk
  arrive k w v hk h := by
    split <;> exact h
  answer k op ch w a w' v hk hkeeps hop h ha := by
    have hname : names (nameOf k) := by
      rcases hk with ⟨hk, -⟩ | ⟨-, hname⟩
      · exact absurd hkeeps (by simp [tenantCut, ofTenants_eq_false hk])
      · exact hname
    refine answer_alike h (fun d x w' he => ?_) ha
    rcases hop.2 hkeeps with hop | hop
    · exact h.toServer hop he
    · exact h.onKey hname hop he
  leaves k op ch w a w' v hk hkeeps hop h ha := by
    rcases hk with ⟨hk, hid⟩ | ⟨hk, -⟩
    · exact h.agentOp hdisjoint hid (hop.1 hk) ha
    · exact absurd hk (by simpa [tenantCut] using hkeeps)
  env e w w' ks v h he := h.event he

/-! ## Agents without wallets -/

/-- What the calls on `ids` can see is the same in both worlds. -/
structure ManagerAlike (ids : String → Prop) (w v : World) : Prop where
  now : v.now = w.now
  runtime : v.runtime = w.runtime
  timers : v.timers = w.timers
  cache : ∀ id, ids id → v.cache id = w.cache id
  timersOf : ∀ t ∈ w.timers, ids t.agentId

theorem ManagerAlike.eq {w v : World} (h : ManagerAlike ids w v) :
    v = { w with cache := v.cache, server := v.server } := by
  obtain ⟨now, cache, runtime, server, timers⟩ := v
  obtain ⟨rfl, rfl, rfl, -, -⟩ := h
  rfl

theorem ManagerAlike.onKey {w v w' : World} (h : ManagerAlike ids w v) {id : String} (hid : ids id) {op : Op}
    (hop : OnKey id op) {d : Detail} {x} (he : effect env op d w = some (x, w')) :
    ∃ v', effect env op d v = some (x, v') ∧ ManagerAlike ids w' v' := by
  obtain ⟨cw, cv, rfl, hv, hcache⟩ := effect_onKeys h.now h.cache hid hop he
  exact ⟨_, hv, h.now, h.runtime, h.timers, hcache, h.timersOf⟩

theorem ManagerAlike.toAgents {w v w' : World} (h : ManagerAlike ids w v) {id : String} (hid : ids id) {op : Op}
    (hop : ToAgents id op) {d : Detail} {x} (he : effect env op d w = some (x, w')) :
    ∃ v', effect env op d v = some (x, v') ∧ ManagerAlike ids w' v' := by
  refine ⟨{ w' with cache := v.cache, server := v.server }, ?_, rfl, rfl, rfl, ?_, fun t ht => ?_⟩
  · rw [h.eq, effect_toAgents hop, he]
    rfl
  · rw [toAgents_frame hop he]
    exact h.cache
  · rcases effect_timers (.inl hop) he t ht with hold | hnew
    · exact h.timersOf t hold
    · rw [hnew]
      exact hid

/-- What `MultitenantService` does goes unnoticed. -/
theorem ManagerAlike.walletOp {w v w' : World} (h : ManagerAlike ids w v)
    (hdisjoint : ∀ name, ids name → ¬names name) {name : String} (hname : names name) {op : Op}
    (hop : WalletOp name op) {ch : Choice} {a} (ha : answer env op ch w = some (a, w')) : ManagerAlike ids w' v := by
  rcases answer_cases ha with ⟨rfl, -⟩ | ⟨d, o, x, rfl, he, -⟩
  · exact h
  obtain ⟨hnow, hruntime, htimers, hcache⟩ := walletOp_frame hop he
  refine ⟨h.now.trans hnow.symm, h.runtime.trans hruntime.symm, h.timers.trans htimers.symm, fun id hid => ?_,
    htimers ▸ h.timersOf⟩
  have hne : id ≠ name := fun hne => hdisjoint id hid (hne ▸ hname)
  exact (h.cache id hid).trans (hcache id hne).symm

theorem ManagerAlike.event {w v w' : World} (h : ManagerAlike ids w v) {e : Event} {ks : List Call}
    (he : event e w = some (w', ks)) :
    (∀ k ∈ ks, Separate ids names k ∧ ofManager k = true) ∧
      ∃ v', Agency.event e v = some (v', ks) ∧ ManagerAlike ids w' v' := by
  cases e with
  | pass ms =>
      obtain ⟨hms, he⟩ := Option.ite_none_right_eq_some.mp he
      cases he
      refine ⟨fun k hk => (by cases hk), { v with now := v.now + ms }, ?_, ?_, h.runtime, h.timers, h.cache, h.timersOf⟩
      · simp only [Agency.event, if_pos hms]
      · simp only [h.now]
  | evict key =>
      cases he
      exact ⟨fun k hk => (by cases hk), v.del key, rfl, h.now, h.runtime, h.timers,
        fun id hid => del_alike key (h.cache id hid), h.timersOf⟩
  | fire t =>
      obtain ⟨ht, he⟩ := Option.ite_none_right_eq_some.mp he
      cases he
      have ht' : t ∈ v.timers ∧ t.due ≤ v.now := by
        rw [h.timers, h.now]
        exact ht
      refine ⟨fun k hk => ?_, { v with timers := v.timers.erase t }, ?_, h.now, h.runtime, ?_, h.cache,
        fun t' ht' => h.timersOf t' (List.mem_of_mem_erase ht')⟩
      · rw [List.mem_singleton.mp hk]
        exact ⟨.inl ⟨rfl, h.timersOf t ht.1⟩, rfl⟩
      · simp only [Agency.event, if_pos ht']
      · simp only [h.timers]

theorem managerCut_sound (hdisjoint : ∀ name, ids name → ¬names name) :
    managerCut.Sound (system env) (Separate ids names) Awaits (ManagerAlike ids) where
  body k hk := body_awaits hk
  arrive k w v hk h := by
    split <;> exact h
  answer k op ch w a w' v hk hkeeps hop h ha := by
    have hid : ids (nameOf k) := by
      rcases hk with ⟨-, hid⟩ | ⟨hk, -⟩
      · exact hid
      · exact absurd hk (by simp [ofTenants_eq_false hkeeps])
    refine answer_alike h (fun d x w' he => ?_) ha
    rcases hop.1 hkeeps with hop | hop
    · exact h.toAgents hid hop he
    · exact h.onKey hid hop he
  leaves k op ch w a w' v hk hkeeps hop h ha := by
    rcases hk with ⟨hk, -⟩ | ⟨hk, hname⟩
    · exact absurd hk (by simpa [managerCut] using hkeeps)
    · exact ⟨v, rfl, h.walletOp hdisjoint hname (hop.2 hk) ha⟩
  env e w w' ks v h he := by
    obtain ⟨hks, v', he', h'⟩ := h.event he
    exact ⟨hks, v', he', h'⟩

end GuardianshipAgency.Sharing
