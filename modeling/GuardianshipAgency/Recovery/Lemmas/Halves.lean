import GuardianshipAgency.Lifecycle.Lemmas.Cleanup

/-!
# Half-done spin-downs

What is left of a running agent when some call of its spin-down fails.
-/

namespace GuardianshipAgency.Recovery

open Js Async Expiring Agency Lifecycle

variable {env : Env}

/-! ## Choices -/

def takesEffect : Choice → Bool
  | .failed _ => false
  | .done _ _ => true

/-- The number of calls of a spin-down. -/
def removals (env : Env) : Nat :=
  match env.managerType with
  | .docker => 2
  | .k8s => 3

/-- The first call fails without effect, or all calls are made and take effect, the last one even if it is rejected. -/
def Clean (env : Env) (cs : List Choice) : Prop :=
  (∃ e, cs = [.failed e]) ∨ (cs.length = removals env ∧ ∀ c ∈ cs, takesEffect c = true)

theorem retried_of_removes {op : Op} (hop : removes op = true) : op.retried = false := by
  cases op with
  | stopContainer name | deleteNamespacedService name | deleteNamespacedPod name | cacheDel name => rfl
  | _ => cases hop

/-- A removal fails without effect, is rejected after its effect, or is answered. -/
theorem play_removal {op : Op} (hop : removes op = true)
    {next : Except JsError op.Val → Prog JsError Op.Val Unit} {w w' : World} {r : Except JsError Unit}
    {cs : List Choice} (h : (machine env).play (.await op next) w cs = some (r, w')) :
    (∃ e cs', cs = .failed e :: cs' ∧ (machine env).play (next (.error e)) w cs' = some (r, w')) ∨
      ∃ v w₁, effect env op .plain w = some (v, w₁) ∧
        ((∃ e cs', cs = .done .plain (.rejected e) :: cs' ∧
          (machine env).play (next (.error e)) w₁ cs' = some (r, w')) ∨
        ∃ cs', cs = .done .plain .answered :: cs' ∧ (machine env).play (next (.ok v)) w₁ cs' = some (r, w')) := by
  obtain ⟨c, cs', a, w₁, rfl, ha, hnext⟩ := Machine.play_await_inv h
  rcases answer_cases ha with ⟨rfl, e, rfl, rfl, -⟩ | ⟨d, o, v, rfl, he, hans⟩
  · rcases hnext with ⟨hnone, -⟩ | ⟨res, hres, hnext⟩
    · cases hnone
    · cases hres
      exact .inl ⟨e, cs', rfl, hnext⟩
  · obtain rfl := effect_removes hop he
    refine .inr ⟨v, w₁, he, ?_⟩
    rcases hans with ⟨rfl, rfl⟩ | ⟨e, rfl, rfl, -⟩ | ⟨-, -, hretried⟩
    · rcases hnext with ⟨hnone, -⟩ | ⟨res, hres, hnext⟩
      · cases hnone
      · cases hres
        exact .inr ⟨cs', rfl, hnext⟩
    · rcases hnext with ⟨hnone, -⟩ | ⟨res, hres, hnext⟩
      · cases hnone
      · cases hres
        exact .inl ⟨e, cs', rfl, hnext⟩
    · rw [retried_of_removes hop] at hretried
      cases hretried

/-! ## All or nothing -/

/-- The objects of the agent are what they were. -/
def SameObjects (env : Env) (id : String) (w w' : World) : Prop :=
  match env.managerType with
  | .docker => w'.runtime.containers id = w.runtime.containers id
  | .k8s => w'.runtime.pods id = w.runtime.pods id ∧ w'.runtime.services id = w.runtime.services id

/-- The entry and all objects of the agent are gone, or all of them are there as before. -/
def AllOrNothing (env : Env) (id : String) (w w' : World) : Prop :=
  (w'.lookup id = none ∧ Cleared env id w') ∨ (w'.lookup id = w.lookup id ∧ SameObjects env id w w')

theorem allOrNothing_refl (id : String) (w : World) : AllOrNothing env id w w := by
  refine .inr ⟨rfl, ?_⟩
  unfold SameObjects
  split
  · rfl
  · exact ⟨rfl, rfl⟩

theorem not_allOrNothing {id : String} {w w' : World} (hcached : (w.lookup id).isSome) (hgone : w'.lookup id = none)
    (hleft : ¬Cleared env id w') : ¬AllOrNothing env id w w' := by
  rintro (⟨-, hcleared⟩ | ⟨hkept, -⟩)
  · exact hleft hcleared
  · rw [← hkept, hgone] at hcached
    cases hcached

theorem del_lookup (w : World) (id : String) : (w.del id).lookup id = none := by
  simp [World.lookup, World.del, Store.lookup]

section SpinDown

variable {id : String} {w w' : World} {r : Except JsError Unit} {cs : List Choice}

/-- The last call, made after the entry is gone: the agent is gone altogether if and only if it takes effect. -/
theorem play_last_removal {op : Op} (hop : removes op = true) {w₀ : World}
    {next : Except JsError op.Val → Prog JsError Op.Val Unit}
    (h : (machine env).play (.await op next) w cs = some (r, w')) (hnext : ∀ res, next res = .settled (.ok ()))
    (hcached : (w₀.lookup id).isSome) (hgone : w.lookup id = none) (hleft : ¬Cleared env id w)
    (heffect : ∀ v w₁, effect env op .plain w = some (v, w₁) → w₁.lookup id = none ∧ Cleared env id w₁) :
    ∃ c, cs = [c] ∧ (AllOrNothing env id w₀ w' ↔ takesEffect c = true) := by
  rcases play_removal hop h with ⟨e, cs', rfl, hrest⟩ | ⟨v, w₁, he, ⟨e, cs', rfl, hrest⟩ | ⟨cs', rfl, hrest⟩⟩
  · rw [hnext] at hrest
    obtain ⟨rfl, -, rfl⟩ := Machine.play_settled_inv hrest
    exact ⟨_, rfl, by simp [takesEffect, not_allOrNothing hcached hgone hleft]⟩
  · rw [hnext] at hrest
    obtain ⟨rfl, -, rfl⟩ := Machine.play_settled_inv hrest
    exact ⟨_, rfl, by simp [takesEffect, AllOrNothing, heffect v w' he]⟩
  · rw [hnext] at hrest
    obtain ⟨rfl, -, rfl⟩ := Machine.play_settled_inv hrest
    exact ⟨_, rfl, by simp [takesEffect, AllOrNothing, heffect v w' he]⟩

theorem spinDownAgent_inv (h : (machine env).play (AgentManagerService.spinDownAgent env id) w cs = some (r, w')) :
    (∃ e, cs = [.failed e] ∧ w' = w) ∨ (∃ e, cs = [.done .plain (.rejected e)] ∧ w' = w.del id) ∨
      ∃ cs', cs = .done .plain .answered :: cs' ∧
        (machine env).play (tryCatch (AgentManagerService.stopAgent env id) fun _ => pure ()) (w.del id) cs' =
          some (r, w') := by
  rcases play_removal rfl h with ⟨e, cs', rfl, hrest⟩ | ⟨v, w₁, he, ⟨e, cs', rfl, hrest⟩ | ⟨cs', rfl, hrest⟩⟩
  · obtain ⟨rfl, -, rfl⟩ := Machine.play_settled_inv hrest
    exact .inl ⟨e, rfl, rfl⟩
  · obtain rfl := effect_cacheDel he
    obtain ⟨rfl, -, rfl⟩ := Machine.play_settled_inv hrest
    exact .inr (.inl ⟨e, rfl, rfl⟩)
  · obtain rfl := effect_cacheDel he
    exact .inr (.inr ⟨cs', rfl, hrest⟩)

theorem clean_cons_answered {cs : List Choice} :
    Clean env (.done .plain .answered :: cs) ↔ cs.length + 1 = removals env ∧ ∀ c ∈ cs, takesEffect c = true := by
  simp [Clean, takesEffect]

theorem not_cleared_of_running {w₁ : World} (hrunning : (w.running env id).isSome) (hruntime : w₁.runtime = w.runtime) :
    ¬Cleared env id w₁ := by
  unfold Cleared
  rw [hruntime]
  cases hm : env.managerType with
  | docker =>
      intro hnone
      simp [running_docker hm, show w.runtime.containers id = none from hnone] at hrunning
  | k8s =>
      rintro ⟨hnone, -⟩
      simp [running_k8s hm, hnone] at hrunning

theorem stopAgent_clean_docker (hm : env.managerType = .docker) {w₀ : World} (hcached : (w₀.lookup id).isSome)
    (hgone : w.lookup id = none) (hrunning : (w.running env id).isSome)
    (h : (machine env).play (tryCatch (AgentManagerService.stopAgent env id) fun _ => pure ()) w cs = some (r, w')) :
    AllOrNothing env id w₀ w' ↔ cs.length + 1 = removals env ∧ ∀ c ∈ cs, takesEffect c = true := by
  rw [AgentManagerService.stopAgent, hm] at h
  obtain ⟨c, rfl, hiff⟩ := play_last_removal rfl h (by rintro (_ | _) <;> rfl) hcached hgone
    (not_cleared_of_running hrunning rfl) (by
      intro v w₁ he
      obtain rfl := effect_stopContainer he
      refine ⟨hgone, ?_⟩
      simp [Cleared, hm, World.setContainer])
  simp [hiff, removals, hm]

theorem stopAgent_clean_k8s (hm : env.managerType = .k8s) {w₀ : World} (hcached : (w₀.lookup id).isSome)
    (hgone : w.lookup id = none) (hrunning : (w.running env id).isSome)
    (h : (machine env).play (tryCatch (AgentManagerService.stopAgent env id) fun _ => pure ()) w cs = some (r, w')) :
    AllOrNothing env id w₀ w' ↔ cs.length + 1 = removals env ∧ ∀ c ∈ cs, takesEffect c = true := by
  have hpod : w.runtime.pods id ≠ none := by
    intro hnone
    simp [running_k8s hm, hnone] at hrunning
  have hleft : ¬Cleared env id (w.setService id none) := by
    intro hcleared
    simp only [Cleared, hm] at hcleared
    exact hpod hcleared.1
  rw [AgentManagerService.stopAgent, hm] at h
  rcases play_removal rfl h with ⟨e, cs', rfl, hrest⟩ | ⟨v, w₁, he, ⟨e, cs', rfl, hrest⟩ | ⟨cs', rfl, hrest⟩⟩
  · obtain ⟨rfl, -, rfl⟩ := Machine.play_settled_inv hrest
    refine iff_of_false (not_allOrNothing hcached hgone (not_cleared_of_running hrunning rfl)) ?_
    simp [removals, hm]
  · obtain rfl := effect_deleteNamespacedService he
    obtain ⟨rfl, -, rfl⟩ := Machine.play_settled_inv hrest
    refine iff_of_false (not_allOrNothing hcached hgone hleft) ?_
    simp [removals, hm]
  · obtain rfl := effect_deleteNamespacedService he
    replace hrest : (machine env).play
        (.await (.deleteNamespacedPod id) fun res => tryCatch (.settled res) fun _ => pure ()) (w.setService id none)
        cs' = some (r, w') := hrest
    obtain ⟨c, rfl, hiff⟩ := play_last_removal rfl hrest (by rintro (_ | _) <;> rfl) hcached hgone hleft (by
      intro v w₁ he
      obtain rfl := effect_deleteNamespacedPod he
      refine ⟨hgone, ?_⟩
      simp [Cleared, hm, World.setPod, World.setService])
    simp [hiff, removals, hm, takesEffect]

end SpinDown

end GuardianshipAgency.Recovery
