import GuardianshipAgency.Agency.Lemmas.SpinUp
import GuardianshipAgency.Async.Lemmas.Serial
import GuardianshipAgency.Lifecycle.Lemmas.Failures

/-!
# What a spin-down leaves behind

The machine in which stopping and deleting fail only where there is nothing to stop or delete.
-/

namespace GuardianshipAgency.Lifecycle

open Js Async Agency

variable {env : Env}

/-! ## Stop and delete calls that can be relied on -/

def removes : Op → Bool
  | .stopContainer _ | .deleteNamespacedService _ | .deleteNamespacedPod _ | .cacheDel _ => true
  | _ => false

/-- A call that removes something succeeds if there is something to remove. -/
def tidyMachine (env : Env) : Machine JsError Op.Val World Choice where
  answer op ch w :=
    if removes op && (effect env op .plain w).isSome && !succeeds ch then none else answer env op ch w

def tidySystem (env : Env) : System JsError Op.Val World Choice Call Event Reply :=
  { tidyMachine env with
    body := Call.body env
    env := event }

theorem effect_removes {op : Op} (hop : removes op = true) {d : Detail} {w w' : World} {v}
    (h : effect env op d w = some (v, w')) : d = .plain := by
  cases op with
  | stopContainer name | deleteNamespacedService name | deleteNamespacedPod name | cacheDel name =>
      cases d with
      | plain => rfl
      | _ => cases h
  | _ => cases hop

theorem tidy_call {op : Op} (hop : removes op = true) {w w' : World} {r : Except JsError op.Val}
    (h : (tidyMachine env).Exec (Prog.call op) w r w') :
    (∃ v, r = .ok v ∧ effect env op .plain w = some (v, w')) ∨
      (effect env op .plain w = none ∧ w' = w ∧ ∃ e, r = .error e) := by
  obtain ⟨ch, a, w₁, ha, hnext⟩ := Machine.Exec.call_inv h
  simp only [tidyMachine] at ha
  split at ha
  · cases ha
  rename_i htidy
  rcases answer_cases ha with ⟨rfl, e, rfl, rfl, -⟩ | ⟨d, o, v, rfl, he, hans⟩
  · have hnone : effect env op .plain w₁ = none := by simpa [hop, succeeds] using htidy
    rcases hnext with ⟨he, -⟩ | ⟨he, rfl⟩
    · cases he
    · cases he
      exact .inr ⟨hnone, rfl, e, rfl⟩
  · obtain rfl := effect_removes hop he
    have hsucceeds : succeeds (.done .plain o) = true := by simpa [hop, he] using htidy
    rcases hans with ⟨rfl, -⟩ | ⟨e, -, rfl, -⟩ | ⟨-, rfl, -⟩
    · rcases hnext with ⟨hnone, -⟩ | ⟨hr, rfl⟩
      · cases hnone
      · cases hr
        exact .inl ⟨v, rfl, he⟩
    · cases hsucceeds
    · cases hsucceeds

/-! ## Spin-downs -/

/-- Nothing that `startAgent` creates for `id` is there, so that it can create all of it. -/
def Cleared (env : Env) (id : String) (w : World) : Prop :=
  match env.managerType with
  | .docker => w.runtime.containers id = none
  | .k8s => w.runtime.pods id = none ∧ w.runtime.services id = none

/-- What a `startAgent` leaves that fails between its two steps: a container that was never started, or a pod without
its service. -/
def HalfStarted (env : Env) (id : String) (w : World) : Prop :=
  match env.managerType with
  | .docker => ∃ c, w.runtime.containers id = some c ∧ c.started = false
  | .k8s => (w.runtime.pods id).isSome ∧ w.runtime.services id = none

theorem stopAgent_docker {id : String} {w w' : World} {r : Except JsError Unit}
    (h : (tidyMachine env).Exec (DockerService.stopAgent id) w r w') :
    w'.runtime.containers id = none ↔ ¬∃ c, w.runtime.containers id = some c ∧ c.started = false := by
  rcases tidy_call rfl h with ⟨v, -, he⟩ | ⟨hnone, rfl, -⟩
  · obtain rfl := effect_stopContainer he
    delta effect at he
    dsimp only at he
    cases hc : w.runtime.containers id with
    | none => simp [World.setContainer]
    | some c =>
        rw [hc] at he
        obtain ⟨hstarted, -⟩ := Option.ite_none_right_eq_some.mp he
        simp [World.setContainer, hstarted]
  · delta effect at hnone
    dsimp only at hnone
    cases hc : w'.runtime.containers id with
    | none => simp
    | some c =>
        rw [hc] at hnone
        simpa using hnone

theorem deleteNamespacedService_tidy {id : String} {w w' : World} {r : Except JsError Unit}
    (h : (tidyMachine env).Exec (Prog.call (Op.deleteNamespacedService id)) w r w') :
    ((w.runtime.services id).isSome ∧ r = .ok () ∧ w' = w.setService id none) ∨
      (w.runtime.services id = none ∧ w' = w ∧ ∃ e, r = .error e) := by
  rcases tidy_call rfl h with ⟨v, rfl, he⟩ | ⟨hnone, hw, hr⟩
  · obtain ⟨hsome, -⟩ := Option.ite_none_right_eq_some.mp he
    exact .inl ⟨hsome, rfl, effect_deleteNamespacedService he⟩
  · refine .inr ⟨?_, hw, hr⟩
    simpa [effect] using hnone

theorem deleteNamespacedPod_tidy {id : String} {w w' : World} {r : Except JsError Unit}
    (h : (tidyMachine env).Exec (Prog.call (Op.deleteNamespacedPod id)) w r w') :
    w'.runtime.pods id = none ∧ w'.runtime.services = w.runtime.services := by
  rcases tidy_call rfl h with ⟨v, -, he⟩ | ⟨hnone, rfl, -⟩
  · obtain rfl := effect_deleteNamespacedPod he
    simp [World.setPod]
  · exact ⟨by simpa [effect] using hnone, rfl⟩

/-- Without a service the pod is not even looked at. -/
theorem stopAgent_k8s {id : String} {w w' : World} {r : Except JsError Unit}
    (h : (tidyMachine env).Exec (K8sService.stopAgent id) w r w') :
    (w'.runtime.pods id = none ∧ w'.runtime.services id = none) ↔
      ¬((w.runtime.pods id).isSome ∧ w.runtime.services id = none) := by
  obtain ⟨r₁, w₁, hservice, hrest⟩ := Machine.Exec.bind_inv h
  rcases deleteNamespacedService_tidy hservice with ⟨hsome, rfl, rfl⟩ | ⟨hnone, rfl, e, rfl⟩
  · rcases hrest with ⟨e, he, -⟩ | ⟨_, -, hpod⟩
    · cases he
    obtain ⟨hpods, hservices⟩ := deleteNamespacedPod_tidy hpod
    have hne : w.runtime.services id ≠ none := Option.isSome_iff_ne_none.mp hsome
    simp [hpods, hservices, hne, World.setService]
  · rcases hrest with ⟨e', -, -, rfl⟩ | ⟨_, he, -⟩
    · simp [hnone]
    · cases he

theorem spinDownAgent_cleared_iff {id : String} {w w' : World} {r : Except JsError Unit}
    (h : (tidyMachine env).Exec (AgentManagerService.spinDownAgent env id) w r w') :
    Cleared env id w' ↔ ¬HalfStarted env id w := by
  obtain ⟨r₁, w₁, hbody, hcatch⟩ := Machine.Exec.andThen_inv h
  have hw' : w' = w₁ := by
    cases r₁ <;> exact (Machine.Exec.settled_inv hcatch).2
  subst hw'
  obtain ⟨r₂, w₂, hdel, hstop⟩ := Machine.Exec.bind_inv hbody
  rcases tidy_call rfl hdel with ⟨v, rfl, he⟩ | ⟨hnone, -⟩
  · obtain rfl := effect_cacheDel he
    rcases hstop with ⟨e, he, -⟩ | ⟨_, -, hstop⟩
    · cases he
    unfold AgentManagerService.stopAgent at hstop
    unfold Cleared HalfStarted
    cases hm : env.managerType with
    | docker =>
        rw [hm] at hstop
        have hstopped := stopAgent_docker hstop
        exact hstopped
    | k8s =>
        rw [hm] at hstop
        have hstopped := stopAgent_k8s hstop
        exact hstopped
  · cases hnone

def spinsDown (id : String) : Turn JsError Call Event Reply → Bool
  | .call (.spinDownAgent id') _ => id' == id
  | _ => false

theorem spinsDown_iff {id : String} {turn : Turn JsError Call Event Reply} :
    spinsDown id turn = true ↔ ∃ r, turn = .call (.spinDownAgent id) r := by
  constructor
  · intro h
    cases turn with
    | env e => cases h
    | call k r =>
        cases k with
        | spinDownAgent id' => exact ⟨r, by rw [eq_of_beq h]⟩
        | _ => cases h
  · rintro ⟨r, rfl⟩
    exact beq_self_eq_true id

theorem takes_spinDownAgent {id : String} {w w' : World} {r : Except JsError Reply}
    (h : (tidySystem env).Takes (.call (.spinDownAgent id) r) w w') :
    ∃ r', (tidyMachine env).Exec (AgentManagerService.spinDownAgent env id) w r' w' := by
  cases h with
  | call hbody =>
      obtain ⟨r₁, w₁, hdown, hrest⟩ := Machine.Exec.bind_inv hbody
      rcases hrest with ⟨e, -, -, rfl⟩ | ⟨_, -, hrest⟩
      · exact ⟨r₁, hdown⟩
      · obtain ⟨-, rfl⟩ := Machine.Exec.settled_inv hrest
        exact ⟨r₁, hdown⟩

end GuardianshipAgency.Lifecycle
