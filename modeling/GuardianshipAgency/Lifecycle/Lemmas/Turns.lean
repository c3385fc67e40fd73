import GuardianshipAgency.Agency.Lemmas.SpinUp
import GuardianshipAgency.Async.Lemmas.Serial

/-!
# Spin-ups and all other turns

Spin-downs, timers, expiry and the passing of time only take things away. Only a spin-up adds any.
-/

namespace GuardianshipAgency.Lifecycle

open Js Async Expiring Agency

variable {env : Env}

/-- The turn of a call of `AgentManagerService` that starts or stops an agent, or of the surroundings. -/
def ofManager : Turn JsError Call Event Reply → Bool
  | .call (.spinUpAgent _) _ | .call (.spinDownAgent _) _ | .env _ => true
  | _ => false

/-- Time goes on, and live entries, running agents and timers can only disappear. -/
structure Shrinks (env : Env) (w w' : World) : Prop where
  now : w.now ≤ w'.now
  lookup : ∀ id e, w'.lookup id = some e → w.lookup id = some e
  running : ∀ id config, w'.running env id = some config → w.running env id = some config
  timers : ∀ t ∈ w'.timers, t ∈ w.timers

theorem Shrinks.refl (w : World) : Shrinks env w w := ⟨le_refl _, fun _ _ h => h, fun _ _ h => h, fun _ h => h⟩

theorem Shrinks.trans {w₁ w₂ w₃ : World} (h : Shrinks env w₁ w₂) (h' : Shrinks env w₂ w₃) : Shrinks env w₁ w₃ where
  now := h.now.trans h'.now
  lookup id e he := h.lookup id e (h'.lookup id e he)
  running id config hc := h.running id config (h'.running id config hc)
  timers t ht := h.timers t (h'.timers t ht)

/-! ## Single steps -/

theorem shrinks_del (w : World) (key : String) : Shrinks env w (w.del key) where
  now := le_refl _
  lookup id e he := by
    by_cases hid : id = key
    · subst hid
      simp [World.lookup, World.del, Store.lookup] at he
    · rwa [World.lookup, World.del, Store.lookup_congr (Store.erase_of_ne _ hid)] at he
  running _ _ h := h
  timers _ h := h

theorem shrinks_runtime {w w' : World} (hframe : w' = { w with runtime := w'.runtime })
    (h : ∀ id config, w'.running env id = some config → w.running env id = some config) : Shrinks env w w' where
  now := by rw [hframe]
  lookup id e he := by rw [hframe] at he; exact he
  running := h
  timers t ht := by rw [hframe] at ht; exact ht

theorem shrinks_setContainer (w : World) (name : String) : Shrinks env w (w.setContainer name none) := by
  refine shrinks_runtime rfl fun id config h => ?_
  cases hm : env.managerType with
  | k8s => simpa [running_k8s hm, World.setContainer] using h
  | docker =>
      rw [running_docker hm] at h ⊢
      by_cases hid : id = name
      · simp [World.setContainer, hid] at h
      · simpa [World.setContainer, Function.update_of_ne hid] using h

theorem shrinks_setService (w : World) (name : String) : Shrinks env w (w.setService name none) := by
  refine shrinks_runtime rfl fun id config h => ?_
  cases hm : env.managerType with
  | docker => simpa [running_docker hm, World.setService] using h
  | k8s =>
      rw [running_k8s hm] at h ⊢
      by_cases hid : id = name
      · simp [World.setService, hid] at h
      · simpa [World.setService, Function.update_of_ne hid] using h

theorem shrinks_setPod (w : World) (name : String) : Shrinks env w (w.setPod name none) := by
  refine shrinks_runtime rfl fun id config h => ?_
  cases hm : env.managerType with
  | docker => simpa [running_docker hm, World.setPod] using h
  | k8s =>
      rw [running_k8s hm] at h ⊢
      by_cases hid : id = name
      · simp [World.setPod, hid] at h
      · simpa [World.setPod, Function.update_of_ne hid] using h

theorem shrinks_effect {agentId : String} {op : Op} (hop : SpinDownOp agentId op) {d : Detail} {w w' : World} {v}
    (h : effect env op d w = some (v, w')) : Shrinks env w w' := by
  cases op with
  | cacheDel key =>
      rw [effect_cacheDel h]
      exact shrinks_del w key
  | stopContainer name =>
      rw [effect_stopContainer h]
      exact shrinks_setContainer w name
  | deleteNamespacedService name =>
      rw [effect_deleteNamespacedService h]
      exact shrinks_setService w name
  | deleteNamespacedPod name =>
      rw [effect_deleteNamespacedPod h]
      exact shrinks_setPod w name
  | _ => exact absurd hop id

/-! ## Turns -/

theorem shrinks_spinDown {agentId : String} {w w' : World} {r : Except JsError Unit}
    (h : (machine env).Exec (AgentManagerService.spinDownAgent env agentId) w r w') : Shrinks env w w' := by
  refine Machine.Exec.of_calls (Shrinks env) (AgentManagerService.spinDownAgent_calls env agentId) .refl
    (fun h h' => h.trans h') (fun op ch w a w' hop ha => ?_) h
  exact answer_world (Shrinks env) (.refl _) (fun d v w' he => shrinks_effect hop he) ha

theorem shrinks_spinDownAgent {agentId : String} {w w' : World} {r : Except JsError Reply}
    (h : (machine env).Exec ((Call.spinDownAgent agentId).body env) w r w') : Shrinks env w w' := by
  obtain ⟨r₁, w₁, hdown, hrest⟩ := Machine.Exec.bind_inv h
  rcases hrest with ⟨e, -, -, rfl⟩ | ⟨_, -, hrest⟩
  · exact shrinks_spinDown hdown
  · obtain ⟨-, rfl⟩ := Machine.Exec.settled_inv hrest
    exact shrinks_spinDown hdown

theorem shrinks_event {e : Event} {w w' : World} (h : (system env).Takes (.env e) w w') : Shrinks env w w' := by
  cases h with
  | env hevent hserial =>
      rcases event_cases hevent with ⟨ms, hms, rfl, rfl⟩ | ⟨key, rfl, rfl⟩ | ⟨t, -, -, rfl, rfl⟩
      · cases hserial
        refine ⟨le_add_of_nonneg_right hms, fun id e he => ?_, fun _ _ h => h, fun _ h => h⟩
        exact Store.lookup_of_le (WithTop.coe_le_coe.mpr (le_add_of_nonneg_right hms)) he
      · cases hserial
        exact shrinks_del w key
      · cases hserial with
        | cons hdown hnil =>
            cases hnil
            have herase : Shrinks env w { w with timers := w.timers.erase t } :=
              ⟨le_refl _, fun _ _ h => h, fun _ _ h => h, fun _ h => List.mem_of_mem_erase h⟩
            exact herase.trans (shrinks_spinDownAgent hdown)

/-- A turn is a spin-up, or it only takes things away. -/
theorem takes_cases {turn : Turn JsError Call Event Reply} {w w' : World} (hturn : ofManager turn = true)
    (h : (system env).Takes turn w w') :
    (∃ agentDto r r', turn = .call (.spinUpAgent agentDto) r ∧
      (machine env).Exec (AgentManagerService.spinUpAgent env agentDto) w r' w') ∨
    ((∀ agentDto r, turn ≠ .call (.spinUpAgent agentDto) r) ∧ Shrinks env w w') := by
  cases turn with
  | env e => exact .inr ⟨fun _ _ he => (by cases he), shrinks_event h⟩
  | call k r =>
      cases h with
      | call hbody =>
          cases k with
          | spinDownAgent agentId => exact .inr ⟨fun _ _ he => (by cases he), shrinks_spinDownAgent hbody⟩
          | spinUpAgent agentDto =>
              obtain ⟨r₁, w₁, hup, hrest⟩ := Machine.Exec.bind_inv hbody
              rcases hrest with ⟨e, rfl, rfl, rfl⟩ | ⟨reply, rfl, hrest⟩
              · exact .inl ⟨agentDto, _, _, rfl, hup⟩
              · obtain ⟨rfl, rfl⟩ := Machine.Exec.settled_inv hrest
                exact .inl ⟨agentDto, _, _, rfl, hup⟩
          | _ => cases hturn

end GuardianshipAgency.Lifecycle
