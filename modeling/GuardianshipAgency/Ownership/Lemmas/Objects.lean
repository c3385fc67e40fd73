import GuardianshipAgency.Agency.Lemmas.Steps

/-!
# The objects of one agent

What a call does to the container, the pod and the service of one name.
-/

namespace GuardianshipAgency.Agency

open Js Async

variable {env : Env}

structure Objects where
  container : Option Container
  pod : Option AgentConfig
  service : Option AgentConfig

def Runtime.objects (rt : Runtime) (id : String) : Objects :=
  { container := rt.containers id, pod := rt.pods id, service := rt.services id }

/-- The call is about an object named `id`. -/
def Op.IsOn (id : String) : Op → Prop
  | .createContainer config | .createNamespacedPod config | .createNamespacedService config => config.agentId = id
  | .startContainer name | .stopContainer name | .deleteNamespacedService name | .deleteNamespacedPod name => name = id
  | _ => False

/-- What a call that takes effect finds and leaves. -/
inductive Touches (id : String) : Op → Objects → Objects → Prop where
  | createContainer {config o} (hid : config.agentId = id) (hfree : o.container = none) :
      Touches id (.createContainer config) o { o with container := some { config, started := false } }
  | startContainer {config o} (hcreated : o.container = some { config, started := false }) :
      Touches id (.startContainer id) o { o with container := some { config, started := true } }
  | stopContainer {config o} (hstarted : o.container = some { config, started := true }) :
      Touches id (.stopContainer id) o { o with container := none }
  | createPod {config o} (hid : config.agentId = id) (hfree : o.pod = none) :
      Touches id (.createNamespacedPod config) o { o with pod := some config }
  | createService {config o} (hid : config.agentId = id) (hfree : o.service = none) :
      Touches id (.createNamespacedService config) o { o with service := some config }
  | deleteService {config o} (hcreated : o.service = some config) :
      Touches id (.deleteNamespacedService id) o { o with service := none }
  | deletePod {config o} (hcreated : o.pod = some config) :
      Touches id (.deleteNamespacedPod id) o { o with pod := none }
  | apart {op o} (hop : ¬op.IsOn id) : Touches id op o o

section Effects

variable {id : String} {d : Detail} {w w' : World}

theorem objects_setContainer_of_ne {name : String} (h : name ≠ id) (c : Option Container) :
    (w.setContainer name c).runtime.objects id = w.runtime.objects id := by
  simp [Runtime.objects, World.setContainer, Function.update_of_ne h.symm]

theorem objects_setPod_of_ne {name : String} (h : name ≠ id) (config : Option AgentConfig) :
    (w.setPod name config).runtime.objects id = w.runtime.objects id := by
  simp [Runtime.objects, World.setPod, Function.update_of_ne h.symm]

theorem objects_setService_of_ne {name : String} (h : name ≠ id) (config : Option AgentConfig) :
    (w.setService name config).runtime.objects id = w.runtime.objects id := by
  simp [Runtime.objects, World.setService, Function.update_of_ne h.symm]

theorem effect_runtime {op : Op} (hop : ¬op.ofRuntime) {v} (h : effect env op d w = some (v, w')) :
    w'.runtime = w.runtime := by
  rcases effect_cases h with rfl | ⟨hruntime, -⟩ | ⟨_, _, _, -, rfl⟩ | ⟨_, -, rfl⟩ | hserver | ⟨_, _, -, -, rfl⟩ |
    ⟨_, _, -, rfl⟩
  · rfl
  · exact absurd hruntime hop
  · rfl
  · rfl
  · rw [hserver.frame]
  · rfl
  · rfl

theorem effect_touches (id : String) {op : Op} {v} (h : effect env op d w = some (v, w')) :
    Touches id op (w.runtime.objects id) (w'.runtime.objects id) := by
  by_cases hop : op.ofRuntime
  · cases op with
    | createContainer config =>
        obtain ⟨hfree, rfl⟩ := effect_createContainer h
        by_cases hid : config.agentId = id
        · subst hid
          simpa [Runtime.objects, World.setContainer] using Touches.createContainer rfl hfree
        · rw [objects_setContainer_of_ne hid]
          exact .apart hid
    | startContainer name =>
        cases d with
        | plain =>
            delta effect at h
            dsimp only at h
            cases hc : w.runtime.containers name with
            | none =>
                rw [hc] at h
                cases h
            | some c =>
                rw [hc] at h
                obtain ⟨config, started⟩ := c
                obtain ⟨hstarted, he⟩ := Option.ite_none_left_eq_some.mp h
                cases he
                obtain rfl : started = false := by simpa using hstarted
                by_cases hid : name = id
                · subst hid
                  simpa [Runtime.objects, World.setContainer] using Touches.startContainer hc
                · rw [objects_setContainer_of_ne hid]
                  exact .apart hid
        | _ => cases h
    | stopContainer name =>
        cases d with
        | plain =>
            delta effect at h
            dsimp only at h
            cases hc : w.runtime.containers name with
            | none =>
                rw [hc] at h
                cases h
            | some c =>
                rw [hc] at h
                obtain ⟨config, started⟩ := c
                obtain ⟨hstarted, he⟩ := Option.ite_none_right_eq_some.mp h
                cases he
                obtain rfl : started = true := by simpa using hstarted
                by_cases hid : name = id
                · subst hid
                  simpa [Runtime.objects, World.setContainer] using Touches.stopContainer hc
                · rw [objects_setContainer_of_ne hid]
                  exact .apart hid
        | _ => cases h
    | createNamespacedPod config =>
        obtain ⟨hfree, rfl⟩ := effect_createNamespacedPod h
        by_cases hid : config.agentId = id
        · subst hid
          simpa [Runtime.objects, World.setPod] using Touches.createPod rfl hfree
        · rw [objects_setPod_of_ne hid]
          exact .apart hid
    | createNamespacedService config =>
        obtain ⟨hfree, rfl⟩ := effect_createNamespacedService h
        by_cases hid : config.agentId = id
        · subst hid
          simpa [Runtime.objects, World.setService] using Touches.createService rfl hfree
        · rw [objects_setService_of_ne hid]
          exact .apart hid
    | deleteNamespacedService name =>
        cases d with
        | plain =>
            obtain ⟨hsome, he⟩ := Option.ite_none_right_eq_some.mp h
            obtain ⟨config, hconfig⟩ := Option.isSome_iff_exists.mp hsome
            cases he
            by_cases hid : name = id
            · subst hid
              simpa [Runtime.objects, World.setService] using Touches.deleteService hconfig
            · rw [objects_setService_of_ne hid]
              exact .apart hid
        | _ => cases h
    | deleteNamespacedPod name =>
        cases d with
        | plain =>
            obtain ⟨hsome, he⟩ := Option.ite_none_right_eq_some.mp h
            obtain ⟨config, hconfig⟩ := Option.isSome_iff_exists.mp hsome
            cases he
            by_cases hid : name = id
            · subst hid
              simpa [Runtime.objects, World.setPod] using Touches.deletePod hconfig
            · rw [objects_setPod_of_ne hid]
              exact .apart hid
        | _ => cases h
    | _ => cases hop
  · rw [effect_runtime hop h]
    refine .apart fun hid => hop ?_
    cases op <;> first | exact hid | trivial

/-- A call fails without effect, or it does what it does. -/
theorem answer_touches (id : String) {op : Op} {ch : Choice} {a} (h : answer env op ch w = some (a, w')) :
    (w' = w ∧ ∃ e, a = some (.error e)) ∨ Touches id op (w.runtime.objects id) (w'.runtime.objects id) := by
  rcases answer_cases h with ⟨hw, e, ha, -⟩ | ⟨d, o, v, -, heffect, -⟩
  · exact .inl ⟨hw, e, ha⟩
  · exact .inr (effect_touches id heffect)

end Effects

end GuardianshipAgency.Agency
