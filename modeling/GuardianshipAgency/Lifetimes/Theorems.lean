import GuardianshipAgency.Agency.Theorems
import GuardianshipAgency.Lifetimes.Lemmas.Jobs

/-!
# Properties of requested lifetimes
-/

namespace GuardianshipAgency.Lifetimes

open Js Async Agency

variable {env : Env}

/-! ## Cache entries -/

/-- When a spin-up starts a new agent, the entry that it writes outlives the spin-down job if and only if the caller
does not ask for a negative ttl, with which no entry is kept for ever. -/
theorem entry_outlives_iff {agentDto : AgentCreateDto} (hstore : env.negativeTtl ≠ ⊤) {w w' : World}
    (h : Started env agentDto w w') :
    Outlives (AgentConfig.new env agentDto) w' ↔ ∀ ttl, agentDto.ttl = some ttl → 0 ≤ ttl := by
  obtain ⟨w₁, -, hcache⟩ := h
  exact outlives_iff hstore hcache

theorem started_of_play {agentDto : AgentCreateDto} {w : World} {cs cs' : List Choice}
    (h : ((machine env).play (AgentManagerService.startAgent env (AgentConfig.new env agentDto)) w cs).bind (fun rw =>
      ((machine env).play (AgentManagerService.setAgentCache (AgentConfig.new env agentDto)) rw.2 cs').map fun rw' =>
        (rw.1.isOk, rw'.1.isOk)) = some (true, true)) : ∃ w', Started env agentDto w w' := by
  obtain ⟨⟨r₁, w₁⟩, hstart, he⟩ := Option.bind_eq_some_iff.mp h
  obtain ⟨⟨r₂, w₂⟩, hcache, he⟩ := Option.map_eq_some_iff.mp he
  obtain ⟨hok₁, hok₂⟩ := Prod.mk.inj he
  cases r₁ with
  | error e => cases hok₁
  | ok _ =>
      cases r₂ with
      | error e => cases hok₂
      | ok _ => exact ⟨w₂, w₁, .of_play hstart, .of_play hcache⟩

theorem entry_outlives_default : ∃ w', Started sampleEnv sampleAgent .empty w' ∧
    Outlives (AgentConfig.new sampleEnv sampleAgent) w' := by
  have hplay : ((machine sampleEnv).play
      (AgentManagerService.startAgent sampleEnv (AgentConfig.new sampleEnv sampleAgent)) .empty [fine, fine]).bind
      (fun rw => ((machine sampleEnv).play (AgentManagerService.setAgentCache (AgentConfig.new sampleEnv sampleAgent))
        rw.2 [fine]).map fun rw' => (rw.1.isOk, rw'.1.isOk)) = some (true, true) := by decide_cbv
  obtain ⟨w', hstarted⟩ := started_of_play hplay
  refine ⟨w', hstarted, (entry_outlives_iff WithTop.coe_ne_top hstarted).mpr fun ttl httl => ?_⟩
  cases httl

/-- The ttl that the README uses. -/
def endless : AgentCreateDto := { sampleAgent with ttl := some (-1) }

/-- The store drops what is set with a negative ttl. -/
def droppingEnv : Env := { sampleEnv with negativeTtl := 0 }

/-- The entry of an agent that is never stopped can have expired from the beginning. -/
theorem not_forall_outlives : ¬∀ agentDto w w', Started droppingEnv agentDto w w' →
    Outlives (AgentConfig.new droppingEnv agentDto) w' := by
  intro h
  have hplay : ((machine droppingEnv).play
      (AgentManagerService.startAgent droppingEnv (AgentConfig.new droppingEnv endless)) .empty [fine, fine]).bind
      (fun rw => ((machine droppingEnv).play (AgentManagerService.setAgentCache (AgentConfig.new droppingEnv endless))
        rw.2 [fine]).map fun rw' => (rw.1.isOk, rw'.1.isOk)) = some (true, true) := by decide_cbv
  obtain ⟨w', w₁, hstart, hcache⟩ := started_of_play hplay
  refine not_outlives_of_neg WithTop.zero_ne_top ?_ hcache (h endless _ _ ⟨w₁, hstart, hcache⟩)
  decide +kernel

/-! ## Delays -/

/-- The delay that takes effect is the ttl in whole milliseconds, or one, so that no agent is stopped earlier. -/
def KeepsLifetime (config : AgentConfig) : Prop :=
  ∀ ms, armedDelay (AgentManagerService.setSpinDownJob config) = some ms → ∃ ttl : ℚ, config.ttl = ttl ∧
    timerDelay ms = max 1 ⌊ttl * 1000⌋ ∧ ttl * 1000 < timerDelay ms + 1

/-- The requested lifetime is kept unless the ttl has a delay that does not fit. -/
theorem spinDownJob_keeps_iff (agentDto : AgentCreateDto) :
    KeepsLifetime (AgentConfig.new env agentDto) ↔
      ∀ ttl, agentDto.ttl = some ttl → 0 < ttl → Fits (ttl * 1000) := by
  have hexact : ∀ ttl : ℚ, 0 < ttl → timerDelay (ttl * 1000) = max 1 ⌊ttl * 1000⌋ →
      ttl * 1000 < timerDelay (ttl * 1000) + 1 := by
    intro ttl _ hdelay
    have hfloor : (⌊ttl * 1000⌋ : ℚ) ≤ timerDelay (ttl * 1000) := by
      rw [hdelay]
      exact_mod_cast le_max_right _ _
    linarith [Int.lt_floor_add_one (ttl * 1000)]
  constructor
  · intro hkeeps ttl httl hpos
    have hconfig : (AgentConfig.new env agentDto).ttl = ttl := by
      simp [AgentConfig.new, httl, hpos.ne']
    obtain ⟨ttl', httl', hdelay, -⟩ := hkeeps _ (armedDelay_setSpinDownJob.mpr ⟨ttl, hconfig, hpos, rfl⟩)
    rw [hconfig, WithTop.coe_inj] at httl'
    subst httl'
    exact (timerDelay_eq_iff (by linarith)).mp hdelay
  · intro hfits ms harmed
    obtain ⟨ttl, httl, hpos, rfl⟩ := armedDelay_setSpinDownJob.mp harmed
    have hfit : Fits (ttl * 1000) := by
      rcases new_ttl_cases env agentDto with ⟨htop, -⟩ | ⟨ttl', httl', -, hrequest⟩
      · rw [httl] at htop
        cases htop
      rw [httl, WithTop.coe_inj] at httl'
      subst httl'
      cases hdto : agentDto.ttl with
      | none =>
          rw [hdto, Option.getD_none] at hrequest
          rw [hrequest]
          exact_mod_cast fits_of_int (show (1 : ℤ) ≤ 3600 * 1000 by norm_num) (by norm_num)
      | some t =>
          rw [hdto, Option.getD_some] at hrequest
          exact hfits ttl (hrequest ▸ hdto) hpos
    have hdelay := (timerDelay_eq_iff (by linarith)).mpr hfit
    exact ⟨ttl, httl, hdelay, hexact ttl hpos hdelay⟩

def thirtyDays : AgentCreateDto := { sampleAgent with ttl := some 2592000 }

/-- An agent asked for thirty days is stopped at once. -/
theorem not_forall_keepsLifetime : ¬∀ agentDto, KeepsLifetime (AgentConfig.new sampleEnv agentDto) := by
  intro h
  have hconfig : (AgentConfig.new sampleEnv thirtyDays).ttl = (2592000 : ℚ) := by decide +kernel
  obtain ⟨ttl, httl, -, hless⟩ := h thirtyDays _ (armedDelay_setSpinDownJob.mpr ⟨_, hconfig, by norm_num, rfl⟩)
  rw [hconfig, WithTop.coe_inj] at httl
  rw [← httl, timerDelay_of_large (by norm_num)] at hless
  norm_num at hless

end GuardianshipAgency.Lifetimes
