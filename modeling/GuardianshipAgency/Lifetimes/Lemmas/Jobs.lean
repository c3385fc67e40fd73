import GuardianshipAgency.Agency.Lemmas.SpinUp
import GuardianshipAgency.Js.Double

/-!
# Spin-down jobs

What a timer makes of the delay that `setSpinDownJob` asks for, and which cache entries outlive their job.
-/

namespace GuardianshipAgency.Lifetimes

open Js Async Expiring Agency

variable {env : Env}

/-! ## Timers -/

/-- The exact delay can be kept: it is shorter than a millisecond, or it is not too large and no double between it and
the next whole number is missing. -/
def Fits (ms : ℚ) : Prop := ms < 1 ∨ (ms ≤ 2147483647 + ulp ms / 2 ∧ ms < ⌊ms⌋ + 1 - ulp ms / 2)

section Delay

variable {ms : ℚ}

theorem timerDelay_of_large (hlarge : 2 ^ 31 ≤ ms) : timerDelay ms = 1 := by
  have hdouble := two_pow_le_toDouble hlarge
  have hmax : ¬toDouble ms ≤ 2147483647 := by
    intro h
    linarith
  simp [timerDelay, hmax]

theorem not_fits_of_large (hlarge : 2 ^ 31 ≤ ms) : ¬Fits ms := by
  have hulp := mul_ulp_le (show 0 < ms by linarith)
  push_cast at hulp
  rintro (hless | ⟨hmax, -⟩)
  · linarith
  · linarith

/-- Rounding goes no further than to a whole number. -/
theorem toDouble_mem (hpos : 0 < ms) (hsmall : ms < 2 ^ 52) : ⌊ms⌋ ≤ toDouble ms ∧ toDouble ms ≤ ⌊ms⌋ + 1 := by
  have hulp := ulp_pos ms
  have hle := Int.floor_le ms
  have hlt := Int.lt_floor_add_one ms
  constructor
  · rw [int_le_toDouble hpos hsmall]
    linarith
  · have hnext := toDouble_le_int hpos hsmall (⌊ms⌋ + 1)
    push_cast at hnext
    rw [hnext]
    linarith

/-- Whole delays fit up to the largest. -/
theorem fits_of_int {n : ℤ} (hpos : 1 ≤ n) (hmax : n ≤ 2147483647) : Fits (n : ℚ) := by
  have hpos : (1 : ℚ) ≤ n := by exact_mod_cast hpos
  have hmax : (n : ℚ) ≤ 2147483647 := by exact_mod_cast hmax
  have hulp := mul_ulp_le (show (0 : ℚ) < n by linarith)
  have hulp' := ulp_pos (n : ℚ)
  push_cast at hulp
  refine .inr ⟨by linarith, ?_⟩
  rw [Int.floor_intCast]
  linarith

theorem timerDelay_of_less (hpos : 0 < ms) (hless : ms < 1) : timerDelay ms = 1 := by
  have hfloor : ⌊ms⌋ = 0 := Int.floor_eq_zero_iff.mpr ⟨hpos.le, hless⟩
  obtain ⟨-, hhigh⟩ := toDouble_mem hpos (by linarith)
  rw [hfloor, Int.cast_zero, zero_add] at hhigh
  simp only [timerDelay]
  split
  · rename_i h
    rw [le_antisymm hhigh h.1, Int.floor_one]
  · rfl

/-- A delay of at least a millisecond is cut off where its double is not too large. -/
theorem timerDelay_of_more (hmore : 1 ≤ ms) (hsmall : ms < 2 ^ 52) :
    timerDelay ms = if ms ≤ 2147483647 + ulp ms / 2 then ⌊toDouble ms⌋ else 1 := by
  have hpos : 0 < ms := by linarith
  have hulp := ulp_pos ms
  have hone := int_le_toDouble hpos hsmall 1
  have hmax := toDouble_le_int hpos hsmall 2147483647
  push_cast at hone hmax
  have hone : 1 ≤ toDouble ms := hone.mpr (by linarith)
  simp only [timerDelay, hone, hmax, true_and]

/-- The whole part of the double is that of the delay, unless the double is the next whole number. -/
theorem floor_toDouble_eq_iff (hpos : 0 < ms) (hsmall : ms < 2 ^ 52) :
    ⌊toDouble ms⌋ = ⌊ms⌋ ↔ ms < ⌊ms⌋ + 1 - ulp ms / 2 := by
  obtain ⟨hlow, -⟩ := toDouble_mem hpos hsmall
  have hnext := int_le_toDouble hpos hsmall (⌊ms⌋ + 1)
  push_cast at hnext
  rw [Int.floor_eq_iff, ← not_le, hnext, not_le]
  simp [hlow]

theorem timerDelay_eq_iff (hpos : 0 < ms) : timerDelay ms = max 1 ⌊ms⌋ ↔ Fits ms := by
  rcases lt_or_ge ms 1 with hless | hmore
  · have hfloor : ⌊ms⌋ = 0 := Int.floor_eq_zero_iff.mpr ⟨hpos.le, hless⟩
    simp [timerDelay_of_less hpos hless, hfloor, Fits, hless]
  have hfloor : 1 ≤ ⌊ms⌋ := Int.le_floor.mpr (by exact_mod_cast hmore)
  rw [max_eq_right hfloor]
  rcases le_or_gt (2 ^ 31) ms with hlarge | hsmall
  · have hfloor : 2 ^ 31 ≤ ⌊ms⌋ := Int.le_floor.mpr (by exact_mod_cast hlarge)
    have hne : (1 : ℤ) ≠ ⌊ms⌋ := by omega
    simp [timerDelay_of_large hlarge, not_fits_of_large hlarge, hne]
  · have hsmall : ms < 2 ^ 52 := by linarith
    rw [timerDelay_of_more hmore hsmall, Fits, ← floor_toDouble_eq_iff hpos hsmall]
    split
    · rename_i hmax
      simp [not_lt.mpr hmore, hmax]
    · rename_i hmax
      have hulp := ulp_pos ms
      have hfloor : 2147483647 ≤ ⌊ms⌋ := Int.le_floor.mpr (by push_cast; linarith)
      have hne : (1 : ℤ) ≠ ⌊ms⌋ := by omega
      simp [not_lt.mpr hmore, hmax, hne]

/-- No timer is late by more than a millisecond. -/
theorem timerDelay_le (hpos : 0 < ms) : (timerDelay ms : ℚ) ≤ ms + 1 := by
  rcases lt_or_ge ms 1 with hless | hmore
  · rw [timerDelay_of_less hpos hless, Int.cast_one]
    linarith
  rcases le_or_gt (2 ^ 31) ms with hlarge | hsmall
  · rw [timerDelay_of_large hlarge, Int.cast_one]
    linarith
  · have hsmall : ms < 2 ^ 52 := by linarith
    have hle := Int.floor_le ms
    have hdouble := Int.floor_le (toDouble ms)
    obtain ⟨-, hhigh⟩ := toDouble_mem hpos hsmall
    rw [timerDelay_of_more hmore hsmall]
    split
    · linarith
    · rw [Int.cast_one]
      linarith

end Delay

/-! ## Jobs -/

/-- The delay with which a program sets a timer first of all. -/
def armedDelay : Prog JsError Op.Val Unit → Option ℚ
  | .await (.setTimeout _ ms) _ => some ms
  | _ => none

theorem armedDelay_setSpinDownJob {config : AgentConfig} {ms : ℚ} :
    armedDelay (AgentManagerService.setSpinDownJob config) = some ms ↔
      ∃ ttl : ℚ, config.ttl = ttl ∧ 0 < ttl ∧ ms = ttl * 1000 := by
  unfold AgentManagerService.setSpinDownJob
  split
  · rename_i htop
    constructor
    · intro h
      cases h
    · rintro ⟨ttl, httl, -⟩
      rw [htop] at httl
      cases httl
  · rename_i ttl httl
    constructor
    · intro h
      split at h
      · rename_i hpos
        cases h
        exact ⟨ttl, httl, hpos, rfl⟩
      · cases h
    · rintro ⟨ttl', httl', hpos, rfl⟩
      rw [httl] at httl'
      cases httl'
      rw [if_pos hpos]
      rfl

/-- The ttl is that of the request or the default, or it is unlimited. -/
theorem new_ttl_cases (env : Env) (agentDto : AgentCreateDto) :
    ((AgentConfig.new env agentDto).ttl = ⊤ ∧ agentDto.ttl = some 0) ∨
      ∃ ttl : ℚ, (AgentConfig.new env agentDto).ttl = ttl ∧ ttl ≠ 0 ∧ ttl = agentDto.ttl.getD 3600 := by
  cases httl : agentDto.ttl with
  | none => exact .inr ⟨3600, by simp [AgentConfig.new, httl, AgentConfig.defaultTtlSeconds], by norm_num, rfl⟩
  | some ttl =>
      by_cases hzero : ttl = 0
      · exact .inl ⟨by simp [AgentConfig.new, httl, hzero], by rw [hzero]⟩
      · exact .inr ⟨ttl, by simp [AgentConfig.new, httl, hzero], hzero, rfl⟩

/-- When the job runs that `setSpinDownJob` sets at the time `now`. -/
def jobTime (config : AgentConfig) (now : ℚ) : WithTop ℚ :=
  match armedDelay (AgentManagerService.setSpinDownJob config) with
  | some ms => ((now + timerDelay ms : ℚ) : WithTop ℚ)
  | none => ⊤

theorem jobTime_of_pos {config : AgentConfig} {ttl now : ℚ} (httl : config.ttl = ttl) (hpos : 0 < ttl) :
    jobTime config now = ((now + timerDelay (ttl * 1000) : ℚ) : WithTop ℚ) := by
  have harmed := armedDelay_setSpinDownJob.mpr ⟨ttl, httl, hpos, rfl⟩
  simp only [jobTime, harmed]

theorem jobTime_of_neg {config : AgentConfig} (hneg : config.ttl < 0) (now : ℚ) : jobTime config now = ⊤ := by
  unfold jobTime
  split
  · rename_i ms harmed
    obtain ⟨ttl, httl, hpos, -⟩ := armedDelay_setSpinDownJob.mp harmed
    rw [httl, ← WithTop.coe_zero, WithTop.coe_lt_coe] at hneg
    exact absurd hpos (not_lt.mpr hneg.le)
  · rfl

/-! ## Entries -/

/-- The entry of the agent can be read in `w` and later, until the job runs that is set in `w`, if nothing else writes
or deletes it. -/
def Outlives (config : AgentConfig) (w : World) : Prop :=
  ∀ v : World, v.cache config.agentId = w.cache config.agentId → w.now ≤ v.now →
    (v.now : WithTop ℚ) ≤ jobTime config w.now → (v.lookup config.agentId).isSome

theorem setAgentCache_ok {config : AgentConfig} {w w' : World}
    (h : (machine env).Exec (AgentManagerService.setAgentCache config) w (.ok ()) w') :
    w'.now = w.now ∧ w'.cache config.agentId =
      some { value := AgentManagerService.cacheEntry config
             deadline := (w.now : WithTop ℚ) + (env.kept (AgentManagerService.cacheTtl config)).map (· * 1000) } := by
  rcases exec_call rfl h with ⟨-, e, he⟩ | ⟨d, v, he, -⟩
  · cases he
  · cases d with
    | plain =>
        cases he
        exact ⟨rfl, Store.write_self _ _ _⟩
    | _ => cases he

theorem outlives_of_deadline {config : AgentConfig} {w : World} {entry : CacheEntry} {deadline : WithTop ℚ}
    (hentry : w.cache config.agentId = some { value := entry, deadline })
    (hlater : ∀ now : ℚ, w.now ≤ now → (now : WithTop ℚ) ≤ jobTime config w.now → (now : WithTop ℚ) < deadline) :
    Outlives config w := by
  intro v hcache hnow hjob
  have hlookup : v.lookup config.agentId = some entry :=
    Store.lookup_eq_some.mpr ⟨_, hcache.trans hentry, hlater v.now hnow hjob, rfl⟩
  rw [hlookup]
  rfl

theorem outlives_of_top {config : AgentConfig} (htop : config.ttl = ⊤) {w w' : World}
    (h : (machine env).Exec (AgentManagerService.setAgentCache config) w (.ok ()) w') : Outlives config w' := by
  obtain ⟨-, hentry⟩ := setAgentCache_ok h
  refine outlives_of_deadline hentry fun now _ _ => ?_
  rw [cacheTtl_nonneg (htop ▸ le_top), htop]
  simp

/-- The entry is kept for a second longer than the job waits. -/
theorem outlives_of_pos {config : AgentConfig} {ttl : ℚ} (httl : config.ttl = ttl) (hpos : 0 < ttl) {w w' : World}
    (h : (machine env).Exec (AgentManagerService.setAgentCache config) w (.ok ()) w') : Outlives config w' := by
  obtain ⟨hnow, hentry⟩ := setAgentCache_ok h
  refine outlives_of_deadline hentry fun now _ hjob => ?_
  have hdelay := timerDelay_le (show 0 < ttl * 1000 by linarith)
  have hnonneg : 0 ≤ config.ttl := by
    rw [httl, ← WithTop.coe_zero, WithTop.coe_le_coe]
    exact hpos.le
  rw [jobTime_of_pos httl hpos, WithTop.coe_le_coe, hnow] at hjob
  rw [cacheTtl_nonneg hnonneg, httl, ← WithTop.coe_one, ← WithTop.coe_add, WithTop.map_coe, ← WithTop.coe_add,
    WithTop.coe_lt_coe]
  linarith

/-- There is no job, and the entry expires nevertheless. -/
theorem not_outlives_of_neg {config : AgentConfig} (hstore : env.negativeTtl ≠ ⊤) (hneg : config.ttl < 0) {w w' : World}
    (h : (machine env).Exec (AgentManagerService.setAgentCache config) w (.ok ()) w') : ¬Outlives config w' := by
  obtain ⟨-, hentry⟩ := setAgentCache_ok h
  obtain ⟨kept, hkept⟩ := WithTop.ne_top_iff_exists.mp hstore
  intro houtlives
  -- the moment at which the entry expires, or that of the write if it has expired by then
  have hsome := houtlives { w' with now := max w'.now (w.now + kept * 1000) } rfl (le_max_left _ _)
    (by rw [jobTime_of_neg hneg]; exact le_top)
  obtain ⟨entry, hlookup⟩ := Option.isSome_iff_exists.mp hsome
  obtain ⟨e, he, hlt, -⟩ := Store.lookup_eq_some.mp hlookup
  rw [hentry] at he
  cases he
  rw [cacheTtl_neg hneg, ← hkept, WithTop.map_coe, ← WithTop.coe_add, WithTop.coe_lt_coe] at hlt
  exact absurd hlt (not_lt.mpr (le_max_right _ _))

/-- A spin-up that began in `w` has started a new agent, and has just written its entry in `w'`. -/
def Started (env : Env) (agentDto : AgentCreateDto) (w w' : World) : Prop :=
  ∃ w₁, (machine env).Exec (AgentManagerService.startAgent env (AgentConfig.new env agentDto)) w (.ok ()) w₁ ∧
    (machine env).Exec (AgentManagerService.setAgentCache (AgentConfig.new env agentDto)) w₁ (.ok ()) w'

theorem outlives_iff {agentDto : AgentCreateDto} (hstore : env.negativeTtl ≠ ⊤) {w w' : World}
    (h : (machine env).Exec (AgentManagerService.setAgentCache (AgentConfig.new env agentDto)) w (.ok ()) w') :
    Outlives (AgentConfig.new env agentDto) w' ↔ ∀ ttl, agentDto.ttl = some ttl → 0 ≤ ttl := by
  rcases new_ttl_cases env agentDto with ⟨htop, hzero⟩ | ⟨ttl, httl, hne, hrequest⟩
  · refine ⟨fun _ ttl httl => ?_, fun _ => outlives_of_top htop h⟩
    rw [hzero] at httl
    cases httl
    exact le_refl _
  rcases lt_or_gt_of_ne hne with hneg | hpos
  · have hneg' : (AgentConfig.new env agentDto).ttl < 0 := by
      rw [httl, ← WithTop.coe_zero, WithTop.coe_lt_coe]
      exact hneg
    refine ⟨fun houtlives => absurd houtlives (not_outlives_of_neg hstore hneg' h), fun hnonneg => ?_⟩
    cases hdto : agentDto.ttl with
    | none =>
        rw [hdto, Option.getD_none] at hrequest
        norm_num [hrequest] at hneg
    | some t =>
        rw [hdto, Option.getD_some] at hrequest
        exact absurd (hnonneg t hdto) (not_le.mpr (hrequest ▸ hneg))
  · refine ⟨fun _ t ht => ?_, fun _ => outlives_of_pos httl hpos h⟩
    rw [ht, Option.getD_some] at hrequest
    exact hrequest ▸ hpos.le

end GuardianshipAgency.Lifetimes
