import Mathlib

/-!
# Double precision

Numbers are exact elsewhere. `toDouble q` is what an operation gives whose exact result is `q`. Exponents are not
bounded.
-/

namespace Js

/-- The nearest integer, of two the even one. -/
def roundEven (q : ℚ) : ℤ :=
  if q - ⌊q⌋ < 1 / 2 then ⌊q⌋
  else if 1 / 2 < q - ⌊q⌋ then ⌊q⌋ + 1
  else if ⌊q⌋ % 2 = 0 then ⌊q⌋ else ⌊q⌋ + 1

/-- The distance of neighbouring doubles around `q`, which have 53 significant bits. -/
def ulp (q : ℚ) : ℚ := 2 ^ (Int.log 2 |q| - 52)

def toDouble (q : ℚ) : ℚ := roundEven (q / ulp q) * ulp q

/-! ## Rounding to integers -/

theorem roundEven_bounds (q : ℚ) : ⌊q⌋ ≤ roundEven q ∧ roundEven q ≤ ⌊q⌋ + 1 := by
  unfold roundEven
  split_ifs <;> omega

theorem le_roundEven {q : ℚ} {n : ℤ} (h : (n : ℚ) ≤ q) : n ≤ roundEven q :=
  (Int.le_floor.mpr h).trans (roundEven_bounds q).1

/-- Half below an even number is rounded up. -/
theorem even_le_roundEven {q : ℚ} {n : ℤ} (hn : n % 2 = 0) : n ≤ roundEven q ↔ (n : ℚ) - 1 / 2 ≤ q := by
  have hle := Int.floor_le q
  have hlt := Int.lt_floor_add_one q
  rcases lt_trichotomy (⌊q⌋ + 1) n with hfar | hnear | hbelow
  · have hround := (roundEven_bounds q).2
    have hfar' : (⌊q⌋ : ℚ) + 2 ≤ n := by exact_mod_cast (show ⌊q⌋ + 2 ≤ n by omega)
    constructor
    · intro h
      omega
    · intro h
      linarith
  · subst hnear
    have hodd : ⌊q⌋ % 2 ≠ 0 := by omega
    unfold roundEven
    push_cast
    split_ifs with hdown hup
    · constructor
      · intro h
        omega
      · intro h
        linarith
    · simp only [le_refl, true_iff]
      linarith
    · simp only [le_refl, true_iff]
      linarith
  · have hround := (roundEven_bounds q).1
    have hbelow' : (n : ℚ) ≤ ⌊q⌋ := by exact_mod_cast Int.lt_add_one_iff.mp hbelow
    constructor
    · intro _
      linarith
    · intro _
      omega

/-- Half above an even number is rounded down. -/
theorem roundEven_le_even {q : ℚ} {n : ℤ} (hn : n % 2 = 0) : roundEven q ≤ n ↔ q ≤ (n : ℚ) + 1 / 2 := by
  have hle := Int.floor_le q
  have hlt := Int.lt_floor_add_one q
  rcases lt_trichotomy ⌊q⌋ n with hbelow | hnear | hfar
  · have hround := (roundEven_bounds q).2
    have hbelow' : (⌊q⌋ : ℚ) + 1 ≤ n := by exact_mod_cast hbelow
    constructor
    · intro _
      linarith
    · intro _
      omega
  · subst hnear
    unfold roundEven
    split_ifs with hdown hup
    · simp only [le_refl, true_iff]
      linarith
    · constructor
      · intro h
        omega
      · intro h
        linarith
    · simp only [le_refl, true_iff]
      linarith
  · have hround := (roundEven_bounds q).1
    have hfar' : (n : ℚ) + 1 ≤ ⌊q⌋ := by exact_mod_cast hfar
    constructor
    · intro h
      omega
    · intro h
      linarith

/-! ## Doubles -/

theorem ulp_pos (q : ℚ) : 0 < ulp q := zpow_pos (by norm_num) _

section Positive

variable {q : ℚ}

theorem zpow_log_eq (hq : 0 < q) : (2 : ℚ) ^ Int.log 2 q = ((2 ^ 52 : ℤ) : ℚ) * ulp q := by
  rw [ulp, abs_of_pos hq, zpow_sub₀ (by norm_num)]
  norm_num
  ring

theorem mul_ulp_le (hq : 0 < q) : ((2 ^ 52 : ℤ) : ℚ) * ulp q ≤ q := by
  rw [← zpow_log_eq hq]
  exact_mod_cast Int.zpow_log_le_self (by norm_num) hq

theorem zpow_log_le_toDouble (hq : 0 < q) : (2 : ℚ) ^ Int.log 2 q ≤ toDouble q := by
  have hulp := ulp_pos q
  have hle : ((2 ^ 52 : ℤ) : ℚ) ≤ q / ulp q := (le_div_iff₀ hulp).mpr (mul_ulp_le hq)
  have hround : ((2 ^ 52 : ℤ) : ℚ) ≤ (roundEven (q / ulp q) : ℚ) := by exact_mod_cast le_roundEven hle
  rw [zpow_log_eq hq, toDouble]
  exact mul_le_mul_of_nonneg_right hround hulp.le

theorem two_pow_le_toDouble {k : ℕ} (hk : (2 : ℚ) ^ k ≤ q) : (2 : ℚ) ^ k ≤ toDouble q := by
  have hq : 0 < q := lt_of_lt_of_le (by positivity) hk
  have hlog : (k : ℤ) ≤ Int.log 2 q := (Int.zpow_le_iff_le_log (by norm_num) hq).mp (by exact_mod_cast hk)
  calc (2 : ℚ) ^ k = 2 ^ (k : ℤ) := (zpow_natCast 2 k).symm
    _ ≤ 2 ^ Int.log 2 q := zpow_le_zpow_right₀ (by norm_num) hlog
    _ ≤ toDouble q := zpow_log_le_toDouble hq

/-- Where doubles are closer than whole numbers, these are even multiples of their distance. -/
theorem exists_even_mul_ulp (hq : 0 < q) (hsmall : q < 2 ^ 52) (n : ℤ) : ∃ m : ℤ, m % 2 = 0 ∧ (n : ℚ) = m * ulp q := by
  have hlog : Int.log 2 q < 52 := (Int.lt_zpow_iff_log_lt (by norm_num) hq).mp (by exact_mod_cast hsmall)
  obtain ⟨j, hj⟩ : ∃ j : ℕ, (52 - Int.log 2 q : ℤ) = j + 1 := ⟨(51 - Int.log 2 q).toNat, by omega⟩
  refine ⟨n * 2 ^ (j + 1), by rw [pow_succ, ← mul_assoc, Int.mul_emod_left], ?_⟩
  have hulp : ulp q = ((2 : ℚ) ^ (j + 1))⁻¹ := by
    rw [ulp, abs_of_pos hq, ← zpow_natCast, ← zpow_neg]
    congr 1
    push_cast
    omega
  rw [hulp]
  push_cast
  rw [mul_assoc, mul_inv_cancel₀ (by positivity), mul_one]

theorem int_le_toDouble (hq : 0 < q) (hsmall : q < 2 ^ 52) (n : ℤ) :
    (n : ℚ) ≤ toDouble q ↔ n - ulp q / 2 ≤ q := by
  obtain ⟨m, hm, hn⟩ := exists_even_mul_ulp hq hsmall n
  have hulp := ulp_pos q
  rw [hn, toDouble, mul_le_mul_iff_left₀ hulp, Int.cast_le, even_le_roundEven hm, le_div_iff₀ hulp]
  ring_nf

theorem toDouble_le_int (hq : 0 < q) (hsmall : q < 2 ^ 52) (n : ℤ) :
    toDouble q ≤ n ↔ q ≤ n + ulp q / 2 := by
  obtain ⟨m, hm, hn⟩ := exists_even_mul_ulp hq hsmall n
  have hulp := ulp_pos q
  rw [hn, toDouble, mul_le_mul_iff_left₀ hulp, Int.cast_le, roundEven_le_even hm, div_le_iff₀ hulp]
  ring_nf

end Positive

/-! ## Timers -/

/-- The delay that takes effect when `setTimeout` is asked for `ms`: one that is too large or too small is replaced by
a millisecond, and a fraction is cut off. -/
def timerDelay (ms : ℚ) : ℤ :=
  let after := toDouble ms
  if 1 ≤ after ∧ after ≤ 2147483647 then ⌊after⌋ else 1

end Js
