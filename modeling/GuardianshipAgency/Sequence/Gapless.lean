import GuardianshipAgency.Sequence.Consecutive

/-!
# Lists that hold exactly 1, 2, ..., m

What remains of `Consecutive` when the numbers are handed out on maxima that may be out of date: numbers can repeat,
but none is left out.
-/

namespace Sequence

/-- The numbers in the list are `1, ..., m`, each at least once. -/
def Gapless (xs : List Int) : Prop := ∃ m : ℕ, m ≤ xs.length ∧ ∀ x, x ∈ xs ↔ 1 ≤ x ∧ x ≤ m

namespace Gapless

variable {xs ys : List Int}

theorem nil : Gapless [] := ⟨0, le_refl _, fun x => by simp; omega⟩

theorem succMax_eq {m : ℕ} (hx : ∀ x, x ∈ xs ↔ 1 ≤ x ∧ x ≤ m) : succMax xs = m + 1 := by
  cases xs with
  | nil =>
      have hm : m = 0 := by
        by_contra hne
        have h1 := (hx 1).mpr ⟨le_refl _, by omega⟩
        simp at h1
      simp [succMax, hm]
  | cons x xs =>
      have hle := (hx x).mp List.mem_cons_self
      have hmax : (x :: xs).max? = some (m : Int) := by
        refine List.max?_eq_some_iff.mpr ⟨(hx m).mpr ⟨by omega, le_refl _⟩, fun y hy => ?_⟩
        exact ((hx y).mp hy).2
      simp [succMax, hmax]

/-- A number handed out on the maximum of an older list leaves no gap. -/
theorem concat (hxs : Gapless xs) (hys : Gapless ys) (hsub : xs ⊆ ys) : Gapless (ys ++ [succMax xs]) := by
  obtain ⟨m, -, hx⟩ := hxs
  obtain ⟨n, hn, hy⟩ := hys
  have hmn : m ≤ n := by
    by_contra hlt
    have hm := hsub ((hx m).mpr ⟨by omega, le_refl _⟩)
    have hle := ((hy m).mp hm).2
    omega
  rw [succMax_eq hx]
  refine ⟨max n (m + 1), ?_, fun x => ?_⟩
  · simp only [List.length_append, List.length_singleton]
    omega
  · simp only [List.mem_append, hy x, List.mem_singleton, Nat.cast_max, Nat.cast_add, Nat.cast_one]
    omega

end Gapless

end Sequence
