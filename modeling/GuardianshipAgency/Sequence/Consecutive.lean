import Mathlib

/-!
# Lists numbered 1, 2, 3, ...

The integers that a counter hands out when each number is the maximum so far plus one.
-/

namespace Sequence

/-- The list is `1, 2, ..., n`. -/
def Consecutive (xs : List Int) : Prop := xs = (List.range xs.length).map fun i : Nat => (i : Int) + 1

/-- The number after the maximum of a list, 1 for the empty list. -/
def succMax (xs : List Int) : Int := xs.max?.getD 0 + 1

namespace Consecutive

variable {xs ys : List Int}

theorem nil : Consecutive [] := rfl

theorem mem_iff (h : Consecutive xs) {x : Int} : x ∈ xs ↔ 1 ≤ x ∧ x ≤ xs.length := by
  rw [h]
  simp only [List.mem_map, List.mem_range, List.length_map, List.length_range]
  constructor
  · rintro ⟨i, hi, rfl⟩
    omega
  · rintro ⟨h1, h2⟩
    exact ⟨(x - 1).toNat, by omega, by omega⟩

theorem nodup (h : Consecutive xs) : xs.Nodup := by
  rw [h]
  refine List.nodup_range.map fun i j hij => ?_
  change (i : Int) + 1 = (j : Int) + 1 at hij
  omega

theorem pairwise (h : Consecutive xs) : xs.Pairwise (· < ·) := by
  rw [h]
  refine List.pairwise_lt_range.map _ fun i j hij => ?_
  omega

theorem succMax_eq (h : Consecutive xs) : succMax xs = xs.length + 1 := by
  cases hx : xs with
  | nil => rfl
  | cons x xs' =>
      have hmax : xs.max? = some (xs.length : Int) := by
        refine List.max?_eq_some_iff.mpr ⟨h.mem_iff.mpr ?_, fun y hy => (h.mem_iff.mp hy).2⟩
        rw [hx]
        simp only [List.length_cons]
        omega
      simp [succMax, ← hx, hmax]

theorem concat (h : Consecutive xs) : Consecutive (xs ++ [succMax xs]) := by
  rw [h.succMax_eq]
  unfold Consecutive at h ⊢
  simp only [List.length_append, List.length_singleton, List.range_succ, List.map_append, List.map_cons,
    List.map_nil]
  exact congrArg (· ++ _) h

theorem of_prefix (h : Consecutive ys) (hp : xs <+: ys) : Consecutive xs := by
  obtain ⟨zs, rfl⟩ := hp
  unfold Consecutive at h ⊢
  rw [List.length_append, List.range_add, List.map_append] at h
  exact (List.append_inj h (by simp)).1

/-- The number after the maximum of a proper prefix has been handed out already. -/
theorem succMax_mem (h : Consecutive ys) (hp : xs <+: ys) (hne : ys ≠ xs) : succMax xs ∈ ys := by
  rw [(h.of_prefix hp).succMax_eq, h.mem_iff]
  have hlt : xs.length < ys.length := by
    refine lt_of_le_of_ne hp.length_le fun he => hne ?_
    exact (hp.eq_of_length he).symm
  omega

end Consecutive

end Sequence
