import GuardianshipAgency.Sequence.Consecutive

/-!
# Ranks

The rank of a number in a list is 1 for the smallest. What is known of a list by the ranks of its elements does not
depend on the gaps between them.
-/

namespace Sequence

def rank (xs : List Int) (x : Int) : Int := xs.countP (· < x) + 1

theorem rank_perm {xs ys : List Int} (h : xs.Perm ys) : rank xs = rank ys := by
  funext x
  rw [rank, rank, h.countP_eq]

theorem rank_getElem {xs : List Int} (h : xs.Pairwise (· < ·)) {i : ℕ} (hi : i < xs.length) :
    rank xs xs[i] = i + 1 := by
  induction xs generalizing i with
  | nil => simp at hi
  | cons x xs ih =>
      obtain ⟨hx, hxs⟩ := List.pairwise_cons.mp h
      cases i with
      | zero =>
          have hnone : xs.countP (· < x) = 0 := by
            simp only [List.countP_eq_zero, decide_eq_true_eq, not_lt]
            exact fun y hy => (hx y hy).le
          simp [rank, hnone]
      | succ i =>
          have hi' : i < xs.length := by simpa using hi
          have hlt := hx xs[i] (List.getElem_mem hi')
          have hrank := ih hxs hi'
          simp only [rank] at hrank
          simp only [rank, List.getElem_cons_succ, List.countP_cons, hlt, decide_true, ↓reduceIte]
          push_cast
          omega

end Sequence
