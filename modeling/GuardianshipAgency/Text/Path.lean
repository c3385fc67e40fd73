import Mathlib

/-!
# URL paths

A URL's path ends at the first `?` or `#`, and its segments are what lies between the slashes.
-/

namespace Text

def pathname (cs : List Char) : List Char := cs.takeWhile fun c => c != '?' && c != '#'

def segments (cs : List Char) : List (List Char) := cs.splitOn '/'

/-- A character that neither separates segments nor ends the path. -/
def inSegment (c : Char) : Bool := c != '/' && c != '?' && c != '#'

/-! ## Paths -/

variable {cs ds : List Char}

theorem pathname_append (h : ∀ c ∈ cs, c ≠ '?' ∧ c ≠ '#') (ds : List Char) :
    pathname (cs ++ ds) = cs ++ pathname ds := by
  refine List.takeWhile_append_of_pos fun c hc => ?_
  simp [h c hc]

theorem pathname_eq_self (h : ∀ c ∈ cs, c ≠ '?' ∧ c ≠ '#') : pathname cs = cs := by
  have happend := pathname_append h []
  simpa [pathname] using happend

/-! ## Segments -/

theorem segments_append_slash (h : '/' ∉ cs) (ds : List Char) : segments (cs ++ '/' :: ds) = cs :: segments ds := by
  rw [segments, List.splitOn_eq_splitOnP]
  exact List.splitOnP_append_cons_of_forall_mem (fun c hc => by simpa using ne_of_mem_of_not_mem hc h) '/' rfl ds

theorem segments_eq_singleton (h : '/' ∉ cs) : segments cs = [cs] := by
  rw [segments, List.splitOn_eq_splitOnP]
  exact List.splitOnP_eq_singleton fun c hc => by simpa using ne_of_mem_of_not_mem hc h

theorem segments_head? (cs : List Char) : (segments cs).head? = some (cs.takeWhile (· != '/')) := by
  induction cs with
  | nil => rfl
  | cons c cs ih =>
      rw [segments] at ih ⊢
      rw [List.splitOn_cons_eq_if_modifyHead]
      by_cases hc : c = '/'
      · simp [hc]
      · simp [hc, ih]

/-- The first segment of a path is what comes before the first separator. -/
theorem segments_pathname_head? (cs : List Char) :
    (segments (pathname cs)).head? = some (cs.takeWhile inSegment) := by
  rw [segments_head?, pathname, List.takeWhile_takeWhile]
  congr 2
  funext c
  rw [Bool.eq_iff_iff]
  simp [inSegment, and_assoc]

/-- Only the text before a separator counts. -/
theorem takeWhile_inSegment_append (h : ∀ d, ds.head? = some d → inSegment d = false) :
    (cs ++ ds).takeWhile inSegment = cs.takeWhile inSegment := by
  rw [List.takeWhile_append]
  split
  · next hlength =>
      have hall : cs.takeWhile inSegment = cs := (List.takeWhile_prefix inSegment).eq_of_length hlength
      cases ds with
      | nil => simp [hall]
      | cons d ds => simp [hall, h d rfl]
  · rfl

end Text
