import Mathlib

/-!
# Regular expressions with backtracking

The matches of a pattern at the start of a text, each as the rest that it leaves, in the order in which a backtracking
matcher finds them.
-/

namespace Text

variable {α : Type}

inductive Pattern (α : Type) where
  | empty
  | one (p : α → Bool)
  | many (p : α → Bool)
  | seq (r s : Pattern α)
  | optional (r : Pattern α)

namespace Pattern

def literal [BEq α] : List α → Pattern α
  | [] => .empty
  | c :: cs => .seq (.one (· == c)) (literal cs)

def oneOrMore (p : α → Bool) : Pattern α := .seq (.one p) (.many p)

def manyRests (p : α → Bool) : List α → List (List α)
  | [] => [[]]
  | c :: cs => if p c then manyRests p cs ++ [c :: cs] else [c :: cs]

/-- `many` and `optional` are greedy. -/
def rests : Pattern α → List α → List (List α)
  | .empty, cs => [cs]
  | .one _, [] => []
  | .one p, c :: cs => if p c then [cs] else []
  | .many p, cs => manyRests p cs
  | .seq r s, cs => (r.rests cs).flatMap s.rests
  | .optional r, cs => r.rests cs ++ [cs]

/-- The rest after the match at the start of the text, if there is one. -/
def rest? (r : Pattern α) (cs : List α) : Option (List α) := (r.rests cs).head?

/-- The pattern matches somewhere in the text. -/
def occurs (r : Pattern α) (cs : List α) : Bool := cs.tails.any fun ds => (r.rest? ds).isSome

/-- Removes a match at the start of the text. -/
def strip (r : Pattern α) (cs : List α) : List α := (r.rest? cs).getD cs

/-! ## Rests -/

variable {p : α → Bool} {r s : Pattern α} {cs : List α}

theorem rest?_many (p : α → Bool) (cs : List α) : (many p).rest? cs = some (cs.dropWhile p) := by
  simp only [rest?, rests]
  induction cs with
  | nil => rfl
  | cons c cs ih =>
      simp only [manyRests, List.dropWhile_cons]
      split
      · simp [ih]
      · rfl

theorem rest?_oneOrMore {c : α} (hc : p c = true) : (oneOrMore p).rest? (c :: cs) = some (cs.dropWhile p) := by
  have hmany := rest?_many p cs
  simp only [rest?, rests] at hmany
  simp [oneOrMore, rest?, rests, hc, hmany]

theorem rest?_oneOrMore_eq_none (h : ∀ c, cs.head? = some c → p c = false) : (oneOrMore p).rest? cs = none := by
  cases cs with
  | nil => rfl
  | cons c cs => simp [oneOrMore, rest?, rests, h c rfl]

theorem rest?_optional_one_of_not (h : ∀ c, cs.head? = some c → p c = false) :
    (optional (one p)).rest? cs = some cs := by
  cases cs with
  | nil => rfl
  | cons c cs => simp [rest?, rests, h c rfl]

/-- After a pattern that always matches nothing has to be tried again. -/
theorem rest?_seq (hs : ∀ ds, s.rests ds ≠ []) : (seq r s).rest? cs = (r.rest? cs).bind s.rest? := by
  simp only [rest?, rests]
  cases r.rests cs with
  | nil => rfl
  | cons ds rest =>
      obtain ⟨e, es, he⟩ := List.exists_cons_of_ne_nil (hs ds)
      simp [rest?, he]

theorem rest?_seq_literal [BEq α] [LawfulBEq α] (l : List α) :
    (seq (literal l) s).rest? (l ++ cs) = s.rest? cs := by
  simp only [rest?, rests]
  induction l with
  | nil => simp [literal, rests]
  | cons c l ih => simpa [literal, rests] using ih

end Pattern

end Text
