import Mathlib

/-!
# Command lines

Options follow one another, each with a fixed number of values. A value is taken for what it is, whatever it looks like.
-/

namespace Cli

variable {α : Type}

def render (options : List (α × List α)) : List α := options.flatMap fun o => o.1 :: o.2

variable (arity : α → Option ℕ)

/-- Reads the values of the option `o`, of which `n` are missing and `vs` have been read, and then the other options. -/
def readValues : α → ℕ → List α → List α → Option (List (α × List α))
  | o, 0, vs, [] => some [(o, vs)]
  | o, 0, vs, t :: ts => (arity t).bind fun n => (readValues t n [] ts).map fun options => (o, vs) :: options
  | _, _ + 1, _, [] => none
  | o, n + 1, vs, t :: ts => readValues o n (vs ++ [t]) ts

/-- Reads a command line. There are `arity o` values after the option `o`. -/
def read : List α → Option (List (α × List α))
  | [] => some []
  | t :: ts => (arity t).bind fun n => readValues arity t n [] ts

theorem readValues_zero (o : α) (vs ts : List α) :
    readValues arity o 0 vs ts = (read arity ts).map fun options => (o, vs) :: options := by
  cases ts with
  | nil => rfl
  | cons t ts => exact (Option.map_bind ..).symm

theorem readValues_append (o : α) (vs vs' ts : List α) :
    readValues arity o vs'.length vs (vs' ++ ts) = readValues arity o 0 (vs ++ vs') ts := by
  induction vs' generalizing vs with
  | nil => simp
  | cons v vs' ih =>
      have hrest := ih (vs ++ [v])
      rw [List.append_assoc] at hrest
      exact hrest

variable {arity} {options options' : List (α × List α)}

/-- Reading gives back the options that were written. -/
theorem read_render (h : ∀ o ∈ options, arity o.1 = some o.2.length) : read arity (render options) = some options := by
  induction options with
  | nil => rfl
  | cons o options ih =>
      have hrest : read arity (render options) = some options := ih fun o' ho' => h o' (.tail _ ho')
      have hvalues := readValues_append arity o.1 [] o.2 (render options)
      rw [List.nil_append, readValues_zero, hrest] at hvalues
      rw [render, List.flatMap_cons, List.cons_append, read, h o (.head _)]
      exact hvalues

theorem render_inj (h : ∀ o ∈ options, arity o.1 = some o.2.length)
    (h' : ∀ o ∈ options', arity o.1 = some o.2.length) (he : render options = render options') :
    options = options' := by
  have hread := read_render h
  rw [he, read_render h'] at hread
  exact (Option.some.inj hread).symm

end Cli
