import Mathlib
import GuardianshipAgency.Async.Budget
import GuardianshipAgency.Async.Lemmas.Pool

/-!
# Metered systems

Each call may raise a level a limited number of times, and the surroundings pay with the level for the calls that they
begin.
-/

namespace Async

variable {ε Op : Type} {Val : Op → Type} {W C Call Env Reply : Type}

/-- What is to be proved of a metered system. A call `k` has `credit k`, and is itself worth `weight k`. -/
structure System.Metered (S : System ε Val W C Call Env Reply) (counts : Op → Bool) (credit weight : Call → Nat)
    (level : W → Nat) : Prop where
  body : ∀ k, (S.body k).AtMost counts (credit k)
  arrive : ∀ k w, level (S.arrive k w) ≤ level w
  answer : ∀ op ch w a w', S.answer op ch w = some (a, w') →
    level w' ≤ level w ∨ (counts op = true ∧ a ≠ none ∧ level w' ≤ level w + 1)
  env : ∀ e w w' ks, S.env e w = some (w', ks) → level w' + (ks.map fun k => credit k + weight k).sum ≤ level w

/-- The calls that begin in a run from outside. -/
def begun (ls : List (Label C Call Env)) : List Call :=
  ls.filterMap fun
    | .begin k => some k
    | _ => none

theorem begun_append (ls ls' : List (Label C Call Env)) : begun (ls ++ ls') = begun ls ++ begun ls' :=
  List.filterMap_append

/-- The level, what the calls under way may still add to it and their weight are within `bound`. -/
def Config.Within (counts : Op → Bool) (weight : Call → Nat) (level : W → Nat) (bound : Nat)
    (c : Config ε Val W Call Reply) : Prop :=
  ∃ budgets : List (Thread ε Val W Call Reply × Nat), budgets.map Prod.fst = c.threads ∧
    (∀ b ∈ budgets, b.1.prog.AtMost counts b.2) ∧
    level c.world + (budgets.map Prod.snd).sum + (c.threads.map fun th => weight th.call).sum ≤ bound

theorem sum_toNat {α : Type} (p : α → Bool) (l : List α) : (l.map fun a => (p a).toNat).sum = l.countP p := by
  induction l with
  | nil => rfl
  | cons a l ih =>
      rw [List.map_cons, List.sum_cons, ih, List.countP_cons, Nat.add_comm]
      cases p a <;> rfl

section Runs

variable {S : System ε Val W C Call Env Reply} {counts : Op → Bool} {credit weight : Call → Nat} {level : W → Nat}
variable {c c' : Config ε Val W Call Reply} {bound : Nat}

theorem sum_set_add {l : List Nat} {i x y : Nat} (h : l[i]? = some x) : (l.set i y).sum + x = l.sum + y := by
  induction l generalizing i with
  | nil => cases h
  | cons z l ih =>
      cases i with
      | zero =>
          cases h
          simp only [List.set_cons_zero, List.sum_cons]
          omega
      | succ i =>
          have hrest : (l.set i y).sum + x = l.sum + y := ih h
          simp only [List.set_cons_succ, List.sum_cons]
          omega

namespace Config.Within

theorem beginAll (hS : S.Metered counts credit weight level) (ks : List Call) (h : c.Within counts weight level bound) :
    (S.beginAll c ks).Within counts weight level (bound + (ks.map fun k => credit k + weight k).sum) := by
  induction ks generalizing c bound with
  | nil => exact h
  | cons k ks ih =>
      obtain ⟨budgets, hthreads, hmost, hle⟩ := h
      have harrive := hS.arrive k c.world
      have hfirst : Config.Within counts weight level (bound + (credit k + weight k))
          { world := S.arrive k c.world, threads := c.threads ++ [S.start (S.arrive k c.world) k] } := by
        refine ⟨budgets ++ [(S.start (S.arrive k c.world) k, credit k)], by simp [hthreads], fun b hb => ?_, ?_⟩
        · rcases List.mem_append.mp hb with hb | hb
          · exact hmost b hb
          · rw [List.mem_singleton.mp hb]
            exact hS.body k
        · simp only [List.map_append, List.map_cons, List.map_nil, List.sum_append, List.sum_cons, List.sum_nil,
            System.start]
          omega
      have hrest := ih hfirst
      rwa [Nat.add_assoc] at hrest

/-- An answer raises the level by what the call has left. -/
theorem answer (hS : S.Metered counts credit weight level) {i : Nat} {ch : C} (h : c.Within counts weight level bound)
    (hstep : S.step c (.answer i ch) = some c') : c'.Within counts weight level bound := by
  obtain ⟨th, op, next, a, w, hth, hprog, hans, rfl, hcase⟩ := System.step_answer hstep
  obtain ⟨budgets, hthreads, hmost, hle⟩ := h
  have hlevel := hS.answer op ch _ _ _ hans
  rcases hcase with ⟨rfl, hths⟩ | ⟨r, rfl, hths⟩
  · refine ⟨budgets, by rw [hths, hthreads], hmost, ?_⟩
    rcases hlevel with hlevel | ⟨-, hne, -⟩
    · rw [hths]
      omega
    · exact absurd rfl hne
  have hth' := hth
  rw [← hthreads, List.getElem?_map] at hth'
  obtain ⟨b, hb, rfl⟩ := Option.map_eq_some_iff.mp hth'
  have hbudget := hmost b (List.mem_of_getElem? hb)
  rw [hprog] at hbudget
  obtain ⟨left, hnext, hleft⟩ : ∃ left, (next r).AtMost counts left ∧ level c'.world + left ≤ level c.world + b.2 := by
    rcases hlevel with hlevel | ⟨hop, -, hlevel⟩
    · exact ⟨b.2, hbudget.next r, by omega⟩
    · obtain ⟨hpos, hrest⟩ := (Prog.AtMost.await_counted hop).mp hbudget
      exact ⟨b.2 - 1, hrest r, by omega⟩
  refine ⟨budgets.set i ({ b.1 with resumed := c'.world, prog := next r }, left), ?_, fun b' hb' => ?_, ?_⟩
  · rw [List.map_set, hths, hthreads]
  · rcases List.mem_or_eq_of_mem_set hb' with hb' | rfl
    · exact hmost b' hb'
    · exact hnext
  · have hsum : ((budgets.map Prod.snd).set i left).sum + b.2 = (budgets.map Prod.snd).sum + left :=
      sum_set_add (by rw [List.getElem?_map, hb]; rfl)
    have hweights : ((c.threads.map fun th => weight th.call).set i (weight b.1.call)).sum + weight b.1.call =
        (c.threads.map fun th => weight th.call).sum + weight b.1.call :=
      sum_set_add (by rw [List.getElem?_map, hth]; rfl)
    simp only [hths, List.map_set]
    omega

theorem step (hS : S.Metered counts credit weight level) {l : Label C Call Env}
    (h : c.Within counts weight level bound) (hstep : S.step c l = some c') :
    c'.Within counts weight level (bound + ((begun [l]).map fun k => credit k + weight k).sum) := by
  cases l with
  | begin k =>
      cases hstep
      exact h.beginAll hS [k]
  | answer i ch => exact h.answer hS hstep
  | env e =>
      obtain ⟨w, ks, henv, rfl⟩ := System.step_env hstep
      have hpaid := hS.env e _ _ _ henv
      obtain ⟨budgets, hthreads, hmost, hle⟩ := h
      have hafter : Config.Within counts weight level (bound - (ks.map fun k => credit k + weight k).sum)
          { c with world := w } := ⟨budgets, hthreads, hmost, by simp only; omega⟩
      have hbegun := beginAll hS ks hafter
      rwa [Nat.sub_add_cancel (by omega)] at hbegun

/-- The calls that begin from outside pay for all that a run does. -/
theorem run (hS : S.Metered counts credit weight level) {ls : List (Label C Call Env)}
    (h : c.Within counts weight level bound) (hrun : S.run c ls = some c') :
    c'.Within counts weight level (bound + ((begun ls).map fun k => credit k + weight k).sum) := by
  induction ls generalizing c bound with
  | nil =>
      cases hrun
      exact h
  | cons l ls ih =>
      obtain ⟨c₁, hl, hls⟩ := Option.bind_eq_some_iff.mp hrun
      have hrest := ih (h.step hS hl) hls
      rw [Nat.add_assoc, ← List.sum_append, ← List.map_append] at hrest
      rwa [← List.singleton_append, begun_append]

end Config.Within

/-- In every run the level and the weight of all calls so far are within what the calls from outside bring. -/
theorem System.Metered.bounded (hS : S.Metered counts credit weight level) {w : W} {ls : List (Label C Call Env)}
    (hrun : S.run (.init w) ls = some c) :
    level c.world + (c.threads.map fun th => weight th.call).sum ≤
      level w + ((begun ls).map fun k => credit k + weight k).sum := by
  have hinit : (Config.init w : Config ε Val W Call Reply).Within counts weight level (level w) :=
    ⟨[], rfl, by simp, Nat.le_refl _⟩
  obtain ⟨budgets, -, -, hle⟩ := hinit.run hS hrun
  omega

end Runs

end Async
