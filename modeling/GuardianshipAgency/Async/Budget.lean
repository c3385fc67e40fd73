import GuardianshipAgency.Async.Ensures

/-!
# How often a program makes a call
-/

namespace Async

variable {ε Op : Type} {Val : Op → Type} {α β : Type}

/-- The program makes at most `n` calls that satisfy `counts`, whatever the answers. -/
def Prog.AtMost (counts : Op → Bool) : Prog ε Val α → Nat → Prop
  | .settled _, _ => True
  | .await op next, n =>
      if counts op then 0 < n ∧ ∀ r, (next r).AtMost counts (n - 1) else ∀ r, (next r).AtMost counts n

namespace Prog.AtMost

variable {counts : Op → Bool} {p : Prog ε Val α} {m n : Nat}

@[simp] theorem settled {r : Except ε α} : (Prog.settled r : Prog ε Val α).AtMost counts n := trivial

theorem await_counted {op : Op} {next : Except ε (Val op) → Prog ε Val α} (hop : counts op = true) :
    (Prog.await op next).AtMost counts n ↔ 0 < n ∧ ∀ r, (next r).AtMost counts (n - 1) := by
  simp [Prog.AtMost, hop]

theorem await_free {op : Op} {next : Except ε (Val op) → Prog ε Val α} (hop : counts op = false) :
    (Prog.await op next).AtMost counts n ↔ ∀ r, (next r).AtMost counts n := by
  simp [Prog.AtMost, hop]

theorem await {op : Op} {next : Except ε (Val op) → Prog ε Val α} (h : ∀ r, (next r).AtMost counts n) :
    (Prog.await op next).AtMost counts (n + (counts op).toNat) := by
  cases hop : counts op with
  | true => exact (await_counted hop).mpr ⟨Nat.succ_pos n, h⟩
  | false => exact (await_free hop).mpr h

theorem mono (h : p.AtMost counts m) (hmn : m ≤ n) : p.AtMost counts n := by
  induction p generalizing m n with
  | settled r => trivial
  | await op next ih =>
      cases hop : counts op with
      | true =>
          rw [await_counted hop] at h ⊢
          exact ⟨by omega, fun r => ih r (h.2 r) (by omega)⟩
      | false =>
          rw [await_free hop] at h ⊢
          exact fun r => ih r (h r) hmn

/-- Whatever the answer to its call, the rest of the program stays within what the program was allowed. -/
theorem next {op : Op} {k : Except ε (Val op) → Prog ε Val α} (h : (Prog.await op k).AtMost counts n)
    (r : Except ε (Val op)) : (k r).AtMost counts n := by
  cases hop : counts op with
  | true => exact (((await_counted hop).mp h).2 r).mono (by omega)
  | false => exact (await_free hop).mp h r

theorem calls (h : p.AtMost counts 0) : p.Calls fun op => counts op = false := by
  induction p with
  | settled r => trivial
  | await op next ih =>
      cases hop : counts op with
      | true => exact absurd ((await_counted hop).mp h).1 (by omega)
      | false => exact ⟨hop, fun r => ih r ((await_free hop).mp h r)⟩

theorem of_calls (h : p.Calls fun op => counts op = false) : p.AtMost counts n := by
  induction p with
  | settled r => trivial
  | await op next ih => exact (await_free h.1).mpr fun r => ih r (h.2 r)

theorem andThen {k : Except ε α → Prog ε Val β} (h : p.AtMost counts m) (hk : ∀ r, (k r).AtMost counts n) :
    (p.andThen k).AtMost counts (m + n) := by
  induction p generalizing m with
  | settled r => exact (hk r).mono (Nat.le_add_left n m)
  | await op next ih =>
      cases hop : counts op with
      | true =>
          obtain ⟨hpos, hnext⟩ := (await_counted hop).mp h
          refine (await_counted hop).mpr ⟨by omega, fun r => (ih r (hnext r)).mono (by omega)⟩
      | false => exact (await_free hop).mpr fun r => ih r ((await_free hop).mp h r)

theorem bind {f : α → Prog ε Val β} (h : p.AtMost counts m) (hf : ∀ a, (f a).AtMost counts n) :
    (p >>= f).AtMost counts (m + n) :=
  h.andThen fun r => by
    cases r with
    | ok a => exact hf a
    | error e => trivial

theorem call {op : Op} : (Prog.call op : Prog ε Val _).AtMost counts 1 := by
  cases hop : counts op with
  | true => exact (await_counted hop).mpr ⟨Nat.one_pos, fun _ => trivial⟩
  | false => exact (await_free hop).mpr fun _ => trivial

end Prog.AtMost

end Async
