import GuardianshipAgency.Async.Ensures

/-!
# Paths through a program

`Prog.Path` lists the calls that a program makes and the answers that it gets, whatever gives them.
`Machine.trace` records the path of a run.
-/

namespace Async

variable {ε Op : Type} {Val : Op → Type} {W C α β : Type}

structure Exchange (ε : Type) {Op : Type} (Val : Op → Type) where
  op : Op
  answer : Except ε (Val op)

/-- `p.Path xs r`: with the answers in `xs` to its calls, which are those in `xs`, `p` settles with `r`. -/
inductive Prog.Path : Prog ε Val α → List (Exchange ε Val) → Except ε α → Prop where
  | settled (r) : Path (.settled r) [] r
  | await {op next xs r} (a : Except ε (Val op)) : Path (next a) xs r →
      Path (.await op next) ({ op, answer := a } :: xs) r

/-- Each answer is the one that `answers` gives to the call after the exchanges before it. -/
def Given (answers : List (Exchange ε Val) → (op : Op) → Except ε (Val op)) : List (Exchange ε Val) → Prop
  | [] => True
  | x :: xs => x.answer = answers [] x.op ∧ Given (fun pre => answers (x :: pre)) xs

/-- Runs a program alone with the given choices and records the answers. -/
def Machine.trace (M : Machine ε Val W C) :
    Prog ε Val α → W → List C → Option (List (Exchange ε Val) × Except ε α × W)
  | .settled r, w, [] => some ([], r, w)
  | .settled _, _, _ :: _ => none
  | .await _ _, _, [] => none
  | .await op next, w, c :: cs =>
      match M.answer op c w with
      | none => none
      | some (none, w₁) => M.trace (.await op next) w₁ cs
      | some (some a, w₁) => (M.trace (next a) w₁ cs).map fun x => ({ op, answer := a } :: x.1, x.2)

namespace Prog.Path

variable {p : Prog ε Val α} {xs ys : List (Exchange ε Val)} {r : Except ε α}

/-! ## Inversion -/

theorem settled_inv {r₀ : Except ε α} (h : (Prog.settled r₀ : Prog ε Val α).Path xs r) : xs = [] ∧ r = r₀ := by
  cases h
  exact ⟨rfl, rfl⟩

theorem await_inv {op : Op} {next : Except ε (Val op) → Prog ε Val α} (h : (Prog.await op next).Path xs r) :
    ∃ a ys, xs = { op, answer := a } :: ys ∧ (next a).Path ys r := by
  cases h with
  | await a hnext => exact ⟨a, _, rfl, hnext⟩

theorem call_inv {op : Op} {r : Except ε (Val op)} (h : (Prog.call op : Prog ε Val _).Path xs r) :
    xs = [{ op, answer := r }] := by
  obtain ⟨a, ys, rfl, hnext⟩ := await_inv h
  obtain ⟨rfl, rfl⟩ := settled_inv hnext
  rfl

theorem andThen_inv {k : Except ε α → Prog ε Val β} {r : Except ε β} (h : (p.andThen k).Path xs r) :
    ∃ ys zs r₁, xs = ys ++ zs ∧ p.Path ys r₁ ∧ (k r₁).Path zs r := by
  induction p generalizing xs with
  | settled r₁ => exact ⟨[], xs, r₁, rfl, .settled r₁, h⟩
  | await op next ih =>
      obtain ⟨a, xs', rfl, hnext⟩ := await_inv h
      obtain ⟨ys, zs, r₁, rfl, hp, hk⟩ := ih a hnext
      exact ⟨_ :: ys, zs, r₁, rfl, .await a hp, hk⟩

theorem bind_inv {f : α → Prog ε Val β} {r : Except ε β} (h : (p >>= f).Path xs r) :
    (∃ e, p.Path xs (.error e) ∧ r = .error e) ∨
      ∃ ys zs a, xs = ys ++ zs ∧ p.Path ys (.ok a) ∧ (f a).Path zs r := by
  obtain ⟨ys, zs, r₁, rfl, hp, hk⟩ := andThen_inv h
  cases r₁ with
  | ok a => exact .inr ⟨ys, zs, a, rfl, hp, hk⟩
  | error e =>
      obtain ⟨rfl, rfl⟩ := settled_inv hk
      rw [List.append_nil]
      exact .inl ⟨e, hp, rfl⟩

/-- A sequence that resolves gets through both of its parts. -/
theorem bind_ok {f : α → Prog ε Val β} {b : β} (h : (p >>= f).Path xs (.ok b)) :
    ∃ ys zs a, xs = ys ++ zs ∧ p.Path ys (.ok a) ∧ (f a).Path zs (.ok b) := by
  rcases bind_inv h with ⟨e, -, he⟩ | hok
  · cases he
  · exact hok

theorem tryCatch_inv {handler : ε → Prog ε Val α} (h : (tryCatch p handler).Path xs r) :
    (∃ a, p.Path xs (.ok a) ∧ r = .ok a) ∨
      ∃ ys zs e, xs = ys ++ zs ∧ p.Path ys (.error e) ∧ (handler e).Path zs r := by
  obtain ⟨ys, zs, r₁, rfl, hp, hk⟩ := andThen_inv h
  cases r₁ with
  | ok a =>
      obtain ⟨rfl, rfl⟩ := settled_inv hk
      rw [List.append_nil]
      exact .inl ⟨a, hp, rfl⟩
  | error e => exact .inr ⟨ys, zs, e, rfl, hp, hk⟩

/-- A program settles whatever the answers. -/
theorem exists_given (p : Prog ε Val α) (answers : List (Exchange ε Val) → (op : Op) → Except ε (Val op)) :
    ∃ xs r, p.Path xs r ∧ Given answers xs := by
  induction p generalizing answers with
  | settled r => exact ⟨[], r, .settled r, trivial⟩
  | await op next ih =>
      obtain ⟨xs, r, hpath, hgiven⟩ :=
        ih (answers [] op) fun pre => answers ({ op, answer := answers [] op } :: pre)
      exact ⟨_, r, .await (answers [] op) hpath, rfl, hgiven⟩

/-! ## Calls -/

theorem calls {G : Op → Prop} (hp : p.Calls G) (h : p.Path xs r) : ∀ x ∈ xs, G x.op := by
  induction h with
  | settled r => exact fun x hx => absurd hx List.not_mem_nil
  | await a _ ih =>
      intro x hx
      rcases List.mem_cons.mp hx with rfl | hx
      · exact hp.1
      · exact ih (hp.2 a) x hx

/-! ## Runs -/

theorem of_trace {M : Machine ε Val W C} {w w' : W} {cs : List C} (h : M.trace p w cs = some (xs, r, w')) :
    p.Path xs r := by
  fun_induction Machine.trace M p w cs generalizing xs with
  | case1 r w => cases h; exact .settled _
  | case2 => cases h
  | case3 => cases h
  | case4 => cases h
  | case5 w op next c cs w₁ ha ih => exact ih h
  | case6 w op next c cs a w₁ ha ih =>
      obtain ⟨⟨xs', rw⟩, htrace, he⟩ := Option.map_eq_some_iff.mp h
      cases he
      exact .await a (ih htrace)

end Prog.Path

end Async
