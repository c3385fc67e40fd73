import GuardianshipAgency.Async.Lemmas.Ensures
import GuardianshipAgency.Async.Lemmas.Perform

/-!
# Programs that go on alike
-/

namespace Async

variable {ε Op : Type} {Val : Op → Type} {W C α β : Type}

/-- The same value, or errors related by `E`. -/
inductive Alike (E : ε → ε → Prop) : Except ε α → Except ε α → Prop where
  | ok (a) : Alike E (.ok a) (.ok a)
  | error {e e'} : E e e' → Alike E (.error e) (.error e')

/-- Both programs make the same calls, all of which satisfy `G`, as long as the answers are related by `A`, and settle
alike. -/
inductive Prog.Related (A : (op : Op) → Except ε (Val op) → Except ε (Val op) → Prop) (G : Op → Prop)
    (E : ε → ε → Prop) : Prog ε Val α → Prog ε Val α → Prop where
  | settled {r r'} : Alike E r r' → Related A G E (.settled r) (.settled r')
  | await {op next next'} : G op → (∀ r r', A op r r' → Related A G E (next r) (next' r')) →
      Related A G E (.await op next) (.await op next')

namespace Alike

variable {E E' : ε → ε → Prop} {r r' : Except ε α}

theorem refl (hE : ∀ e, E e e) (r : Except ε α) : Alike E r r := by
  cases r with
  | ok a => exact .ok a
  | error e => exact .error (hE e)

theorem mono (h : Alike E r r') (hE : ∀ e e', E e e' → E' e e') : Alike E' r r' := by
  cases h with
  | ok a => exact .ok a
  | error he => exact .error (hE _ _ he)

theorem eq (h : Alike Eq r r') : r = r' := by
  cases h with
  | ok a => rfl
  | error he => rw [he]

theorem isOk (h : Alike E r r') : r.isOk = r'.isOk := by
  cases h with
  | ok a => rfl
  | error _ => rfl

end Alike

/-! ## Rules -/

namespace Prog.Related

variable {A : (op : Op) → Except ε (Val op) → Except ε (Val op) → Prop} {G : Op → Prop} {E E' : ε → ε → Prop}
variable {p q : Prog ε Val α}

theorem mono (h : p.Related A G E q) (hE : ∀ e e', E e e' → E' e e') : p.Related A G E' q := by
  induction h with
  | settled hr => exact .settled (hr.mono hE)
  | await hop _ ih => exact .await hop ih

theorem andThen {k k' : Except ε α → Prog ε Val β} (h : p.Related A G E q)
    (hk : ∀ r r', Alike E r r' → (k r).Related A G E' (k' r')) : (p.andThen k).Related A G E' (q.andThen k') := by
  induction h with
  | settled hr => exact hk _ _ hr
  | await hop _ ih => exact .await hop ih

theorem bind {f f' : α → Prog ε Val β} (h : p.Related A G E q) (hf : ∀ a, (f a).Related A G E (f' a)) :
    (p >>= f).Related A G E (q >>= f') :=
  h.andThen fun _ _ hr => by
    cases hr with
    | ok a => exact hf a
    | error he => exact .settled (.error he)

theorem tryCatch {h h' : ε → Prog ε Val α} (hp : p.Related A G E q)
    (hh : ∀ e e', E e e' → (h e).Related A G E' (h' e')) :
    (tryCatch p h).Related A G E' (MonadExcept.tryCatch q h') :=
  hp.andThen fun _ _ hr => by
    cases hr with
    | ok a => exact .settled (.ok a)
    | error he => exact hh _ _ he

/-- A program is related to itself where answers are related only to themselves. -/
theorem of_calls (hE : ∀ e, E e e) (hp : p.Calls fun op => G op ∧ ∀ r r', A op r r' → r = r') : p.Related A G E p := by
  induction p with
  | settled r => exact .settled (.refl hE r)
  | await op next ih =>
      obtain ⟨⟨hop, hA⟩, hnext⟩ := hp
      refine .await hop fun r r' hr => ?_
      rw [hA r r' hr]
      exact ih r' (hnext r')

end Prog.Related

/-! ## Runs -/

section Agree

variable {M M' : Machine ε Val W C} {direct direct' : (op : Op) → W → Option (Val op × W)} {sim : W → W → Prop}
variable {A : (op : Op) → Except ε (Val op) → Except ε (Val op) → Prop} {G : Op → Prop} {E : ε → ε → Prop}

/-- In similar worlds the call is answered without the list on both sides, with related values, or it is answered from
the list on both sides, with the same answers. -/
def AnsweredAlike (M M' : Machine ε Val W C) (direct direct' : (op : Op) → W → Option (Val op × W))
    (sim : W → W → Prop) (A : (op : Op) → Except ε (Val op) → Except ε (Val op) → Prop) (op : Op) : Prop :=
  (∀ w v, sim w v → ∃ x w' y v', direct op w = some (x, w') ∧ direct' op v = some (y, v') ∧ A op (.ok x) (.ok y) ∧
    sim w' v') ∨
  ((∀ w, direct op w = none ∧ direct' op w = none) ∧
    ∀ c w v, sim w v → (M.answer op c w = none ∧ M'.answer op c v = none) ∨
      ∃ a w' v', M.answer op c w = some (a, w') ∧ M'.answer op c v = some (a, v') ∧ sim w' v')

theorem Prog.Related.agree (hA : ∀ op r, A op r r) (hG : ∀ op, G op → AnsweredAlike M M' direct direct' sim A op)
    {p q : Prog ε Val α} (h : p.Related A G E q) {w v : W} (hsim : sim w v) (cs : List C) :
    Agree (Alike E) sim (M.perform direct p w cs) (M'.perform direct' q v cs) := by
  induction h generalizing w v cs with
  | settled hr => exact .both hr hsim
  | @await op next next' hop _ ih =>
      rcases hG op hop with hdirect | ⟨hnone, hanswer⟩
      · obtain ⟨x, w', y, v', hw, hv, hxy, hsim'⟩ := hdirect w v hsim
        rw [Machine.perform_direct hw, Machine.perform_direct hv]
        exact ih _ _ hxy hsim' cs
      · rw [Machine.perform_ask (hnone w).1, Machine.perform_ask (hnone v).2]
        refine (ask_agree hanswer hsim cs).bind fun a b w' v' cs' hab hsim' => ?_
        subst hab
        exact ih a a (hA op a) hsim' cs'

end Agree

end Async
