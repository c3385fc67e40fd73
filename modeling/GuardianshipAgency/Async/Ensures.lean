import GuardianshipAgency.Async.Machine

/-!
# Rely and guarantee

`Machine.Ensures` says what a program does among others: whatever the others do between its awaited calls
(within `Rely`), each call it makes is one it may make, each answer keeps the invariant, and the result satisfies
the postcondition. `System.Sound` collects what is to be proved of the calls of a system one by one;
`Lemmas/Pool` derives what holds of every run.
-/

namespace Async

variable {ε Op : Type} {Val : Op → Type} {W C α : Type}

/-- The worlds a program can meet satisfy `inv`, and between two of its steps they change along `rel`. -/
structure Rely (W : Type) where
  inv : W → Prop
  rel : W → W → Prop
  refl : ∀ w, rel w w
  trans : ∀ {w₁ w₂ w₃}, rel w₁ w₂ → rel w₂ w₃ → rel w₁ w₃

/-- The terms on which one call runs. Both components see the world in which the program last resumed and the
present world. `guard` holds of each call the program makes, `assume` restricts the answers considered. -/
structure Terms (W Op C : Type) where
  guard : W → W → Op → Prop := fun _ _ _ => True
  assume : W → W → Op → C → Prop := fun _ _ _ _ => True

/-- From a world `w` in which it has just resumed, the program keeps to the terms `T`, and settles in worlds that
satisfy `Q`. -/
def Machine.Ensures (M : Machine ε Val W C) (P : Rely W) (T : Terms W Op C) :
    Prog ε Val α → (Except ε α → W → Prop) → W → Prop
  | .settled r, Q, w => ∀ w', P.rel w w' → P.inv w' → Q r w'
  | .await op next, Q, w => ∀ w', P.rel w w' → P.inv w' →
      T.guard w w' op ∧ ∀ c a w'', T.assume w w' op c → M.answer op c w' = some (a, w'') →
        (P.inv w'' ∧ P.rel w' w'') ∧ ∀ r, a = some r → M.Ensures P T (next r) Q w''

/-- Every call that the program can make, whatever the answers, satisfies `G`. -/
def Prog.Calls (G : Op → Prop) : Prog ε Val α → Prop
  | .settled _ => True
  | .await op next => G op ∧ ∀ r, (next r).Calls G

/-- Every call that the program can make satisfies `G` as long as the answers satisfy `A`. -/
def Prog.CallsIf (A : (op : Op) → Except ε (Val op) → Prop) (G : Op → Prop) : Prog ε Val α → Prop
  | .settled _ => True
  | .await op next => G op ∧ ∀ r, A op r → (next r).CallsIf A G

/-- The program gets to `q` by some answers to its calls. -/
inductive Prog.Reaches : Prog ε Val α → Prog ε Val α → Prop where
  | refl (p) : Prog.Reaches p p
  | answered {op next r q} : Prog.Reaches (next r) q → Prog.Reaches (.await op next) q

section System

variable {Call Env Reply : Type} (S : System ε Val W C Call Env Reply) (P : Rely W)
variable (allowed : Call → Prop) (T : Call → W → Terms W Op C) (Q : Call → W → Except ε Reply → W → Prop)

/-- The proof obligations of a system, call by call. The terms and the postcondition of a call may mention the
world in which it began. -/
structure System.Sound : Prop where
  arrive : ∀ k w, allowed k → P.inv w → P.inv (S.arrive k w) ∧ P.rel w (S.arrive k w)
  body : ∀ k w, allowed k → P.inv w → P.inv (S.arrive k w) →
    S.Ensures P (T k (S.arrive k w)) (S.body k) (Q k (S.arrive k w)) (S.arrive k w)
  env : ∀ e w w' ks, P.inv w → S.env e w = some (w', ks) →
    P.inv w' ∧ P.rel w w' ∧ ∀ k ∈ ks, allowed k

/-- The step keeps to the assumptions: only allowed calls begin, and answers satisfy `assume`. -/
def Config.StepOk (c : Config ε Val W Call Reply) : Label C Call Env → Prop
  | .begin k => allowed k
  | .answer i ch => ∀ th op next, c.threads[i]? = some th → th.prog = .await op next →
      (T th.call th.began).assume th.resumed c.world op ch
  | .env _ => True

structure Thread.Ok (S : System ε Val W C Call Env Reply) (P : Rely W)
    (allowed : Call → Prop) (T : Call → W → Terms W Op C) (Q : Call → W → Except ε Reply → W → Prop)
    (w : W) (th : Thread ε Val W Call Reply) : Prop where
  allowed : allowed th.call
  began : P.rel th.began th.resumed
  resumed : P.rel th.resumed w
  ensures : S.Ensures P (T th.call th.began) th.prog (Q th.call th.began) th.resumed

structure Config.Ok (S : System ε Val W C Call Env Reply) (P : Rely W)
    (allowed : Call → Prop) (T : Call → W → Terms W Op C) (Q : Call → W → Except ε Reply → W → Prop)
    (c : Config ε Val W Call Reply) : Prop where
  inv : P.inv c.world
  threads : ∀ th ∈ c.threads, th.Ok S P allowed T Q c.world

end System

end Async
