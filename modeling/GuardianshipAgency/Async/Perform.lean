import GuardianshipAgency.Async.Machine

/-!
# Runs with given answers

`Machine.perform` runs a program alone with answers from a list. Some calls are answered without the list, so that
programs that differ only in these can be run with the same list.
-/

namespace Async

variable {ε Op : Type} {Val : Op → Type} {W C Call Env Reply α : Type}

/-- A call is sent until it gets an answer. -/
def Machine.ask (M : Machine ε Val W C) (op : Op) : W → List C → Option (Except ε (Val op) × W × List C)
  | _, [] => none
  | w, c :: cs =>
      match M.answer op c w with
      | none => none
      | some (none, w') => M.ask op w' cs
      | some (some r, w') => some (r, w', cs)

/-- Runs a program alone. What is left of the list comes with the result. -/
def Machine.perform (M : Machine ε Val W C) (direct : (op : Op) → W → Option (Val op × W)) :
    Prog ε Val α → W → List C → Option (Except ε α × W × List C)
  | .settled r, w, cs => some (r, w, cs)
  | .await op next, w, cs =>
      match direct op w with
      | some (v, w') => M.perform direct (next (.ok v)) w' cs
      | none => (M.ask op w cs).bind fun x => M.perform direct (next x.1) x.2.1 x.2.2

/-- What happens next where calls run one after the other. -/
inductive Item (Call Env : Type) where
  | call (k : Call)
  | env (e : Env)

namespace System

variable (S : System ε Val W C Call Env Reply) (direct : (op : Op) → W → Option (Val op × W))

def performCalls : List Call → W → List C → Option (List (Except ε Reply) × W × List C)
  | [], w, cs => some ([], w, cs)
  | k :: ks, w, cs => (S.perform direct (S.body k) (S.arrive k w) cs).bind fun x =>
      (performCalls ks x.2.1 x.2.2).map fun y => (x.1 :: y.1, y.2)

def performItem : Item Call Env → W → List C → Option (List (Except ε Reply) × W × List C)
  | .call k, w, cs => S.performCalls direct [k] w cs
  | .env e, w, cs => (S.env e w).bind fun x => S.performCalls direct x.2 x.1 cs

/-- The results of all calls, in their order. -/
def performRun : List (Item Call Env) → W → List C → Option (List (Except ε Reply) × W × List C)
  | [], w, cs => some ([], w, cs)
  | i :: is, w, cs => (S.performItem direct i w cs).bind fun x =>
      (performRun is x.2.1 x.2.2).map fun y => (x.1 ++ y.1, y.2)

/-- Every item of the run satisfies `P` where it comes up. -/
def EachItem (P : Item Call Env → W → List C → Prop) : List (Item Call Env) → W → List C → Prop
  | [], _, _ => True
  | i :: is, w, cs => P i w cs ∧ ∀ x, S.performItem direct i w cs = some x → EachItem P is x.2.1 x.2.2

end System

/-! ## Agreement -/

/-- Both have no answer to go on with, or both get to results related by `R` in similar worlds, with the same answers
left. -/
inductive Agree {A B V : Type} (R : A → B → Prop) (sim : W → V → Prop) :
    Option (A × W × List C) → Option (B × V × List C) → Prop where
  | stuck : Agree R sim none none
  | both {a b w v cs} : R a b → sim w v → Agree R sim (some (a, w, cs)) (some (b, v, cs))

end Async
