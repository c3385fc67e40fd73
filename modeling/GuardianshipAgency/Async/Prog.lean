/-!
# Asynchronous programs

An asynchronous function runs synchronously up to its next awaited call, and resumes with the call's
result, which is a value or a rejection. The calls are names of type `Op`; what a call does is given by a
machine (`Async.Machine`).
-/

namespace Async

variable {ε Op : Type} {Val : Op → Type} {α β : Type}

/-- A program that has settled with a value or a rejection, or awaits a call. -/
inductive Prog (ε : Type) {Op : Type} (Val : Op → Type) (α : Type) where
  | settled (r : Except ε α)
  | await (op : Op) (next : Except ε (Val op) → Prog ε Val α)

namespace Prog

def andThen : Prog ε Val α → (Except ε α → Prog ε Val β) → Prog ε Val β
  | .settled r, k => k r
  | .await op next, k => .await op fun r => (next r).andThen k

/-- Sequencing. A rejection skips the rest. -/
def bind (p : Prog ε Val α) (f : α → Prog ε Val β) : Prog ε Val β :=
  p.andThen fun
    | .ok a => f a
    | .error e => .settled (.error e)

/-- `try ... catch`. The handler runs on a rejection of the body only. -/
def catchWith (p : Prog ε Val α) (h : ε → Prog ε Val α) : Prog ε Val α :=
  p.andThen fun
    | .ok a => .settled (.ok a)
    | .error e => h e

instance : Monad (Prog ε Val) where
  pure a := .settled (.ok a)
  bind := bind

instance : MonadExcept ε (Prog ε Val) where
  throw e := .settled (.error e)
  tryCatch := catchWith

def call (op : Op) : Prog ε Val (Val op) := .await op .settled

/-- A synchronous step that may throw. -/
def ofExcept (r : Except ε α) : Prog ε Val α := .settled r

/-! ## Equations -/

@[simp] theorem pure_eq (a : α) : (pure a : Prog ε Val α) = .settled (.ok a) := rfl

@[simp] theorem ofExcept_eq (r : Except ε α) : (ofExcept r : Prog ε Val α) = .settled r := rfl

@[simp] theorem settled_ok_bind (a : α) (f : α → Prog ε Val β) :
    (Prog.settled (.ok a) : Prog ε Val α) >>= f = f a := rfl

@[simp] theorem settled_error_bind (e : ε) (f : α → Prog ε Val β) :
    (Prog.settled (.error e) : Prog ε Val α) >>= f = .settled (.error e) := rfl

@[simp] theorem await_bind (op : Op) (next : Except ε (Val op) → Prog ε Val α) (f : α → Prog ε Val β) :
    Prog.await op next >>= f = .await op fun r => next r >>= f := rfl

@[simp] theorem call_bind (op : Op) (f : Val op → Prog ε Val β) :
    (call op : Prog ε Val _) >>= f = .await op fun r => .settled r >>= f := rfl

@[simp] theorem await_tryCatch (op : Op) (next : Except ε (Val op) → Prog ε Val α)
    (h : ε → Prog ε Val α) :
    tryCatch (Prog.await op next) h = .await op fun r => tryCatch (next r) h := rfl

/-- What follows a `try ... catch` follows the body and the handler alike. -/
theorem tryCatch_bind (p : Prog ε Val α) (h : ε → Prog ε Val α) (f : α → Prog ε Val β) :
    tryCatch p h >>= f = p.andThen fun
      | .ok a => f a
      | .error e => h e >>= f := by
  induction p with
  | settled r => cases r <;> rfl
  | await op next ih =>
      simp only [await_tryCatch, await_bind, andThen]
      congr 1
      funext r
      exact ih r

end Prog

end Async
