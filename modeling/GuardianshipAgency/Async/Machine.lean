import GuardianshipAgency.Async.Prog

/-!
# Machines and systems of calls

A machine answers the awaited calls of a program, one atomic step each. `Machine.Exec` runs one program alone,
`System` runs any number of programs side by side, one awaited call at a time.
-/

namespace Async

/-- Answers awaited calls in a world `W`. `C` is what the surroundings choose. `answer op c w` is `none` where
`c` cannot happen; the first component of its value is `none` where the call took place, its answer was lost and
it is sent again. -/
structure Machine (ε : Type) {Op : Type} (Val : Op → Type) (W C : Type) where
  answer : (op : Op) → C → W → Option (Option (Except ε (Val op)) × W)

/-- `M.Exec p w r w'`: run alone in `w`, the program `p` settles with `r` and leaves `w'`. -/
inductive Machine.Exec {ε Op : Type} {Val : Op → Type} {W C α : Type} (M : Machine ε Val W C) :
    Prog ε Val α → W → Except ε α → W → Prop where
  | settled {r w} : M.Exec (.settled r) w r w
  | answered {op next c w a w₁ r w'} :
      M.answer op c w = some (some a, w₁) → M.Exec (next a) w₁ r w' → M.Exec (.await op next) w r w'
  | retried {op next c w w₁ r w'} :
      M.answer op c w = some (none, w₁) → M.Exec (.await op next) w₁ r w' → M.Exec (.await op next) w r w'

/-- Runs a program alone with the given choices. -/
def Machine.play {ε Op : Type} {Val : Op → Type} {W C α : Type} (M : Machine ε Val W C) :
    Prog ε Val α → W → List C → Option (Except ε α × W)
  | .settled r, w, [] => some (r, w)
  | .settled _, _, _ :: _ => none
  | .await _ _, _, [] => none
  | .await op next, w, c :: cs =>
      match M.answer op c w with
      | none => none
      | some (none, w₁) => M.play (.await op next) w₁ cs
      | some (some a, w₁) => M.play (next a) w₁ cs

/-- A machine together with the calls that may be made of it from outside. `arrive` records a call when it
begins, `env` is a step of the surroundings, which may begin calls of its own. -/
structure System (ε : Type) {Op : Type} (Val : Op → Type) (W C Call Env Reply : Type)
    extends Machine ε Val W C where
  body : Call → Prog ε Val Reply
  arrive : Call → W → W := fun _ w => w
  env : Env → W → Option (W × List Call)

/-- A call under way, with the world when it began and the world when it last resumed. -/
structure Thread (ε : Type) {Op : Type} (Val : Op → Type) (W Call Reply : Type) where
  call : Call
  began : W
  resumed : W
  prog : Prog ε Val Reply

/-- The world and all calls so far, in the order in which they began. -/
structure Config (ε : Type) {Op : Type} (Val : Op → Type) (W Call Reply : Type) where
  world : W
  threads : List (Thread ε Val W Call Reply)

/-- What happens next: a call begins, the call number `i` gets an answer, or the surroundings move. -/
inductive Label (C Call Env : Type) where
  | begin (k : Call)
  | answer (i : Nat) (c : C)
  | env (e : Env)

namespace System

variable {ε Op : Type} {Val : Op → Type} {W C Call Env Reply : Type}
variable (S : System ε Val W C Call Env Reply)

def start (w : W) (k : Call) : Thread ε Val W Call Reply :=
  { call := k, began := w, resumed := w, prog := S.body k }

def beginAll : Config ε Val W Call Reply → List Call → Config ε Val W Call Reply
  | c, [] => c
  | c, k :: ks =>
      let w := S.arrive k c.world
      beginAll { world := w, threads := c.threads ++ [S.start w k] } ks

def step (c : Config ε Val W Call Reply) : Label C Call Env → Option (Config ε Val W Call Reply)
  | .begin k => some (S.beginAll c [k])
  | .answer i ch =>
      match c.threads[i]? with
      | none => none
      | some th =>
          match th.prog with
          | .settled _ => none
          | .await op next =>
              match S.answer op ch c.world with
              | none => none
              | some (none, w) => some { c with world := w }
              | some (some a, w) =>
                  some { world := w, threads := c.threads.set i { th with resumed := w, prog := next a } }
  | .env e =>
      match S.env e c.world with
      | none => none
      | some (w, ks) => some (S.beginAll { c with world := w } ks)

def run : Config ε Val W Call Reply → List (Label C Call Env) → Option (Config ε Val W Call Reply)
  | c, [] => some c
  | c, l :: ls => (S.step c l).bind fun c' => run c' ls

/-- Every step of the run of `ls` from `c` satisfies `P`. -/
def Along (P : Config ε Val W Call Reply → Label C Call Env → Prop) :
    Config ε Val W Call Reply → List (Label C Call Env) → Prop
  | _, [] => True
  | c, l :: ls => P c l ∧ ∀ c', S.step c l = some c' → Along P c' ls

end System

def Config.init {ε Op : Type} {Val : Op → Type} {W Call Reply : Type} (w : W) : Config ε Val W Call Reply :=
  { world := w, threads := [] }

end Async
