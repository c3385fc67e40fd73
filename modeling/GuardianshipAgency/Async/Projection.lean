import GuardianshipAgency.Async.Ensures

/-!
# Runs with calls left out

`System.project` leaves calls out of a run and numbers the others anew. What a call that is left out does to time and
the like is left to the surroundings.
-/

namespace Async

variable {ε Op : Type} {Val : Op → Type} {W C Call Env Reply : Type}

/-- What stays in a run. `instead` is what the surroundings do in place of an answer to a call left out. -/
structure Cut (Op C Call Env : Type) where
  keeps : Call → Bool
  keepsEnv : Env → Bool
  instead : Op → C → Option Env

namespace System

variable (S : System ε Val W C Call Env Reply) (cut : Cut Op C Call Env)

/-- What stays of a step from `c`. -/
def projectStep (cut : Cut Op C Call Env) (c : Config ε Val W Call Reply) :
    Label C Call Env → List (Label C Call Env)
  | .begin k => if cut.keeps k then [.begin k] else []
  | .answer i ch =>
      match c.threads[i]? with
      | none => []
      | some th =>
          if cut.keeps th.call then
            [.answer ((c.threads.take i).countP fun th => cut.keeps th.call) ch]
          else
            match th.prog with
            | .settled _ => []
            | .await op _ => (cut.instead op ch).toList.map .env
  | .env e => if cut.keepsEnv e then [.env e] else []

/-- What stays of the run of `ls` from `c`. -/
def project : Config ε Val W Call Reply → List (Label C Call Env) → List (Label C Call Env)
  | _, [] => []
  | c, l :: ls =>
      match S.step c l with
      | none => []
      | some c' => projectStep cut c l ++ project c' ls

/-- The surroundings make the move, if there is one, and begin no call. -/
def Moves (w : W) : Option Env → W → Prop
  | none, w' => w' = w
  | some e, w' => S.env e w = some (w', [])

end System

/-- What is to be proved of a cut: what stays goes on alike in similar worlds, and the rest keeps them similar. -/
structure Cut.Sound (S : System ε Val W C Call Env Reply) (cut : Cut Op C Call Env) (allowed : Call → Prop)
    (makes : Call → Op → Prop) (sim : W → W → Prop) : Prop where
  body : ∀ k, allowed k → (S.body k).Calls (makes k)
  arrive : ∀ k w v, allowed k → sim w v → sim (S.arrive k w) (if cut.keeps k then S.arrive k v else v)
  answer : ∀ k op ch w a w' v, allowed k → cut.keeps k = true → makes k op → sim w v →
    S.answer op ch w = some (a, w') → ∃ v', S.answer op ch v = some (a, v') ∧ sim w' v'
  leaves : ∀ k op ch w a w' v, allowed k → cut.keeps k = false → makes k op → sim w v →
    S.answer op ch w = some (a, w') → ∃ v', S.Moves v (cut.instead op ch) v' ∧ sim w' v'
  env : ∀ e w w' ks v, sim w v → S.env e w = some (w', ks) →
    (∀ k ∈ ks, allowed k ∧ cut.keeps k = cut.keepsEnv e) ∧
      ∃ v', (if cut.keepsEnv e then S.env e v = some (v', ks) else v' = v) ∧ sim w' v'

def Thread.state (th : Thread ε Val W Call Reply) : Call × Prog ε Val Reply := (th.call, th.prog)

/-- The calls under way in `d` are those in `c` that stay, each as far as there. -/
def Config.KeptAlike (cut : Cut Op C Call Env) (c d : Config ε Val W Call Reply) : Prop :=
  d.threads.map Thread.state = (c.threads.filter fun th => cut.keeps th.call).map Thread.state

structure Config.Matches (cut : Cut Op C Call Env) (allowed : Call → Prop) (makes : Call → Op → Prop)
    (sim : W → W → Prop) (c d : Config ε Val W Call Reply) : Prop where
  world : sim c.world d.world
  threads : c.KeptAlike cut d
  ok : ∀ th ∈ c.threads, allowed th.call ∧ th.prog.Calls (makes th.call)

end Async
