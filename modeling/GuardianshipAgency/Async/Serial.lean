import GuardianshipAgency.Async.Machine

/-!
# Calls made one after the other

`System.Takes` is one turn: a call runs alone until it settles, or the surroundings move and the calls that they
begin run alone. `System.History` is a run of turns, and `System.replay` computes one.
-/

namespace Async

inductive Turn (ε Call Env Reply : Type) where
  | call (k : Call) (r : Except ε Reply)
  | env (e : Env)

structure Moment (ε W Call Env Reply : Type) where
  turn : Turn ε Call Env Reply
  before : W
  after : W

/-- Every element satisfies `P`, which may look at those before it. -/
def Throughout {M : Type} (P : List M → M → Prop) (ms : List M) : Prop :=
  ∀ pre m post, ms = pre ++ m :: post → P pre m

namespace System

variable {ε Op : Type} {Val : Op → Type} {W C Call Env Reply : Type}
variable (S : System ε Val W C Call Env Reply)

inductive Serial : W → List Call → W → Prop where
  | nil {w} : Serial w [] w
  | cons {w k r w₁ ks w'} : S.Exec (S.body k) (S.arrive k w) r w₁ → Serial w₁ ks w' → Serial w (k :: ks) w'

inductive Takes : Turn ε Call Env Reply → W → W → Prop where
  | call {k r w w'} : S.Exec (S.body k) (S.arrive k w) r w' → Takes (.call k r) w w'
  | env {e w w₁ ks w'} : S.env e w = some (w₁, ks) → S.Serial w₁ ks w' → Takes (.env e) w w'

inductive History (w₀ : W) : List (Moment ε W Call Env Reply) → W → Prop where
  | nil : History w₀ [] w₀
  | snoc {ms w turn w'} : History w₀ ms w → S.Takes turn w w' →
      History w₀ (ms ++ [{ turn, before := w, after := w' }]) w'

/-! ## Replays -/

inductive Script (C Call Env : Type) where
  | call (k : Call) (cs : List C)
  | env (e : Env) (css : List (List C))

def replayAll : W → List Call → List (List C) → Option W
  | w, [], [] => some w
  | w, k :: ks, cs :: css => (S.play (S.body k) (S.arrive k w) cs).bind fun rw => replayAll rw.2 ks css
  | _, _, _ => none

def replayTurn (w : W) : Script C Call Env → Option (Turn ε Call Env Reply × W)
  | .call k cs => (S.play (S.body k) (S.arrive k w) cs).map fun rw => (.call k rw.1, rw.2)
  | .env e css => (S.env e w).bind fun wks => (S.replayAll wks.1 wks.2 css).map fun w' => (.env e, w')

/-- Continues a history. -/
def replay (ms : List (Moment ε W Call Env Reply)) (w : W) :
    List (Script C Call Env) → Option (List (Moment ε W Call Env Reply) × W)
  | [] => some (ms, w)
  | s :: ss => (S.replayTurn w s).bind fun tw =>
      replay (ms ++ [{ turn := tw.1, before := w, after := tw.2 }]) tw.2 ss

end System

end Async
