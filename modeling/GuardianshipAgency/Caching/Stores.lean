import GuardianshipAgency.Async.Related
import GuardianshipAgency.Lifecycle.Lemmas.Failures

/-!
# The two cache stores

The agency with the file system store and with the redis store.
-/

namespace GuardianshipAgency.Caching

open Js Async Expiring Agency Lifecycle

def fsStore (env : Env) : Env := { env with redisEnabled := false }

def redisStore (env : Env) : Env := { env with redisEnabled := true }

/-- Operations of the cache succeed at once. -/
def cacheOp (env : Env) (op : Op) (w : World) : Option (op.Val × World) :=
  if ofCache op then effect env op .plain w else none

/-- The worlds are the same but for entries that can no longer be read. -/
structure SameContent (w v : World) : Prop where
  frame : v = { w with cache := v.cache }
  lookup : ∀ t : WithTop ℚ, w.now ≤ t → ∀ key, v.cache.lookup t key = w.cache.lookup t key

/-- Run with the same answers `p` with the file system store and `q` with the redis store agree. -/
def StoresAgree {α : Type} (env : Env) (R : Except JsError α → Except JsError α → Prop) (p q : Prog JsError Op.Val α)
    (w v : World) (cs : List Choice) : Prop :=
  Agree R SameContent ((machine (fsStore env)).perform (cacheOp (fsStore env)) p w cs)
    ((machine (redisStore env)).perform (cacheOp (redisStore env)) q v cs)

/-- A run of calls one after the other, with the results of all calls. -/
def runWith (env : Env) (is : List (Item Call Event)) (w : World) (cs : List Choice) :
    Option (List (Except JsError Reply) × World × List Choice) :=
  (system env).performRun (cacheOp env) is w cs

/-- A spin-up whose `startAgent` fails finds an entry of the agent, or the store drops an entry with its ttl. -/
def Startable (env : Env) : Item Call Event → World → List Choice → Prop
  | .call (.spinUpAgent agentDto), w, cs =>
      ∀ e w' cs', (machine env).perform (cacheOp env)
          (AgentManagerService.startAgent env (AgentConfig.new env agentDto)) w cs = some (.error e, w', cs') →
        (w.lookup agentDto.agentId).isSome = true ∨ env.Drops (AgentConfig.new env agentDto).ttl
  | _, _, _ => True

/-- A call that throws an error of its own where there is no entry finds one. -/
def Known : Item Call Event → World → Prop
  | .call (.handleRequest agentId _ _ _), w | .call (.createAgentConnection agentId), w
  | .call (.registerWithTDC agentId _), w => (w.lookup agentId).isSome = true
  | _, _ => True

end GuardianshipAgency.Caching
