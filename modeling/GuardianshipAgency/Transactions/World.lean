import GuardianshipAgency.Async.Machine
import GuardianshipAgency.Transactions.Handlers

/-!
# The database and the deliveries

The table `agent_transactions` as the calls of the handlers change it, one atomic step a call, and the two ways to
handle deliveries: any number of them at once (`system`), or one after the other (`Delivered`).
-/

namespace GuardianshipAgency.Transactions

open Js Async

structure World where
  rows : List Row
  /-- The next value of the serial column `id`. -/
  nextId : Nat
  /-- The `send-message` requests issued so far, whatever became of them. -/
  sent : List SendMessage
  /-- The deliveries whose handler has begun. -/
  delivered : List Delivery

def World.empty : World := { rows := [], nextId := 1, sent := [], delivered := [] }

def maxMerkelOrder (rows : List Row) : Option Int := (rows.map Row.merkelOrder).max?

/-- The value of a column without `DEFAULT` for a field of the entity. -/
def column (v : Option Json) : Json := v.getD .null

/-- The row for an entity. The timestamps have the default `now()`, which `undefined` asks for. A column holds the JSON
value that is saved, where the table has the text or the time that the database makes of it. -/
def AgentTransaction.row (id : Nat) (now : Json) (r : AgentTransaction) : Row :=
  { id
    agentId := r.agentId
    fspId := column r.fspId
    transactionId := column r.transactionId
    merkelOrder := r.merkelOrder
    merkelHash := r.merkelHash
    eventDate := r.eventDate.getD now
    transactionDate := r.transactionDate.getD now
    issuerHash := column r.issuerHash
    credentialId := column r.credentialId
    typeId := column r.typeId
    subjectId := column r.subjectId
    amount := column r.amount
    transactionDetails := column r.transactionDetails }

/-- The `NOT NULL` columns and the range of `int`. That a text is too long for its column is one of the failures
that may happen to any call. -/
def AgentTransaction.insertable (r : AgentTransaction) : Bool :=
  column r.fspId != .null && column r.transactionId != .null && column r.issuerHash != .null &&
    decide (r.merkelOrder ≤ 2147483647)

def World.insert (w : World) (now : Json) (r : AgentTransaction) : World :=
  { w with rows := w.rows ++ [r.row w.nextId now], nextId := w.nextId + 1 }

def World.issue (w : World) (m : SendMessage) : World := { w with sent := w.sent ++ [m] }

/-- How the database and the network treat one call. -/
inductive Choice where
  | ok
  /-- The rows found, in the order in which the database returns them. -/
  | found (rows : List Row)
  | committed (now : Json)
  /-- The row is committed, but the call rejects. -/
  | committedThenFailed (now : Json) (e : JsError)
  | failed (e : JsError)
  /-- A request without an answer, which `requestWithRetry` sends again. -/
  | lost

def answer (op : Op) (ch : Choice) (w : World) : Option (Option (Except JsError op.Val) × World) :=
  match op, ch with
  | .getMaxMerkelOrder, .ok => some (some (.ok (maxMerkelOrder w.rows)), w)
  | .getMaxMerkelOrder, .failed e => some (some (.error e), w)
  | .saveTransaction r, .committed now =>
      if r.insertable then some (some (.ok ()), w.insert now r) else none
  | .saveTransaction r, .committedThenFailed now e =>
      if r.insertable then some (some (.error e), w.insert now r) else none
  | .saveTransaction _, .failed e => some (some (.error e), w)
  | .getAllTransactions agentId, .found rows =>
      if rows.Perm (w.rows.filter fun row => row.agentId == agentId) then some (some (.ok rows), w) else none
  | .getAllTransactions _, .failed e => some (some (.error e), w)
  | .sendMessage m, .ok => some (some (.ok ()), w.issue m)
  | .sendMessage m, .failed e => some (some (.error e), w.issue m)
  | .sendMessage m, .lost => some (none, w.issue m)
  | _, _ => none

def machine : Machine JsError Op.Val World Choice := { answer }

variable (hash32 : Option Json → Except JsError String)

def system : System JsError Op.Val World Choice Delivery Empty Unit :=
  { machine with
    body := basicMessageHandler hash32
    arrive := fun d w => { w with delivered := w.delivered ++ [d] }
    env := fun e _ => e.elim }

/-- `Delivered w ds w'`: the deliveries `ds`, each handled to its end before the next, lead from `w` to `w'`. -/
inductive Delivered : World → List Delivery → World → Prop where
  | nil {w} : Delivered w [] w
  | cons {w d r w₁ ds w'} :
      machine.Exec (basicMessageHandler hash32 d) { w with delivered := w.delivered ++ [d] } r w₁ →
      Delivered w₁ ds w' → Delivered w (d :: ds) w'

/-- Handles deliveries one after the other, each with the choices that are made for its calls. -/
def handleAll : World → List (Delivery × List Choice) → Option World
  | w, [] => some w
  | w, (d, cs) :: rest =>
      (machine.play (basicMessageHandler hash32 d) { w with delivered := w.delivered ++ [d] } cs).bind fun rw =>
        handleAll rw.2 rest

end GuardianshipAgency.Transactions
