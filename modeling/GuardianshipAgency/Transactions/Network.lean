import GuardianshipAgency.Transactions.Handlers

/-!
# Agencies that answer each other

Any number of agents whose basic messages are all handled by `basicMessageHandler`, with the messages in flight among
them. The databases are not part of the state: any answer may come to any call.
-/

namespace GuardianshipAgency.Transactions

open Js Async

/-- A handler under way. `posted` says whether the request that it awaits has put its message in flight. -/
structure Runner where
  prog : Prog JsError Op.Val Unit
  posted : Bool := false

/-- `replies` are the messages that handlers have put in flight so far. -/
structure Network where
  flight : List Delivery
  runners : List Runner
  replies : List Delivery

def Network.init (flight : List Delivery) : Network := { flight, runners := [], replies := [] }

/-- What happens next: a message in flight is delivered, a handler's request puts its message in flight as `d`, which
reaches whatever agent has the other end of the connection, or a handler's call is answered. -/
inductive Move where
  | deliver (k : ℕ)
  | post (i : ℕ) (d : Delivery)
  | answer (i : ℕ) (r : (op : Op) → Except JsError op.Val)

section

variable (hash32 : Option Json → Except JsError String) (text : ReplyMessage → String)

/-- `text` is the JSON text of a message, which the peer receives as the content. -/
def Network.step (n : Network) : Move → Option Network
  | .deliver k =>
      match n.flight[k]? with
      | some d =>
          some { n with
            flight := n.flight.eraseIdx k
            runners := n.runners ++ [{ prog := basicMessageHandler hash32 d }] }
      | none => none
  | .post i d =>
      match n.runners[i]? with
      | some { prog := .await (.sendMessage m) next, posted := false } =>
          if d.content = text m.msg then
            some { n with
              flight := n.flight ++ [d]
              runners := n.runners.set i { prog := .await (.sendMessage m) next, posted := true }
              replies := n.replies ++ [d] }
          else none
      | _ => none
  | .answer i r =>
      match n.runners[i]? with
      | some { prog := .await op next, posted := _ } =>
          some { n with runners := n.runners.set i { prog := next (r op) } }
      | _ => none

def Network.run : Network → List Move → Option Network
  | n, [] => some n
  | n, move :: moves => (n.step hash32 text move).bind fun n' => Network.run n' moves

end

def ReplyMessage.state : ReplyMessage → TransactionMessageStatesEnum
  | .creditTransaction state _ _ => state
  | .transactionReportRequest state _ _ _ => state

/-- The text of a message reads as a message in the same state. -/
def KeepsState (text : ReplyMessage → String) : Prop :=
  ∀ msg data, Json.parse (text msg) = .ok data → Json.field (some data) "state" = some (.str msg.state.text)

/-- The content is a message in state `started`. -/
def Delivery.isStarted (d : Delivery) : Bool :=
  match Json.parse d.content with
  | .ok data => isString (Json.field (some data) "state") TransactionMessageStatesEnum.started.text
  | .error _ => false

end GuardianshipAgency.Transactions
