import GuardianshipAgency.Async.Prog
import GuardianshipAgency.Js.Json

/-!
# Basic messages of the transaction protocol

`TransactionService.basicMessageHandler` and the message handlers it dispatches to. Entities, messages and awaited
calls first, then the functions in the order in which they call each other, innermost first. Log lines are left
out where evaluating their arguments cannot throw.
-/

namespace GuardianshipAgency.Transactions

open Js Async

/-! ## Entities -/

/-- The entity as a handler fills it in. A field that was never set is `undefined`. -/
structure AgentTransaction where
  agentId : String
  fspId : Option Json
  transactionId : Option Json
  merkelOrder : Int
  merkelHash : String
  eventDate : Option Json
  transactionDate : Option Json
  issuerHash : Option Json
  credentialId : Option Json
  typeId : Option Json
  subjectId : Option Json
  amount : Option Json
  transactionDetails : Option Json
deriving DecidableEq

/-- A row of `agent_transactions`. `Json.null` is `NULL`. -/
structure Row where
  id : Nat
  agentId : String
  fspId : Json
  transactionId : Json
  merkelOrder : Int
  merkelHash : String
  eventDate : Json
  transactionDate : Json
  issuerHash : Json
  credentialId : Json
  typeId : Json
  subjectId : Json
  amount : Json
  transactionDetails : Json
deriving DecidableEq

structure TxReportResponseDto where
  order : Int
  transactionId : Json
  typeId : Json
  subjectId : Json
  txDate : Json
  amount : Json
  credentialId : Json
  hash : Json
  details : Json
deriving DecidableEq

/-! ## Messages -/

inductive TransactionMessageStatesEnum where
  | accepted
  | completed
  | started
deriving DecidableEq

def TransactionMessageStatesEnum.text : TransactionMessageStatesEnum → String
  | .accepted => "accepted"
  | .completed => "completed"
  | .started => "started"

inductive TransactionMessageTypesEnum where
  | creditTransaction
  | grant
  | transactionRequest
deriving DecidableEq

def TransactionMessageTypesEnum.text : TransactionMessageTypesEnum → String
  | .creditTransaction => "credit_transaction"
  | .grant => "grant"
  | .transactionRequest => "transaction_request"

/-- The field `transactions` of a report message: the empty string, or the text of a list of records. -/
inductive ReportData where
  | empty
  | records (recs : List TxReportResponseDto)
deriving DecidableEq

inductive ReplyMessage where
  | creditTransaction (state : TransactionMessageStatesEnum) (id : Option Json) (transaction : Option Json)
  | transactionReportRequest (state : TransactionMessageStatesEnum) (id : Option Json)
      (tdcFspId : Option Json) (transactions : ReportData)
deriving DecidableEq

structure SendMessage where
  agentId : String
  adminApiKey : String
  connectionId : String
  msg : ReplyMessage
deriving DecidableEq

def SendMessage.baseUrl (agentAdminPort : String) (m : SendMessage) : String :=
  "http://" ++ m.agentId ++ ":" ++ agentAdminPort

def SendMessage.url (agentAdminPort : String) (m : SendMessage) : String :=
  m.baseUrl agentAdminPort ++ "/connections/" ++ m.connectionId ++ "/send-message"

/-! ## Awaited calls -/

inductive Op where
  | getMaxMerkelOrder
  | saveTransaction (record : AgentTransaction)
  | getAllTransactions (agentId : String)
  | sendMessage (m : SendMessage)

/-- `SELECT MAX` on an empty table gives `NULL`, which `isNaN` does not catch: `getMaxMerkelOrder` returns it. -/
abbrev Op.Val : Op → Type
  | .getMaxMerkelOrder => Option Int
  | .saveTransaction _ => Unit
  | .getAllTransactions _ => List Row
  | .sendMessage _ => Unit

/-! ## Handlers -/

structure HandlerContext where
  agentId : String
  adminApiKey : String
  connectionId : String

def isString (v : Option Json) (s : String) : Bool := v == some (.str s)

section Handlers

variable (hash32 : Option Json → Except JsError String)

/-- `null + 1` is 1. -/
def nextOrder (maxMerkleOrder : Option Int) : Int := maxMerkleOrder.getD 0 + 1

/-- The record of a started transaction. The fields are read in the order of the source, and the first read of
`message.transaction` throws where there is none. -/
def TransactionMessageHandler.record (ctx : HandlerContext) (message : Option Json)
    (maxMerkleOrder : Option Int) : Except JsError AgentTransaction := do
  let transactionId ← Json.prop message "id"
  let transaction ← Json.prop message "transaction"
  let eventDate ← Json.prop transaction "eventDate"
  let issuerHash ← Json.prop transaction "fspHash"
  let fspId ← Json.prop transaction "fspId"
  let merkelHash ← hash32 issuerHash
  let credentialId ← Json.prop message "credentialId"
  let transactionDate ← Json.prop transaction "date"
  let typeId ← Json.prop transaction "typeId"
  let subjectId ← Json.prop transaction "subjectId"
  let amount ← Json.prop transaction "amount"
  let transactionDetails ← Json.prop transaction "eventJson"
  return { agentId := ctx.agentId, transactionId, eventDate, issuerHash, fspId,
           merkelOrder := nextOrder maxMerkleOrder, merkelHash, credentialId, transactionDate, typeId,
           subjectId, amount, transactionDetails }

def TransactionMessageHandler.sendTransactionMessage (ctx : HandlerContext)
    (state : TransactionMessageStatesEnum) (id eventJson : Option Json) : Prog JsError Op.Val Unit :=
  Prog.call (Op.sendMessage
    { agentId := ctx.agentId, adminApiKey := ctx.adminApiKey, connectionId := ctx.connectionId,
      msg := .creditTransaction state id eventJson })

def TransactionMessageHandler.respond (ctx : HandlerContext) (message : Option Json) :
    Prog JsError Op.Val Bool := do
  let state ← Prog.ofExcept (Json.prop message "state")
  if isString state TransactionMessageStatesEnum.started.text then
    let maxMerkleOrder ← Prog.call Op.getMaxMerkelOrder
    let record ← Prog.ofExcept (TransactionMessageHandler.record hash32 ctx message maxMerkleOrder)
    Prog.call (Op.saveTransaction record)
    let id ← Prog.ofExcept (Json.prop message "id")
    let transaction ← Prog.ofExcept (Json.prop message "transaction")
    TransactionMessageHandler.sendTransactionMessage ctx .accepted id transaction
    return false
  else if isString state TransactionMessageStatesEnum.completed.text then
    let id ← Prog.ofExcept (Json.prop message "id")
    Prog.ofExcept (Json.template id)
    return false
  else
    return false

def ReportMessageHandler.reportRec (record : Row) : TxReportResponseDto :=
  { order := record.merkelOrder
    transactionId := record.transactionId
    typeId := record.typeId
    subjectId := record.subjectId
    txDate := record.transactionDate
    amount := record.amount
    credentialId := record.credentialId
    hash := record.issuerHash
    details := record.transactionDetails }

def ReportMessageHandler.sendTransactionReportMessage (ctx : HandlerContext)
    (state : TransactionMessageStatesEnum) (id tdcFspId : Option Json) (reportData : ReportData) :
    Prog JsError Op.Val Unit :=
  Prog.call (Op.sendMessage
    { agentId := ctx.agentId, adminApiKey := ctx.adminApiKey, connectionId := ctx.connectionId,
      msg := .transactionReportRequest state id tdcFspId reportData })

def ReportMessageHandler.respond (ctx : HandlerContext) (message : Option Json) :
    Prog JsError Op.Val Bool := do
  let state ← Prog.ofExcept (Json.prop message "state")
  if isString state TransactionMessageStatesEnum.started.text then
    let id ← Prog.ofExcept (Json.prop message "id")
    let tdcFspId ← Prog.ofExcept (Json.prop message "tdcFspId")
    ReportMessageHandler.sendTransactionReportMessage ctx .accepted id tdcFspId .empty
    let transactions : List Row ← Prog.call (Op.getAllTransactions ctx.agentId)
    let reportRecs := transactions.map ReportMessageHandler.reportRec
    ReportMessageHandler.sendTransactionReportMessage ctx .completed id tdcFspId (.records reportRecs)
    return false
  else
    return false

def GrantMessageHandler.respond (message : Option Json) : Prog JsError Op.Val Bool := do
  let _ ← Prog.ofExcept (Json.prop message "state")
  return false

inductive MessageHandler where
  | grant
  | transaction (ctx : HandlerContext)
  | report (ctx : HandlerContext)

def MessageHandler.respond (message : Option Json) : MessageHandler → Prog JsError Op.Val Bool
  | .grant => GrantMessageHandler.respond message
  | .transaction ctx => TransactionMessageHandler.respond hash32 ctx message
  | .report ctx => ReportMessageHandler.respond ctx message

/-- The log lines of `getMessageHandler` print the message type. -/
def getMessageHandler (ctx : HandlerContext) (messageTypeId : Option Json) :
    Except JsError (Option MessageHandler) := do
  Json.template messageTypeId
  if isString messageTypeId TransactionMessageTypesEnum.grant.text then
    return some .grant
  else if isString messageTypeId TransactionMessageTypesEnum.creditTransaction.text then
    return some (.transaction ctx)
  else if isString messageTypeId TransactionMessageTypesEnum.transactionRequest.text then
    return some (.report ctx)
  else
    return none

/-- What `basicMessageHandler` is given: the arguments of the callback that it uses, with the fields of `body`
that it reads. -/
structure Delivery where
  agentId : String
  adminApiKey : String
  connectionId : String
  content : String
deriving DecidableEq

def Delivery.context (d : Delivery) : HandlerContext :=
  { agentId := d.agentId, adminApiKey := d.adminApiKey, connectionId := d.connectionId }

def basicMessageHandler (d : Delivery) : Prog JsError Op.Val Unit := do
  let data ← Prog.ofExcept (Json.parse d.content)
  let messageTypeId ← Prog.ofExcept (Json.prop (some data) "messageTypeId")
  let handler ← Prog.ofExcept (getMessageHandler d.context messageTypeId)
  match handler with
  | some handler =>
      let _ ← handler.respond hash32 (some data)
      return ()
  | none => return ()

end Handlers

end GuardianshipAgency.Transactions
