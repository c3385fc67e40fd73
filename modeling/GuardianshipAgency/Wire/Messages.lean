import GuardianshipAgency.Js.Lemmas.Stringify
import GuardianshipAgency.Transactions.Handlers

/-!
# Messages as they are sent

The `content` of the basic messages that `sendTransactionMessage` and `sendTransactionReportMessage` post.
-/

namespace GuardianshipAgency.Transactions

open Js

/-- No number in the message is too large for a double. -/
def Delivery.finite (d : Delivery) : Bool :=
  match Json.parse d.content with
  | .ok data => data.finite
  | .error _ => true

/-- A date stands as its `toJSON`. -/
def TxReportResponseDto.fields (rec : TxReportResponseDto) : List (String × Json) :=
  [("order", .num rec.order), ("transactionId", rec.transactionId), ("typeId", rec.typeId),
    ("subjectId", rec.subjectId), ("txDate", rec.txDate), ("amount", rec.amount),
    ("credentialId", rec.credentialId), ("hash", rec.hash), ("details", rec.details)]

def TxReportResponseDto.json (rec : TxReportResponseDto) : Json := .obj rec.fields

def ReportData.text : ReportData → String
  | .empty => ""
  | .records recs => Json.stringify (.arr (recs.map TxReportResponseDto.json))

/-- A message class of the controller library: the fields of `new Message(fields)`. It has each field it is given,
besides fields of its own. -/
structure MessageClass where
  create : List (String × Option Json) → List (String × Option Json)
  nodup : ∀ fields, (fields.map Prod.fst).Nodup → ((create fields).map Prod.fst).Nodup
  given : ∀ fields, ∀ kv ∈ fields, kv ∈ create fields

/-- The class whose constructor assigns the fields it is given over its defaults. -/
def MessageClass.assigning (defaults : List (String × Option Json)) (h : (defaults.map Prod.fst).Nodup) :
    MessageClass where
  create fields := (defaults.filter fun kv => kv.1 ∉ fields.map Prod.fst) ++ fields
  nodup fields hfields := by
    rw [List.map_append, List.nodup_append]
    refine ⟨h.sublist (List.filter_sublist.map Prod.fst), hfields, ?_⟩
    rintro k hk k' hk' rfl
    obtain ⟨kv, hkv, rfl⟩ := List.mem_map.mp hk
    exact of_decide_eq_true (List.mem_filter.mp hkv).2 hk'
  given _ _ hkv := List.mem_append_right _ hkv

structure MessageClasses where
  creditTransaction : MessageClass
  transactionReportRequest : MessageClass

/-- What the constructor of the message is given. -/
def ReplyMessage.init : ReplyMessage → List (String × Option Json)
  | .creditTransaction state id transaction =>
      [("state", some (.str state.text)), ("id", id), ("transaction", transaction)]
  | .transactionReportRequest state id tdcFspId transactions =>
      [("id", id), ("state", some (.str state.text)), ("tdcFspId", tdcFspId),
        ("transactions", some (.str transactions.text))]

def ReplyMessage.messageClass (classes : MessageClasses) : ReplyMessage → MessageClass
  | .creditTransaction _ _ _ => classes.creditTransaction
  | .transactionReportRequest _ _ _ _ => classes.transactionReportRequest

def ReplyMessage.content (classes : MessageClasses) (msg : ReplyMessage) : String :=
  Json.stringify (Json.ofFields ((msg.messageClass classes).create msg.init))

end GuardianshipAgency.Transactions
