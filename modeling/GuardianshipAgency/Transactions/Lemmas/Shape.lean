import GuardianshipAgency.Async.Ensures
import GuardianshipAgency.Transactions.World

/-!
# The handlers, call by call

What `basicMessageHandler` awaits for each kind of message.
-/

namespace GuardianshipAgency.Transactions

open Js Async

variable {hash32 : Option Json → Except JsError String}

theorem prop_bind_ok {α : Type} {v : Option Json} {key : String} {f : Option Json → Except JsError α} {a : α}
    (h : (Json.prop v key >>= f) = .ok a) : f (Json.field v key) = .ok a := by
  cases hv : Json.prop v key with
  | error e => rw [hv] at h; cases h
  | ok x =>
      rw [hv] at h
      have hf : Json.field v key = x := by simp [Json.field, hv, Except.toOption]
      rw [hf]
      exact h

theorem record_ok {ctx : HandlerContext} {message : Option Json} {max : Option Int} {r : AgentTransaction}
    (h : TransactionMessageHandler.record hash32 ctx message max = .ok r) :
    let transaction := Json.field message "transaction"
    r = { agentId := ctx.agentId
          fspId := Json.field transaction "fspId"
          transactionId := Json.field message "id"
          merkelOrder := nextOrder max
          merkelHash := r.merkelHash
          eventDate := Json.field transaction "eventDate"
          transactionDate := Json.field transaction "date"
          issuerHash := Json.field transaction "fspHash"
          credentialId := Json.field message "credentialId"
          typeId := Json.field transaction "typeId"
          subjectId := Json.field transaction "subjectId"
          amount := Json.field transaction "amount"
          transactionDetails := Json.field transaction "eventJson" } := by
  have h := prop_bind_ok (prop_bind_ok (prop_bind_ok (prop_bind_ok (prop_bind_ok h))))
  cases hm : hash32 (Json.field (Json.field message "transaction") "fspHash") with
  | error e => rw [hm] at h; cases h
  | ok merkelHash =>
      rw [hm] at h
      have h := prop_bind_ok (prop_bind_ok (prop_bind_ok (prop_bind_ok (prop_bind_ok (prop_bind_ok h)))))
      cases h
      rfl

/-! ## Messages that are acted on -/

/-- The content is a message of the given type in state `started`. -/
structure Delivery.Starts (d : Delivery) (type : TransactionMessageTypesEnum) (data : Json) : Prop where
  parsed : Json.parse d.content = .ok data
  type : Json.prop (some data) "messageTypeId" = .ok (some (.str type.text))
  state : Json.prop (some data) "state" = .ok (some (.str TransactionMessageStatesEnum.started.text))

def Delivery.acceptedReply (d : Delivery) (data : Json) : SendMessage :=
  { agentId := d.agentId
    adminApiKey := d.adminApiKey
    connectionId := d.connectionId
    msg := .creditTransaction .accepted (Json.field (some data) "id") (Json.field (some data) "transaction") }

def Delivery.reportReply (d : Delivery) (data : Json) (state : TransactionMessageStatesEnum)
    (reportData : ReportData) : SendMessage :=
  { agentId := d.agentId
    adminApiKey := d.adminApiKey
    connectionId := d.connectionId
    msg := .transactionReportRequest state (Json.field (some data) "id") (Json.field (some data) "tdcFspId")
      reportData }

def creditRun (hash32 : Option Json → Except JsError String) (d : Delivery) (data : Json) :
    Prog JsError Op.Val Unit :=
  .await .getMaxMerkelOrder fun
    | .error e => .settled (.error e)
    | .ok max =>
        match TransactionMessageHandler.record hash32 d.context (some data) max with
        | .error e => .settled (.error e)
        | .ok record => .await (.saveTransaction record) fun
            | .error e => .settled (.error e)
            | .ok _ => .await (.sendMessage (d.acceptedReply data)) .settled

def reportRun (d : Delivery) (data : Json) : Prog JsError Op.Val Unit :=
  .await (.sendMessage (d.reportReply data .accepted .empty)) fun
    | .error e => .settled (.error e)
    | .ok _ => .await (.getAllTransactions d.agentId) fun
        | .error e => .settled (.error e)
        | .ok rows => .await (.sendMessage (d.reportReply data .completed
            (.records (rows.map ReportMessageHandler.reportRec)))) .settled

theorem prop_ok_of_prop_ok {v x : Option Json} {key : String} (h : Json.prop v key = .ok x) (key' : String) :
    Json.prop v key' = .ok (Json.field v key') := by
  unfold Json.field
  unfold Json.prop at h ⊢
  split <;> simp_all [Except.toOption]

theorem isString_iff {v : Option Json} {s : String} : isString v s = true ↔ v = some (.str s) := by
  simp [isString]

theorem transactionRespond_run {d : Delivery} {data : Json}
    (hs : Json.prop (some data) "state" = .ok (some (.str "started"))) :
    (do let _ ← TransactionMessageHandler.respond hash32 d.context (some data); return ()) =
      creditRun hash32 d data := by
  simp only [TransactionMessageHandler.respond, hs, isString, TransactionMessageStatesEnum.text, creditRun,
    prop_ok_of_prop_ok hs, Prog.ofExcept_eq, Prog.settled_ok_bind, beq_self_eq_true, ↓reduceIte,
    Prog.call_bind, Prog.await_bind, TransactionMessageHandler.sendTransactionMessage]
  congr 1
  funext r
  cases r with
  | error e => rfl
  | ok max =>
      simp only [Prog.settled_ok_bind]
      cases TransactionMessageHandler.record hash32 d.context (some data) max with
      | error e => rfl
      | ok record =>
          simp only [Prog.settled_ok_bind, Prog.await_bind]
          congr 1
          funext r
          cases r with
          | error e => rfl
          | ok u =>
              simp only [Prog.settled_ok_bind, Prog.await_bind]
              congr 1
              funext r
              cases r <;> rfl

theorem reportRespond_run {d : Delivery} {data : Json}
    (hs : Json.prop (some data) "state" = .ok (some (.str "started"))) :
    (do let _ ← ReportMessageHandler.respond d.context (some data); return ()) = reportRun d data := by
  simp only [ReportMessageHandler.respond, hs, isString, TransactionMessageStatesEnum.text, reportRun,
    prop_ok_of_prop_ok hs, Prog.ofExcept_eq, Prog.settled_ok_bind, beq_self_eq_true, ↓reduceIte,
    Prog.call_bind, Prog.await_bind, ReportMessageHandler.sendTransactionReportMessage]
  congr 1
  funext r
  cases r with
  | error e => rfl
  | ok u =>
      simp only [Prog.settled_ok_bind, Prog.await_bind]
      congr 1
      funext r
      cases r with
      | error e => rfl
      | ok rows =>
          simp only [Prog.settled_ok_bind, Prog.await_bind]
          congr 1
          funext r
          cases r <;> rfl

theorem respond_not_started (hash32 : Option Json → Except JsError String) {message state : Option Json}
    (hp : Json.prop message "state" = .ok state) (hs : state ≠ some (.str "started")) (h : MessageHandler) :
    ∃ r, h.respond hash32 message = .settled r := by
  have hn : isString state TransactionMessageStatesEnum.started.text = false := by
    simpa [isString, TransactionMessageStatesEnum.text] using hs
  cases h with
  | grant => exact ⟨.ok false, by simp [MessageHandler.respond, GrantMessageHandler.respond, hp]⟩
  | report ctx => exact ⟨.ok false, by simp [MessageHandler.respond, ReportMessageHandler.respond, hp, hn]⟩
  | transaction ctx =>
      simp only [MessageHandler.respond, TransactionMessageHandler.respond, hp, hn, Prog.ofExcept_eq,
        Prog.settled_ok_bind, Bool.false_eq_true, ↓reduceIte]
      split
      · simp only [prop_ok_of_prop_ok hp, Prog.settled_ok_bind]
        cases Json.template (Json.field message "id") <;> exact ⟨_, rfl⟩
      · exact ⟨_, rfl⟩

theorem getMessageHandler_cases {ctx : HandlerContext} {type : Option Json} {h : Option MessageHandler}
    (hh : getMessageHandler ctx type = .ok h) :
    h = none ∨ (h = some .grant) ∨
      (h = some (.transaction ctx) ∧ type = some (.str TransactionMessageTypesEnum.creditTransaction.text)) ∨
      (h = some (.report ctx) ∧ type = some (.str TransactionMessageTypesEnum.transactionRequest.text)) := by
  unfold getMessageHandler at hh
  cases ht : Json.template type with
  | error e => rw [ht] at hh; cases hh
  | ok u =>
      rw [ht] at hh
      simp only [bind, Except.bind, pure, Except.pure] at hh
      split at hh
      · exact .inr (.inl (by cases hh; rfl))
      · split at hh
        · rename_i hc; exact .inr (.inr (.inl ⟨by cases hh; rfl, isString_iff.mp hc⟩))
        · split at hh
          · rename_i hr; exact .inr (.inr (.inr ⟨by cases hh; rfl, isString_iff.mp hr⟩))
          · exact .inl (by cases hh; rfl)

/-- A delivery that awaits anything is a started `credit_transaction` or a started `transaction_request`. -/
theorem basicMessageHandler_cases (hash32 : Option Json → Except JsError String) (d : Delivery) :
    (∃ r, basicMessageHandler hash32 d = .settled r) ∨
      (∃ data, d.Starts .creditTransaction data ∧ basicMessageHandler hash32 d = creditRun hash32 d data) ∨
      ∃ data, d.Starts .transactionRequest data ∧ basicMessageHandler hash32 d = reportRun d data := by
  unfold basicMessageHandler
  cases hparse : Json.parse d.content with
  | error e => exact .inl ⟨_, rfl⟩
  | ok data =>
      cases htype : Json.prop (some data) "messageTypeId" with
      | error e => exact .inl ⟨.error e, by simp [htype]⟩
      | ok type =>
          cases hh : getMessageHandler d.context type with
          | error e => exact .inl ⟨.error e, by simp [htype, hh]⟩
          | ok h =>
              simp only [htype, hh, Prog.ofExcept_eq, Prog.settled_ok_bind]
              have hstate := prop_ok_of_prop_ok htype "state"
              by_cases hs : Json.field (some data) "state" = some (.str "started")
              · rw [hs] at hstate
                rcases getMessageHandler_cases hh with rfl | rfl | ⟨rfl, ht⟩ | ⟨rfl, ht⟩
                · exact .inl ⟨_, rfl⟩
                · exact .inl ⟨.ok (), by simp [MessageHandler.respond, GrantMessageHandler.respond, hstate]⟩
                · refine .inr (.inl ⟨data, ⟨hparse, ht ▸ htype, hstate⟩, ?_⟩)
                  exact transactionRespond_run hstate
                · refine .inr (.inr ⟨data, ⟨hparse, ht ▸ htype, hstate⟩, ?_⟩)
                  exact reportRespond_run hstate
              · cases h with
                | none => exact .inl ⟨_, rfl⟩
                | some h =>
                    obtain ⟨r, hr⟩ := respond_not_started hash32 hstate hs h
                    refine .inl ?_
                    simp only [hr]
                    cases r <;> exact ⟨_, rfl⟩

theorem basicMessageHandler_sends (d : Delivery) : (basicMessageHandler hash32 d).Calls fun op =>
    ∀ m, op = .sendMessage m → m.agentId = d.agentId ∧ m.adminApiKey = d.adminApiKey := by
  rcases basicMessageHandler_cases hash32 d with ⟨r, hr⟩ | ⟨data, -, hr⟩ | ⟨data, -, hr⟩
  · rw [hr]
    trivial
  · rw [hr]
    refine ⟨fun m he => (by cases he), fun max => ?_⟩
    cases max with
    | error e => trivial
    | ok max =>
        dsimp only
        split
        · trivial
        · refine ⟨fun m he => (by cases he), fun saved => ?_⟩
          cases saved with
          | error e => trivial
          | ok u =>
              refine ⟨fun m he => ?_, fun _ => trivial⟩
              cases he
              exact ⟨rfl, rfl⟩
  · rw [hr]
    refine ⟨fun m he => ?_, fun sent => ?_⟩
    · cases he
      exact ⟨rfl, rfl⟩
    cases sent with
    | error e => trivial
    | ok u =>
        refine ⟨fun m he => (by cases he), fun rows => ?_⟩
        cases rows with
        | error e => trivial
        | ok rows =>
            refine ⟨fun m he => ?_, fun _ => trivial⟩
            cases he
            exact ⟨rfl, rfl⟩

end GuardianshipAgency.Transactions
