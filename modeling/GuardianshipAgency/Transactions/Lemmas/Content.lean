import GuardianshipAgency.Transactions.Lemmas.Recorded

/-!
# Content from a peer

What `basicMessageHandler` does with any content, and the machine in which no call fails.
-/

namespace GuardianshipAgency.Transactions

open Js Async

variable {hash32 : Option Json → Except JsError String}

/-! ## Handlers by type and state -/

theorem prop_of_ne_null {v : Json} (h : v ≠ .null) (key : String) :
    Json.prop (some v) key = .ok (Json.field (some v) key) := by
  cases v with
  | null => exact absurd rfl h
  | _ => simp [Json.field, Json.prop, Except.toOption]

/-- What a message that can be read says about itself. -/
structure Delivery.Reads (d : Delivery) (data : Json) : Prop where
  parsed : Json.parse d.content = .ok data
  notNull : data ≠ .null
  type : Json.template (Json.field (some data) "messageTypeId") = .ok ()

theorem getMessageHandler_eq (ctx : HandlerContext) {type : Option Json} (h : Json.template type = .ok ()) :
    getMessageHandler ctx type = .ok
      (if isString type TransactionMessageTypesEnum.grant.text then some .grant
      else if isString type TransactionMessageTypesEnum.creditTransaction.text then some (.transaction ctx)
      else if isString type TransactionMessageTypesEnum.transactionRequest.text then some (.report ctx)
      else none) := by
  simp only [getMessageHandler, h, bind, Except.bind, pure, Except.pure]
  split
  · rfl
  · split
    · rfl
    · split <;> rfl

theorem getMessageHandler_rejects (ctx : HandlerContext) {type : Option Json} {e : JsError}
    (h : Json.template type = .error e) : getMessageHandler ctx type = .error e := by
  simp [getMessageHandler, h, bind, Except.bind]

/-- The run that a message calls for. -/
def Delivery.reaction (hash32 : Option Json → Except JsError String) (d : Delivery) (data : Json) :
    Prog JsError Op.Val Unit :=
  let type := Json.field (some data) "messageTypeId"
  let state := Json.field (some data) "state"
  if isString type TransactionMessageTypesEnum.creditTransaction.text then
    if isString state TransactionMessageStatesEnum.started.text then creditRun hash32 d data
    else if isString state TransactionMessageStatesEnum.completed.text then
      .settled (Json.template (Json.field (some data) "id"))
    else .settled (.ok ())
  else if isString type TransactionMessageTypesEnum.transactionRequest.text then
    if isString state TransactionMessageStatesEnum.started.text then reportRun d data else .settled (.ok ())
  else .settled (.ok ())

theorem isString_ne {v : Option Json} {s : String} (h : isString v s = true) (t : String) (hne : s ≠ t) :
    isString v t = false := by
  rw [isString_iff.mp h]
  simpa [isString] using hne

theorem transactionRespond_other {ctx : HandlerContext} {data : Json} (hnull : data ≠ .null)
    (hstate : isString (Json.field (some data) "state") TransactionMessageStatesEnum.started.text = false) :
    (do let _ ← TransactionMessageHandler.respond hash32 ctx (some data); return ()) =
      (.settled (if isString (Json.field (some data) "state") TransactionMessageStatesEnum.completed.text then
        Json.template (Json.field (some data) "id") else .ok ()) : Prog JsError Op.Val Unit) := by
  simp only [TransactionMessageHandler.respond, prop_of_ne_null hnull, Prog.ofExcept_eq, Prog.settled_ok_bind,
    hstate, Bool.false_eq_true, ↓reduceIte]
  split
  · cases Json.template (Json.field (some data) "id") <;> rfl
  · rfl

theorem reportRespond_other {ctx : HandlerContext} {data : Json} (hnull : data ≠ .null)
    (hstate : isString (Json.field (some data) "state") TransactionMessageStatesEnum.started.text = false) :
    (do let _ ← ReportMessageHandler.respond ctx (some data); return ()) =
      (.settled (.ok ()) : Prog JsError Op.Val Unit) := by
  simp [ReportMessageHandler.respond, prop_of_ne_null hnull, hstate]

theorem started_of_isString {data : Json} (hnull : data ≠ .null)
    (h : isString (Json.field (some data) "state") TransactionMessageStatesEnum.started.text = true) :
    Json.prop (some data) "state" = .ok (some (.str "started")) := by
  rw [prop_of_ne_null hnull, isString_iff.mp h]
  rfl

/-- What `basicMessageHandler` does with a message that can be read. -/
theorem basicMessageHandler_eq {d : Delivery} {data : Json} (h : d.Reads data) :
    basicMessageHandler hash32 d = d.reaction hash32 data := by
  have hprop := prop_of_ne_null h.notNull
  simp only [basicMessageHandler, h.parsed, hprop, getMessageHandler_eq _ h.type, Prog.ofExcept_eq,
    Prog.settled_ok_bind, Delivery.reaction]
  by_cases hgrant : isString (Json.field (some data) "messageTypeId") TransactionMessageTypesEnum.grant.text
  · have hcredit := isString_ne hgrant TransactionMessageTypesEnum.creditTransaction.text (by decide)
    have hreport := isString_ne hgrant TransactionMessageTypesEnum.transactionRequest.text (by decide)
    simp [hgrant, hcredit, hreport, MessageHandler.respond, GrantMessageHandler.respond, hprop]
  by_cases hcredit :
      isString (Json.field (some data) "messageTypeId") TransactionMessageTypesEnum.creditTransaction.text
  · simp only [hgrant, hcredit, Bool.false_eq_true, ↓reduceIte, MessageHandler.respond]
    by_cases hstate : isString (Json.field (some data) "state") TransactionMessageStatesEnum.started.text
    · simp only [hstate, ↓reduceIte]
      exact transactionRespond_run (started_of_isString h.notNull hstate)
    · simp only [hstate, Bool.false_eq_true, ↓reduceIte]
      refine (transactionRespond_other h.notNull (by simpa using hstate)).trans ?_
      split <;> rfl
  by_cases hreport :
      isString (Json.field (some data) "messageTypeId") TransactionMessageTypesEnum.transactionRequest.text
  · simp only [hgrant, hcredit, hreport, Bool.false_eq_true, ↓reduceIte, MessageHandler.respond]
    by_cases hstate : isString (Json.field (some data) "state") TransactionMessageStatesEnum.started.text
    · simp only [hstate, ↓reduceIte]
      exact reportRespond_run (started_of_isString h.notNull hstate)
    · simp only [hstate, Bool.false_eq_true, ↓reduceIte]
      exact reportRespond_other h.notNull (by simpa using hstate)
  · simp only [hgrant, hcredit, hreport, Bool.false_eq_true, ↓reduceIte]
    rfl

/-- A message that cannot be read is rejected before anything is awaited. -/
theorem basicMessageHandler_rejects (hash32 : Option Json → Except JsError String) {d : Delivery}
    (h : ∀ data, ¬d.Reads data) :
    ∃ e, basicMessageHandler hash32 d = .settled (.error e) := by
  unfold basicMessageHandler
  cases hparse : Json.parse d.content with
  | error e => exact ⟨e, rfl⟩
  | ok data =>
      by_cases hnull : data = .null
      · subst hnull
        exact ⟨_, rfl⟩
      · cases htype : Json.template (Json.field (some data) "messageTypeId") with
        | ok u => exact absurd ⟨hparse, hnull, htype⟩ (h data)
        | error e =>
            refine ⟨e, ?_⟩
            simp [prop_of_ne_null hnull, getMessageHandler_rejects _ htype]

/-! ## Calls that succeed -/

def Choice.succeeds : Choice → Bool
  | .ok | .found _ | .committed _ => true
  | _ => false

/-- The machine in which no call of the database or the network fails. A row that the table does not admit cannot be
saved in it. -/
def calmMachine : Machine JsError Op.Val World Choice where
  answer op ch w := if ch.succeeds then answer op ch w else none

theorem calm_answer {op : Op} {ch : Choice} {w w' : World} {a} (h : calmMachine.answer op ch w = some (a, w')) :
    (∃ v, a = some (.ok v)) ∧ answer op ch w = some (a, w') := by
  obtain ⟨hch, h⟩ := Option.ite_none_right_eq_some.mp h
  refine ⟨?_, h⟩
  cases op with
  | getMaxMerkelOrder =>
      cases ch with
      | ok => cases h; exact ⟨_, rfl⟩
      | failed e => cases hch
      | _ => cases h
  | saveTransaction r =>
      cases ch with
      | committed now =>
          obtain ⟨-, h⟩ := Option.ite_none_right_eq_some.mp h
          cases h
          exact ⟨_, rfl⟩
      | committedThenFailed now e => cases hch
      | failed e => cases hch
      | _ => cases h
  | getAllTransactions agentId =>
      cases ch with
      | found rows =>
          obtain ⟨-, h⟩ := Option.ite_none_right_eq_some.mp h
          cases h
          exact ⟨_, rfl⟩
      | failed e => cases hch
      | _ => cases h
  | sendMessage m =>
      cases ch with
      | ok => cases h; exact ⟨_, rfl⟩
      | failed e => cases hch
      | lost => cases hch
      | _ => cases h

theorem calm_await {α : Type} {op : Op} {next : Except JsError op.Val → Prog JsError Op.Val α} {w w' : World} {r}
    (h : calmMachine.Exec (.await op next) w r w') :
    ∃ ch v w₁, answer op ch w = some (some (.ok v), w₁) ∧ calmMachine.Exec (next (.ok v)) w₁ r w' := by
  have honce : ∀ ch w w₁, calmMachine.answer op ch w ≠ some (none, w₁) := fun ch w w₁ ha => by
    obtain ⟨⟨v, hv⟩, -⟩ := calm_answer ha
    cases hv
  obtain ⟨ch, res, w₁, ha, hnext⟩ := Machine.Exec.await_once honce h
  obtain ⟨⟨v, hv⟩, ha⟩ := calm_answer ha
  cases hv
  exact ⟨ch, v, w₁, ha, hnext⟩

/-! ## The two runs -/

/-- The record of a started transaction can be made. -/
def Recordable (hash32 : Option Json → Except JsError String) (data : Json) : Prop :=
  ∃ transaction, Json.field (some data) "transaction" = some transaction ∧ transaction ≠ .null ∧
    (hash32 (Json.field (some transaction) "fspHash")).isOk

/-- Whether the record of a started transaction can be made does not depend on the maximum. -/
theorem record_isOk_iff (hash32 : Option Json → Except JsError String) (ctx : HandlerContext) {data : Json}
    (max : Option Int) (hnull : data ≠ .null) :
    (TransactionMessageHandler.record hash32 ctx (some data) max).isOk ↔ Recordable hash32 data := by
  have hprop := prop_of_ne_null hnull
  unfold Recordable TransactionMessageHandler.record
  simp only [hprop, bind, Except.bind, pure, Except.pure]
  cases htransaction : Json.field (some data) "transaction" with
  | none => simp [Json.prop, Except.isOk, Except.toBool]
  | some transaction =>
      by_cases ht : transaction = .null
      · subst ht
        simp [Json.prop, Except.isOk, Except.toBool]
      · simp only [prop_of_ne_null ht]
        cases hhash : hash32 (Json.field (some transaction) "fspHash") with
        | ok hash => simp [ht, hhash, Except.isOk, Except.toBool]
        | error e => simp [hhash, Except.isOk, Except.toBool]

theorem obj_of_field {v : Option Json} {key : String} {x : Json} (h : Json.field v key = some x) :
    ∃ kvs, v = some (.obj kvs) := by
  unfold Json.field Json.prop at h
  split at h
  · cases h
  · cases h
  · exact ⟨_, rfl⟩
  · cases h

/-- A row that the table admits has the hash of a transaction that is an object. -/
theorem obj_of_insertable {ctx : HandlerContext} {data : Json} {max : Option Int} {r : AgentTransaction}
    (hr : TransactionMessageHandler.record hash32 ctx (some data) max = .ok r) (h : r.insertable = true) :
    ∃ kvs, Json.field (some data) "transaction" = some (.obj kvs) := by
  rw [record_ok hr] at h
  simp only [AgentTransaction.insertable, Bool.and_eq_true, bne_iff_ne] at h
  cases hhash : Json.field (Json.field (some data) "transaction") "fspHash" with
  | none =>
      rw [hhash] at h
      exact absurd rfl h.1.2
  | some hash => exact obj_of_field hhash

theorem creditRun_calm {d : Delivery} {data : Json} (hnull : data ≠ .null) {w w' : World} {r}
    (h : calmMachine.Exec (creditRun hash32 d data) w r w') :
    (¬Recordable hash32 data ∧ w' = w) ∨
      (Recordable hash32 data ∧ r = .ok () ∧ ∃ kvs, Json.field (some data) "transaction" = some (.obj kvs)) := by
  obtain ⟨ch, max, w₁, ha, hrecord⟩ := calm_await h
  obtain ⟨rfl, -⟩ := answer_getMax ha
  have hok := record_isOk_iff hash32 d.context max hnull
  simp only at hrecord
  cases hr : TransactionMessageHandler.record hash32 d.context (some data) max with
  | error e =>
      rw [hr] at hrecord hok
      obtain ⟨-, rfl⟩ := Machine.Exec.settled_inv hrecord
      exact .inl ⟨fun hrec => (by cases hok.mpr hrec), rfl⟩
  | ok record =>
      rw [hr] at hrecord hok
      obtain ⟨ch', u, w₂, hsave, hreply⟩ := calm_await hrecord
      obtain ⟨ch'', u', w₃, -, hend⟩ := calm_await hreply
      obtain ⟨rfl, -⟩ := Machine.Exec.settled_inv hend
      rcases answer_save hsave with ⟨-, hins, -⟩ | ⟨-, -, e, he⟩
      · exact .inr ⟨hok.mp rfl, rfl, obj_of_insertable hr hins⟩
      · cases he

theorem creditRun_throws (d : Delivery) {data : Json} (hnull : data ≠ .null) (h : ¬Recordable hash32 data)
    (w : World) :
    ∃ e, calmMachine.Exec (creditRun hash32 d data) w (.error e) w := by
  have hok := record_isOk_iff hash32 d.context (maxMerkelOrder w.rows) hnull
  cases hr : TransactionMessageHandler.record hash32 d.context (some data) (maxMerkelOrder w.rows) with
  | ok record =>
      rw [hr] at hok
      exact absurd (hok.mp rfl) h
  | error e =>
      have hmax : calmMachine.answer .getMaxMerkelOrder .ok w = some (some (.ok (maxMerkelOrder w.rows)), w) := rfl
      refine ⟨e, .answered hmax ?_⟩
      simp only [hr]
      exact .settled

/-- The row of a started transaction is one that the table does not admit. -/
def Delivery.Refused (hash32 : Option Json → Except JsError String) (d : Delivery) (w : World) : Prop :=
  ∃ data record, d.Reads data ∧
    TransactionMessageHandler.record hash32 d.context (some data) (maxMerkelOrder w.rows) = .ok record ∧
    record.insertable = false

theorem creditRun_resolves {d : Delivery} {data : Json} (hreads : d.Reads data) (h : Recordable hash32 data)
    (w : World) : (∃ w', calmMachine.Exec (creditRun hash32 d data) w (.ok ()) w') ∨ d.Refused hash32 w := by
  have hok := (record_isOk_iff hash32 d.context (maxMerkelOrder w.rows) hreads.notNull).mpr h
  cases hr : TransactionMessageHandler.record hash32 d.context (some data) (maxMerkelOrder w.rows) with
  | error e =>
      rw [hr] at hok
      cases hok
  | ok record =>
      cases hins : record.insertable with
      | false => exact .inr ⟨data, record, hreads, hr, hins⟩
      | true =>
          have hmax : calmMachine.answer .getMaxMerkelOrder .ok w = some (some (.ok (maxMerkelOrder w.rows)), w) := rfl
          have hsave : calmMachine.answer (.saveTransaction record) (.committed .null) w =
              some (some (.ok ()), w.insert .null record) := if_pos hins
          have hsend : calmMachine.answer (.sendMessage (d.acceptedReply data)) .ok (w.insert .null record) =
              some (some (.ok ()), (w.insert .null record).issue (d.acceptedReply data)) := rfl
          refine .inl ⟨(w.insert .null record).issue (d.acceptedReply data), .answered hmax ?_⟩
          simp only [hr]
          exact .answered hsave (.answered hsend .settled)

theorem reportRun_resolves (d : Delivery) (data : Json) (w : World) :
    ∃ w', calmMachine.Exec (reportRun d data) w (.ok ()) w' := by
  have hsend (m : SendMessage) (w : World) :
      calmMachine.answer (.sendMessage m) .ok w = some (some (.ok ()), w.issue m) := rfl
  have hfound (w : World) : calmMachine.answer (.getAllTransactions d.agentId)
      (.found (w.rows.filter fun row => row.agentId == d.agentId)) w =
        some (some (.ok (w.rows.filter fun row => row.agentId == d.agentId)), w) := if_pos (.refl _)
  exact ⟨_, .answered (hsend _ _) (.answered (hfound _) (.answered (hsend _ _) .settled))⟩

theorem reportRun_calm {d : Delivery} {data : Json} {w w' : World} {r}
    (h : calmMachine.Exec (reportRun d data) w r w') : r = .ok () := by
  obtain ⟨_, _, _, _, h⟩ := calm_await h
  obtain ⟨_, _, _, _, h⟩ := calm_await h
  obtain ⟨_, _, _, _, h⟩ := calm_await h
  exact (Machine.Exec.settled_inv h).1

/-! ## Safe handling -/

/-- The content is a JSON object: a started `credit_transaction` with a transaction object, or a started
`transaction_request`. -/
def Delivery.Actionable (d : Delivery) : Prop :=
  ∃ kvs, Json.parse d.content = .ok (.obj kvs) ∧
    isString (Json.field (some (.obj kvs)) "state") TransactionMessageStatesEnum.started.text ∧
    ((isString (Json.field (some (.obj kvs)) "messageTypeId") TransactionMessageTypesEnum.creditTransaction.text ∧
        ∃ tr, Json.field (some (.obj kvs)) "transaction" = some (.obj tr)) ∨
      isString (Json.field (some (.obj kvs)) "messageTypeId") TransactionMessageTypesEnum.transactionRequest.text)

/-- As long as no call fails, the handler resolves, and it leaves table and network alone unless the content asks for
more. -/
structure HandledSafely (hash32 : Option Json → Except JsError String) (d : Delivery) : Prop where
  resolves : ∀ w, (∃ w', calmMachine.Exec (basicMessageHandler hash32 d) w (.ok ()) w') ∨ d.Refused hash32 w
  result : ∀ w r w', calmMachine.Exec (basicMessageHandler hash32 d) w r w' →
    r = .ok () ∧ (d.Actionable ∨ (w'.rows = w.rows ∧ w'.sent = w.sent))

/-- The handler finds what it reads in the content without a guard. -/
structure Delivery.Digestible (hash32 : Option Json → Except JsError String) (d : Delivery) (data : Json) : Prop
    extends d.Reads data where
  started : isString (Json.field (some data) "messageTypeId") TransactionMessageTypesEnum.creditTransaction.text →
    isString (Json.field (some data) "state") TransactionMessageStatesEnum.started.text → Recordable hash32 data
  completed : isString (Json.field (some data) "messageTypeId") TransactionMessageTypesEnum.creditTransaction.text →
    isString (Json.field (some data) "state") TransactionMessageStatesEnum.completed.text →
      Json.template (Json.field (some data) "id") = .ok ()

theorem actionable_credit {d : Delivery} {data : Json} (h : d.Reads data)
    (htype : isString (Json.field (some data) "messageTypeId") TransactionMessageTypesEnum.creditTransaction.text)
    (hstate : isString (Json.field (some data) "state") TransactionMessageStatesEnum.started.text)
    (htr : ∃ tr, Json.field (some data) "transaction" = some (.obj tr)) : d.Actionable := by
  obtain ⟨kvs, he⟩ := obj_of_field (isString_iff.mp hstate)
  cases he
  exact ⟨kvs, h.parsed, hstate, .inl ⟨htype, htr⟩⟩

theorem actionable_report {d : Delivery} {data : Json} (h : d.Reads data)
    (htype : isString (Json.field (some data) "messageTypeId") TransactionMessageTypesEnum.transactionRequest.text)
    (hstate : isString (Json.field (some data) "state") TransactionMessageStatesEnum.started.text) : d.Actionable := by
  obtain ⟨kvs, he⟩ := obj_of_field (isString_iff.mp hstate)
  cases he
  exact ⟨kvs, h.parsed, hstate, .inr htype⟩

theorem Delivery.Digestible.resolves {d : Delivery} {data : Json} (h : d.Digestible hash32 data) (w : World) :
    (∃ w', calmMachine.Exec (basicMessageHandler hash32 d) w (.ok ()) w') ∨ d.Refused hash32 w := by
  rw [basicMessageHandler_eq h.toReads, Delivery.reaction]
  split
  · rename_i htype
    split
    · rename_i hstate
      exact creditRun_resolves h.toReads (h.started htype hstate) w
    · split
      · rename_i hstate
        rw [h.completed htype hstate]
        exact .inl ⟨w, .settled⟩
      · exact .inl ⟨w, .settled⟩
  · split
    · split
      · exact .inl (reportRun_resolves d data w)
      · exact .inl ⟨w, .settled⟩
    · exact .inl ⟨w, .settled⟩

theorem Delivery.Digestible.result {d : Delivery} {data : Json} (h : d.Digestible hash32 data) {w w' : World} {r}
    (hexec : calmMachine.Exec (basicMessageHandler hash32 d) w r w') :
    r = .ok () ∧ (d.Actionable ∨ (w'.rows = w.rows ∧ w'.sent = w.sent)) := by
  rw [basicMessageHandler_eq h.toReads, Delivery.reaction] at hexec
  split at hexec
  · rename_i htype
    split at hexec
    · rename_i hstate
      rcases creditRun_calm h.notNull hexec with ⟨hnot, -⟩ | ⟨-, rfl, htr⟩
      · exact absurd (h.started htype hstate) hnot
      · exact ⟨rfl, .inl (actionable_credit h.toReads htype hstate htr)⟩
    · split at hexec
      · rename_i hstate
        obtain ⟨rfl, rfl⟩ := Machine.Exec.settled_inv hexec
        exact ⟨h.completed htype hstate, .inr ⟨rfl, rfl⟩⟩
      · obtain ⟨rfl, rfl⟩ := Machine.Exec.settled_inv hexec
        exact ⟨rfl, .inr ⟨rfl, rfl⟩⟩
  · split at hexec
    · rename_i htype
      split at hexec
      · rename_i hstate
        exact ⟨reportRun_calm hexec, .inl (actionable_report h.toReads htype hstate)⟩
      · obtain ⟨rfl, rfl⟩ := Machine.Exec.settled_inv hexec
        exact ⟨rfl, .inr ⟨rfl, rfl⟩⟩
    · obtain ⟨rfl, rfl⟩ := Machine.Exec.settled_inv hexec
      exact ⟨rfl, .inr ⟨rfl, rfl⟩⟩

theorem HandledSafely.digestible {d : Delivery} (h : HandledSafely hash32 d) : ∃ data, d.Digestible hash32 data := by
  have hthrows : ∀ e, ¬calmMachine.Exec (basicMessageHandler hash32 d) .empty (.error e) .empty :=
    fun e hexec => by cases (h.result _ _ _ hexec).1
  by_cases hreads : ∃ data, d.Reads data
  · obtain ⟨data, hdata⟩ := hreads
    refine ⟨data, hdata, fun htype hstate => ?_, fun htype hstate => ?_⟩
    · by_contra hnot
      obtain ⟨e, hexec⟩ := creditRun_throws d hdata.notNull hnot .empty
      refine hthrows e ?_
      rw [basicMessageHandler_eq hdata, Delivery.reaction, if_pos htype, if_pos hstate]
      exact hexec
    · cases hid : Json.template (Json.field (some data) "id") with
      | ok u => rfl
      | error e =>
          refine absurd ?_ (hthrows e)
          have hnew := isString_ne hstate TransactionMessageStatesEnum.started.text (by decide)
          rw [basicMessageHandler_eq hdata, Delivery.reaction, if_pos htype, if_neg (by simp [hnew]), if_pos hstate, hid]
          exact .settled
  · obtain ⟨e, he⟩ := basicMessageHandler_rejects hash32 fun data hdata => hreads ⟨data, hdata⟩
    refine absurd ?_ (hthrows e)
    rw [he]
    exact .settled

end GuardianshipAgency.Transactions
