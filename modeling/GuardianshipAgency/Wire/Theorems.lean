import GuardianshipAgency.Transactions.Theorems
import GuardianshipAgency.Wire.Lemmas.Answers

/-!
# Properties of the messages as they are sent
-/

namespace GuardianshipAgency.Transactions

open Js Async

variable {hash32 : Option Json → Except JsError String}

/-! ## Replies -/

/-- What a reply says: `accepted`, with the transaction of the message it answers, or `accepted` or `completed`, with its
FSP id; and in each case the id of that message. -/
def Echoes : TransactionMessageTypesEnum → Json → Json → Prop
  | .grant, _, _ => False
  | .creditTransaction, data, reply =>
      Json.field (some reply) "state" = some (.str "accepted") ∧
        Json.field (some reply) "id" = Json.field (some data) "id" ∧
        Json.field (some reply) "transaction" = Json.field (some data) "transaction"
  | .transactionRequest, data, reply =>
      (Json.field (some reply) "state" = some (.str "accepted") ∨
        Json.field (some reply) "state" = some (.str "completed")) ∧
      Json.field (some reply) "id" = Json.field (some data) "id" ∧
        Json.field (some reply) "tdcFspId" = Json.field (some data) "tdcFspId"

/-- A field that the reply has from a message is read as it is there. -/
theorem field_of_init {d : Delivery} {type : TransactionMessageTypesEnum} {data reply : Json} {msg : ReplyMessage}
    (hfields : ∀ k v, (k, v) ∈ msg.init → Json.field (some reply) k = v.map Json.shown) (hs : d.Starts type data)
    (hfinite : d.finite = true) {key : String} (hkey : (key, Json.field (some data) key) ∈ msg.init) :
    Json.field (some reply) key = Json.field (some data) key := by
  rw [hfields _ _ hkey, map_shown_field (hs.exact hfinite)]

theorem Answers.echoes (classes : MessageClasses) {w : World} {m : SendMessage} (h : Answers w m) :
    ∃ d ∈ w.delivered, m.agentId = d.agentId ∧ m.adminApiKey = d.adminApiKey ∧ m.connectionId = d.connectionId ∧
      ∃ type data reply, d.Starts type data ∧ Json.parse (m.msg.content classes) = .ok reply ∧
        ((∀ d' ∈ w.delivered, d'.finite = true) → Echoes type data reply) := by
  obtain ⟨reply, hreply, hfields⟩ := content_parse classes m.msg
  cases h with
  | @accepted d data hd hs =>
      refine ⟨d, hd, rfl, rfl, rfl, _, data, reply, hs, hreply, fun hfinite => ⟨hfields "state" _ (.head _), ?_, ?_⟩⟩
      · exact field_of_init hfields hs (hfinite d hd) (.tail _ (.head _))
      · exact field_of_init hfields hs (hfinite d hd) (.tail _ (.tail _ (.head _)))
  | @acknowledged d data hd hs =>
      refine ⟨d, hd, rfl, rfl, rfl, _, data, reply, hs, hreply,
        fun hfinite => ⟨.inl (hfields "state" _ (.tail _ (.head _))), ?_, ?_⟩⟩
      · exact field_of_init hfields hs (hfinite d hd) (.head _)
      · exact field_of_init hfields hs (hfinite d hd) (.tail _ (.tail _ (.head _)))
  | @reported d data rows seen hd hs hseen hrows =>
      refine ⟨d, hd, rfl, rfl, rfl, _, data, reply, hs, hreply,
        fun hfinite => ⟨.inr (hfields "state" _ (.tail _ (.head _))), ?_, ?_⟩⟩
      · exact field_of_init hfields hs (hfinite d hd) (.head _)
      · exact field_of_init hfields hs (hfinite d hd) (.tail _ (.tail _ (.head _)))

theorem Answers.not_started {w : World} {m : SendMessage} (h : Answers w m) : m.msg.state ≠ .started := by
  cases h <;> exact fun he => by cases he

/-- In every run, each message sent goes back over the connection of a started message delivered before, with the key
that came with it. Its content reads as the reply with the same id, and the same transaction or FSP id, if no message
has a number that is too large. Delivered to an agency in turn, the content settles its handler at once. -/
theorem sent_echoes (classes : MessageClasses) {ls : List (Label Choice Delivery Empty)}
    {c : Config JsError Op.Val World Delivery Unit}
    (hrun : (system hash32).run (.init .empty) ls = some c) {m : SendMessage} (hm : m ∈ c.world.sent) :
    (∃ d ∈ c.world.delivered, m.agentId = d.agentId ∧ m.adminApiKey = d.adminApiKey ∧
      m.connectionId = d.connectionId ∧
      ∃ type data reply, d.Starts type data ∧ Json.parse (m.msg.content classes) = .ok reply ∧
        ((∀ d' ∈ c.world.delivered, d'.finite = true) → Echoes type data reply)) ∧
    ∀ d : Delivery, d.content = m.msg.content classes → ∃ r, basicMessageHandler hash32 d = .settled r := by
  have hanswers := answers_run hrun hm
  refine ⟨hanswers.echoes classes, fun d hd => ?_⟩
  have hquiet := isStarted_of_reply (content_keepsState classes) hanswers.not_started hd
  rcases basicMessageHandler_cases hash32 d with hr | ⟨data, hs, -⟩ | ⟨data, hs, -⟩
  · exact hr
  · rw [hs.isStarted] at hquiet
    cases hquiet
  · rw [hs.isStarted] at hquiet
    cases hquiet

def sampleClasses : MessageClasses where
  creditTransaction := .assigning [("messageTypeId", some (.str "credit_transaction"))] (by simp)
  transactionReportRequest := .assigning [("messageTypeId", some (.str "transaction_request"))] (by simp)

/-- `acceptedThenReport`, with both messages of the report sent. -/
def reportedInTurn : List (Label Choice Delivery Empty) :=
  acceptedThenReport ++ [.answer 1 (.found [sampleRow]), .answer 1 .ok]

theorem sent_echoes_reportedInTurn : ∃ c, (system sampleHash).run (.init .empty) reportedInTurn = some c ∧
    sampleCompleted ∈ c.world.sent ∧
    (∃ d ∈ c.world.delivered, sampleCompleted.agentId = d.agentId ∧ sampleCompleted.adminApiKey = d.adminApiKey ∧
      sampleCompleted.connectionId = d.connectionId ∧
      ∃ type data reply, d.Starts type data ∧
        Json.parse (sampleCompleted.msg.content sampleClasses) = .ok reply ∧ Echoes type data reply) ∧
    ∀ d : Delivery, d.content = sampleCompleted.msg.content sampleClasses →
      ∃ r, basicMessageHandler sampleHash d = .settled r := by
  have hrun : ((system sampleHash).run (.init .empty) reportedInTurn).map (fun c =>
      (decide (sampleCompleted ∈ c.world.sent), c.world.delivered.all Delivery.finite)) = some (true, true) := by
    decide +kernel
  obtain ⟨c, hc, he⟩ := Option.map_eq_some_iff.mp hrun
  obtain ⟨hsent, hfinite⟩ := Prod.mk.inj he
  have hsent := of_decide_eq_true hsent
  obtain ⟨⟨d, hd, hagent, hkey, hconnection, type, data, reply, hs, hreply, hechoes⟩, hsettles⟩ :=
    sent_echoes sampleClasses hc hsent
  exact ⟨c, hc, hsent, ⟨d, hd, hagent, hkey, hconnection, type, data, reply, hs, hreply,
    hechoes (List.all_eq_true.mp hfinite)⟩, hsettles⟩

/-! ## Reports -/

/-- In every run in which the dates of the table are exact and no message has a number that is too large, the content
of a completed report reads back as one record for each row that its agent had in a table that was there before, with
nine columns of the row, and nothing else. -/
theorem reports_read_back (classes : MessageClasses) {ls : List (Label Choice Delivery Empty)}
    {c : Config JsError Op.Val World Delivery Unit}
    (hrun : (system hash32).run (.init .empty) ls = some c) (hfinite : ∀ d ∈ c.world.delivered, d.finite = true)
    (hdates : ∀ row ∈ c.world.rows, row.transactionDate.Exact) {m : SendMessage} (hm : m ∈ c.world.sent)
    {id tdcFspId : Option Json} {reportData : ReportData}
    (hmsg : m.msg = .transactionReportRequest .completed id tdcFspId reportData) :
    ∃ rows seen : List Row, seen <+: c.world.rows ∧ rows.Perm (seen.filter fun row => row.agentId == m.agentId) ∧
      ∃ reply text, Json.parse (m.msg.content classes) = .ok reply ∧
        Json.field (some reply) "transactions" = some (.str text) ∧
        Json.parse text = .ok (.arr (rows.map fun row => .obj
          [("order", .num row.merkelOrder), ("transactionId", row.transactionId), ("typeId", row.typeId),
            ("subjectId", row.subjectId), ("txDate", row.transactionDate), ("amount", row.amount),
            ("credentialId", row.credentialId), ("hash", row.issuerHash), ("details", row.transactionDetails)])) := by
  cases answers_run hrun hm with
  | accepted hd hs => cases hmsg
  | acknowledged hd hs => cases hmsg
  | @reported d data rows seen hd hs hseen hrows =>
      obtain ⟨reply, hreply, hfields⟩ := content_parse classes (d.reportReply data .completed
        (.records (rows.map ReportMessageHandler.reportRec))).msg
      have hexact : ∀ rec ∈ rows.map ReportMessageHandler.reportRec, rec.Exact := by
        intro rec hrec
        obtain ⟨row, hrow, rfl⟩ := List.mem_map.mp hrec
        have hrow := hseen.subset (List.mem_filter.mp (hrows.mem_iff.mp hrow)).1
        obtain ⟨d', hd', data', hrecords⟩ := (reportsOk hrun).inv.rows row hrow
        obtain ⟨hpos, hfits⟩ := order_bounds hrun hrow
        exact hrecords.describes.exact (hrecords.starts.exact (hfinite d' hd')) (exact_order hpos hfits)
          (hdates row hrow)
      have hread := parse_records hexact
      rw [List.map_map] at hread
      exact ⟨rows, seen, hseen, hrows, reply, _, hreply,
        hfields "transactions" _ (.tail _ (.tail _ (.tail _ (.head _)))), hread⟩

theorem reports_read_back_reportedInTurn : ∃ c, (system sampleHash).run (.init .empty) reportedInTurn = some c ∧
    sampleCompleted ∈ c.world.sent ∧
    ∃ rows seen : List Row, seen <+: c.world.rows ∧
      rows.Perm (seen.filter fun row => row.agentId == sampleCompleted.agentId) ∧
      ∃ reply text, Json.parse (sampleCompleted.msg.content sampleClasses) = .ok reply ∧
        Json.field (some reply) "transactions" = some (.str text) ∧
        Json.parse text = .ok (.arr (rows.map fun row => .obj
          [("order", .num row.merkelOrder), ("transactionId", row.transactionId), ("typeId", row.typeId),
            ("subjectId", row.subjectId), ("txDate", row.transactionDate), ("amount", row.amount),
            ("credentialId", row.credentialId), ("hash", row.issuerHash), ("details", row.transactionDetails)])) := by
  have hrun : ((system sampleHash).run (.init .empty) reportedInTurn).map (fun c =>
      (decide (sampleCompleted ∈ c.world.sent), c.world.delivered.all Delivery.finite, c.world.rows)) =
      some (true, true, [sampleRow]) := by decide +kernel
  obtain ⟨c, hc, he⟩ := Option.map_eq_some_iff.mp hrun
  obtain ⟨hsent, he⟩ := Prod.mk.inj he
  obtain ⟨hfinite, hrows⟩ := Prod.mk.inj he
  have hsent := of_decide_eq_true hsent
  have hdates : ∀ row ∈ c.world.rows, row.transactionDate.Exact := by
    rw [hrows]
    rintro row hrow
    rw [List.mem_singleton.mp hrow]
    exact Json.exact_str "now"
  exact ⟨c, hc, hsent, reports_read_back sampleClasses hc (List.all_eq_true.mp hfinite) hdates hsent rfl⟩

end GuardianshipAgency.Transactions
