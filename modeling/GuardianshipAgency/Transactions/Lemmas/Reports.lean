import GuardianshipAgency.Transactions.Lemmas.Steps

/-!
# Rows, replies and reports

Every row records a started message that was delivered to its agent, and an `accepted` reply is issued only when
the row exists.
-/

namespace GuardianshipAgency.Transactions

open Js Async

variable {hash32 : Option Json → Except JsError String}

/-- The row holds what the started message `data`, delivered with `d`, says. -/
structure Row.Records (row : Row) (d : Delivery) (data : Json) : Prop where
  starts : d.Starts .creditTransaction data
  agentId : row.agentId = d.agentId
  transactionId : row.transactionId = column (Json.field (some data) "id")
  issuerHash : row.issuerHash = column (Json.field (Json.field (some data) "transaction") "fspHash")
  typeId : row.typeId = column (Json.field (Json.field (some data) "transaction") "typeId")
  subjectId : row.subjectId = column (Json.field (Json.field (some data) "transaction") "subjectId")
  amount : row.amount = column (Json.field (Json.field (some data) "transaction") "amount")
  credentialId : row.credentialId = column (Json.field (some data) "credentialId")
  details : row.transactionDetails = column (Json.field (Json.field (some data) "transaction") "eventJson")

structure TxReportResponseDto.Describes (rec : TxReportResponseDto) (data : Json) : Prop where
  transactionId : rec.transactionId = column (Json.field (some data) "id")
  hash : rec.hash = column (Json.field (Json.field (some data) "transaction") "fspHash")
  typeId : rec.typeId = column (Json.field (Json.field (some data) "transaction") "typeId")
  subjectId : rec.subjectId = column (Json.field (Json.field (some data) "transaction") "subjectId")
  amount : rec.amount = column (Json.field (Json.field (some data) "transaction") "amount")
  credentialId : rec.credentialId = column (Json.field (some data) "credentialId")
  details : rec.details = column (Json.field (Json.field (some data) "transaction") "eventJson")

/-- The field mappings of the two handlers agree. -/
theorem Row.Records.describes {row : Row} {d : Delivery} {data : Json} (h : row.Records d data) :
    (ReportMessageHandler.reportRec row).Describes data :=
  ⟨h.transactionId, h.issuerHash, h.typeId, h.subjectId, h.amount, h.credentialId, h.details⟩

theorem records_of_record {d : Delivery} {data : Json} {max : Option Int} {r : AgentTransaction}
    (hs : d.Starts .creditTransaction data)
    (hr : TransactionMessageHandler.record hash32 d.context (some data) max = .ok r) (id : Nat) (now : Json) :
    (r.row id now).Records d data := by
  rw [record_ok hr]
  exact ⟨hs, rfl, rfl, rfl, rfl, rfl, rfl, rfl, rfl⟩

/-! ## The invariant -/

/-- What a reply says has happened: an `accepted` reply has its row, and each record of a report comes from a
message delivered to the same agent. -/
structure MayIssue (w : World) (m : SendMessage) : Prop where
  accepted : ∀ t transaction, m.msg = .creditTransaction .accepted t transaction →
    ∃ row ∈ w.rows, ∃ d ∈ w.delivered, ∃ data,
      row.Records d data ∧ d.agentId = m.agentId ∧ Json.field (some data) "id" = t
  reported : ∀ id tdcFspId recs, m.msg = .transactionReportRequest .completed id tdcFspId (.records recs) →
    ∀ rec ∈ recs, ∃ d ∈ w.delivered, ∃ data,
      d.Starts .creditTransaction data ∧ d.agentId = m.agentId ∧ rec.Describes data

theorem MayIssue.later {w w' : World} {m : SendMessage} (h : MayIssue w m) (hw : w.Grows w') :
    MayIssue w' m where
  accepted t transaction ht := by
    obtain ⟨row, hrow, d, hd, rest⟩ := h.accepted t transaction ht
    exact ⟨row, hw.rows.subset hrow, d, hw.delivered.subset hd, rest⟩
  reported id tdcFspId recs hm rec hrec := by
    obtain ⟨d, hd, rest⟩ := h.reported id tdcFspId recs hm rec hrec
    exact ⟨d, hw.delivered.subset hd, rest⟩

structure ReportInv (w : World) : Prop where
  rows : ∀ row ∈ w.rows, ∃ d ∈ w.delivered, ∃ data, row.Records d data
  sent : ∀ m ∈ w.sent, MayIssue w m

theorem ReportInv.insert {w : World} (h : ReportInv w) {d : Delivery} (hd : d ∈ w.delivered) {data : Json}
    {now : Json} {r : AgentTransaction} (hr : (r.row w.nextId now).Records d data) :
    ReportInv (w.insert now r) where
  rows row hrow := by
    rcases List.mem_append.mp hrow with hrow | hrow
    · exact h.rows row hrow
    · rw [List.mem_singleton.mp hrow]
      exact ⟨d, hd, data, hr⟩
  sent m hm := (h.sent m hm).later (w.grows_insert now r)

theorem ReportInv.issue {w : World} (h : ReportInv w) {m : SendMessage} (hm : MayIssue w m) :
    ReportInv (w.issue m) where
  rows := h.rows
  sent m' hm' := by
    rcases List.mem_append.mp hm' with hm' | hm'
    · exact (h.sent m' hm').later (w.grows_issue m)
    · rw [List.mem_singleton.mp hm']
      exact hm.later (w.grows_issue m)

/-- The records of a `completed` report are those of the agent's rows at the query. -/
def Reports (w : World) (m : SendMessage) : Prop :=
  ∀ id tdcFspId recs, m.msg = .transactionReportRequest .completed id tdcFspId (.records recs) →
    recs.Perm ((w.rows.filter fun row => row.agentId == m.agentId).map ReportMessageHandler.reportRec)

theorem Reports.accepted {w : World} {m m' : SendMessage} {id tdcFspId : Option Json}
    {recs : List TxReportResponseDto} (h : Reports w m)
    (hm : m.msg = .transactionReportRequest .completed id tdcFspId (.records recs)) (hm' : MayIssue w m')
    (hagent : m'.agentId = m.agentId) {t transaction : Option Json}
    (ht : m'.msg = .creditTransaction .accepted t transaction) :
    ∃ rec ∈ recs, rec.transactionId = column t ∧ ∃ d ∈ w.delivered, d.agentId = m.agentId ∧
      ∃ data, d.Starts .creditTransaction data ∧ Json.field (some data) "id" = t ∧ rec.Describes data := by
  obtain ⟨row, hrow, d, hd, data, hrec, hda, hid⟩ := hm'.accepted t transaction ht
  have hmine : row.agentId = m.agentId := hrec.agentId.trans (hda.trans hagent)
  refine ⟨ReportMessageHandler.reportRec row, ?_, ?_, d, hd, hda.trans hagent, data, hrec.starts, hid,
    hrec.describes⟩
  · rw [(h id tdcFspId recs hm).mem_iff]
    exact List.mem_map_of_mem (List.mem_filter.mpr ⟨hrow, by simp [hmine]⟩)
  · rw [← hid]
    exact hrec.transactionId

def reportRely : Rely World where
  inv := ReportInv
  rel := World.Grows
  refl := World.Grows.refl
  trans := World.Grows.trans

def reportTerms : Terms World Op Choice where
  guard resumed _ op := ∀ m, op = .sendMessage m → MayIssue resumed m ∧ Reports resumed m

theorem reportInv_send {m : SendMessage} {ch : Choice} {w w' : World} {a} (hinv : ReportInv w)
    (hm : MayIssue w m) (h : answer (.sendMessage m) ch w = some (a, w')) :
    ReportInv w' ∧ w.Grows w' := by
  rw [answer_send h]
  exact ⟨hinv.issue hm, w.grows_issue m⟩

theorem mayIssue_report {w : World} {d : Delivery} (data : Json) (state : TransactionMessageStatesEnum)
    {rows : List Row} (hinv : ReportInv w)
    (hrows : rows.Perm (w.rows.filter fun row => row.agentId == d.agentId)) :
    MayIssue w (d.reportReply data state (.records (rows.map ReportMessageHandler.reportRec))) where
  accepted t transaction ht := by cases ht
  reported id tdcFspId recs hm rec hrec := by
    cases hm
    obtain ⟨row, hrow, rfl⟩ := List.mem_map.mp hrec
    obtain ⟨hrow, hagent⟩ := List.mem_filter.mp (hrows.mem_iff.mp hrow)
    obtain ⟨d', hd', data', hr⟩ := hinv.rows row hrow
    exact ⟨d', hd', data', hr.starts, hr.agentId.symm.trans (beq_iff_eq.mp hagent), hr.describes⟩

theorem mayIssue_empty (w : World) (d : Delivery) (data : Json) (state : TransactionMessageStatesEnum) :
    MayIssue w (d.reportReply data state .empty) where
  accepted t transaction ht := by cases ht
  reported id tdcFspId recs hm := by cases hm

/-! ## The two runs keep to the terms -/

theorem creditRun_reports {d : Delivery} {data : Json} (hs : d.Starts .creditTransaction data) {w : World}
    (hd : d ∈ w.delivered) :
    machine.Ensures reportRely reportTerms (creditRun hash32 d data) (fun _ _ => True) w := by
  intro w₁ hw₁ hinv₁
  refine ⟨fun m he => (by cases he), fun ch a w₂ _ ha => ?_⟩
  obtain ⟨rfl, _⟩ := answer_getMax ha
  refine ⟨⟨hinv₁, .refl _⟩, fun res _ => ?_⟩
  cases res with
  | error e => exact fun _ _ _ => trivial
  | ok max =>
      cases hr : TransactionMessageHandler.record hash32 d.context (some data) max with
      | error e => simp only [hr]; exact fun _ _ _ => trivial
      | ok record =>
          simp only [hr]
          intro w₃ hw₃ hinv₃
          have hd₃ : d ∈ w₃.delivered := hw₃.delivered.subset (hw₁.delivered.subset hd)
          refine ⟨fun m he => (by cases he), fun ch' a' w₄ _ ha' => ?_⟩
          rcases answer_save ha' with ⟨_, _, now, rfl⟩ | ⟨_, rfl, e, rfl⟩
          · have hrec := records_of_record hs hr w₃.nextId now
            have hinv₄ := hinv₃.insert hd₃ hrec
            refine ⟨⟨hinv₄, answer_grows ha'⟩, fun res' _ => ?_⟩
            cases res' with
            | error e => exact fun _ _ _ => trivial
            | ok u =>
                -- the row has just been committed, so the reply may go out
                have hmay : MayIssue (w₃.insert now record) (d.acceptedReply data) := by
                  refine ⟨fun t transaction ht => ?_, fun _ _ _ hm => (by cases hm)⟩
                  cases ht
                  exact ⟨_, List.mem_append_right _ (List.mem_singleton.mpr rfl), d, hd₃, data, hrec, rfl, rfl⟩
                intro w₅ hw₅ hinv₅
                refine ⟨fun m he => ?_, fun _ _ _ _ ha'' => ?_⟩
                · cases he
                  exact ⟨hmay, fun _ _ _ hm => (by cases hm)⟩
                · exact ⟨reportInv_send hinv₅ (hmay.later hw₅) ha'', fun _ _ _ _ _ => trivial⟩
          · exact ⟨⟨hinv₃, .refl _⟩, fun res' he => (by cases he; exact fun _ _ _ => trivial)⟩

theorem reportRun_reports (d : Delivery) (data : Json) (w : World) :
    machine.Ensures reportRely reportTerms (reportRun d data) (fun _ _ => True) w := by
  intro w₁ _ hinv₁
  refine ⟨fun m he => ?_, fun ch a w₂ _ ha => ?_⟩
  · cases he
    exact ⟨mayIssue_empty _ _ _ _, fun _ _ _ hm => (by cases hm)⟩
  refine ⟨reportInv_send hinv₁ (mayIssue_empty _ _ _ _) ha, fun res _ => ?_⟩
  cases res with
  | error e => exact fun _ _ _ => trivial
  | ok u =>
      intro w₃ _ hinv₃
      refine ⟨fun m he => (by cases he), fun ch' a' w₄ _ ha' => ?_⟩
      obtain ⟨rfl, hrows⟩ := answer_getAll ha'
      refine ⟨⟨hinv₃, .refl _⟩, fun res' hres' => ?_⟩
      cases res' with
      | error e => exact fun _ _ _ => trivial
      | ok rows =>
          have hmay := mayIssue_report data .completed hinv₃ (hrows rows hres')
          intro w₅ hw₅ hinv₅
          refine ⟨fun m he => ?_, fun _ _ _ _ ha'' => ?_⟩
          · cases he
            refine ⟨hmay, fun id tdcFspId recs hm => ?_⟩
            cases hm
            exact (hrows rows hres').map _
          · exact ⟨reportInv_send hinv₅ (hmay.later hw₅) ha'', fun _ _ _ _ _ => trivial⟩

theorem ReportInv.arrive {w : World} (h : ReportInv w) (d : Delivery) :
    ReportInv { w with delivered := w.delivered ++ [d] } where
  rows row hrow := by
    obtain ⟨d', hd', rest⟩ := h.rows row hrow
    exact ⟨d', List.mem_append_left _ hd', rest⟩
  sent m hm := (h.sent m hm).later ⟨List.prefix_rfl, List.prefix_rfl, List.prefix_append _ _⟩

theorem reportSound : (system hash32).Sound reportRely (fun _ => True) (fun _ _ => reportTerms)
    (fun _ _ _ _ => True) where
  arrive d w _ hinv := ⟨hinv.arrive d, List.prefix_rfl, List.prefix_rfl, List.prefix_append _ _⟩
  body d w _ _ _ := by
    show machine.Ensures _ _ (basicMessageHandler hash32 d) _ _
    rcases basicMessageHandler_cases hash32 d with ⟨r, hr⟩ | ⟨data, hs, hr⟩ | ⟨data, _, hr⟩
    · rw [hr]; exact fun _ _ _ => trivial
    · rw [hr]; exact creditRun_reports hs (List.mem_append_right _ (List.mem_singleton.mpr rfl))
    · rw [hr]; exact reportRun_reports d data _
  env e := e.elim

theorem reportsOk {ls : List (Label Choice Delivery Empty)} {c : Config JsError Op.Val World Delivery Unit}
    (hrun : (system hash32).run (.init .empty) ls = some c) :
    c.Ok (system hash32) reportRely (fun _ => True) (fun _ _ => reportTerms) (fun _ _ _ _ => True) := by
  have hinit : ReportInv World.empty := ⟨fun _ hrow => (by cases hrow), fun _ hm => (by cases hm)⟩
  refine Config.Ok.run reportSound (.init hinit) (System.along_of_mem (fun l _ _ => ?_) _) hrun
  cases l with
  | begin d => trivial
  | answer i ch => exact fun _ _ _ _ _ => trivial
  | env e => trivial

/-- The requests issued so far: those answered, and those under way. -/
def Issued (c : Config JsError Op.Val World Delivery Unit) (m : SendMessage) : Prop :=
  m ∈ c.world.sent ∨ ∃ th ∈ c.threads, ∃ next, th.prog = .await (.sendMessage m) next

theorem mayIssue_of_issued {ls : List (Label Choice Delivery Empty)}
    {c : Config JsError Op.Val World Delivery Unit}
    (hrun : (system hash32).run (.init .empty) ls = some c) {m : SendMessage} (hm : Issued c m) :
    MayIssue c.world m := by
  have hok := reportsOk hrun
  rcases hm with hm | ⟨th, hth, next, hprog⟩
  · exact hok.inv.sent m hm
  · exact (hok.guard hth hprog m rfl).1.later (hok.threads th hth).resumed

theorem found_resumed {c c' : Config JsError Op.Val World Delivery Unit} {i : Nat} {rows : List Row}
    {th : Thread JsError Op.Val World Delivery Unit}
    (h : (system hash32).step c (.answer i (.found rows)) = some c') (hth : c'.threads[i]? = some th) :
    th.resumed = c.world := by
  obtain ⟨th₀, op, next, a, w, hth₀, -, hans, -, hcase⟩ := System.step_answer h
  have hw : w = c.world ∧ a ≠ none := by
    cases op with
    | getAllTransactions agentId =>
        simp only [system, machine, answer] at hans
        split at hans
        · cases hans
          exact ⟨rfl, by simp⟩
        · cases hans
    | _ => cases hans
  obtain ⟨rfl, ha⟩ := hw
  rcases hcase with ⟨rfl, -⟩ | ⟨r, -, hths⟩
  · exact absurd rfl ha
  · obtain ⟨hi, -⟩ := List.getElem?_eq_some_iff.mp hth₀
    rw [hths, List.getElem?_set_self hi] at hth
    cases hth
    rfl

end GuardianshipAgency.Transactions
