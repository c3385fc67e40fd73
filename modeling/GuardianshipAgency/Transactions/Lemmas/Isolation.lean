import GuardianshipAgency.Sequence.Rank
import GuardianshipAgency.Transactions.Lemmas.Orders
import GuardianshipAgency.Transactions.Lemmas.Recorded

/-!
# What an agent's reports show of other agents

What one delivery does to the rows and the reports of an agent, read off the choices made for its calls. The orders
of its rows are the only thing that other agents take part in.
-/

namespace GuardianshipAgency.Transactions

open Js Async Sequence

variable {hash32 : Option Json → Except JsError String}

/-! ## Outcomes -/

/-- The two outcomes are the same, up to the order in which the database returns rows. -/
def Choice.SameAs : Choice → Choice → Prop
  | .found _, .found _ => True
  | ch, ch' => ch = ch'

def Choice.isFound : Choice → Bool
  | .found _ => true
  | _ => false

def Choice.committedAt? : Choice → Option Json
  | .committed now | .committedThenFailed now _ => some now
  | _ => none

theorem Choice.SameAs.isFound {ch ch' : Choice} (h : ch.SameAs ch') : ch.isFound = ch'.isFound := by
  unfold SameAs at h
  split at h
  · rfl
  · rw [h]

theorem Choice.SameAs.committedAt? {ch ch' : Choice} (h : ch.SameAs ch') :
    ch.committedAt? = ch'.committedAt? := by
  unfold SameAs at h
  split at h
  · rfl
  · rw [h]

/-- The default timestamp of the row that is committed, if one is. -/
def committedNow? (cs : List Choice) : Option Json := cs.findSome? Choice.committedAt?

/-- How often a report is sent once the rows are found. -/
def reportSends (cs : List Choice) : ℕ := (cs.dropWhile fun ch => !ch.isFound).tail.length

theorem committedNow?_congr {cs cs' : List Choice} (h : List.Forall₂ Choice.SameAs cs cs') :
    committedNow? cs = committedNow? cs' := by
  induction h with
  | nil => rfl
  | cons hch _ ih =>
      simp only [committedNow?, List.findSome?_cons, hch.committedAt?] at ih ⊢
      rw [ih]

theorem reportSends_congr {cs cs' : List Choice} (h : List.Forall₂ Choice.SameAs cs cs') :
    reportSends cs = reportSends cs' := by
  induction h with
  | nil => rfl
  | cons hch hrest ih =>
      simp only [reportSends, List.dropWhile_cons, hch.isFound] at ih ⊢
      split
      · exact ih
      · simp [hrest.length_eq]

/-! ## Reports -/

def reportOf? (m : SendMessage) : Option (List TxReportResponseDto) :=
  match m.msg with
  | .transactionReportRequest .completed _ _ (.records recs) => some recs
  | _ => none

/-- The `completed` reports that an agent has sent. -/
def World.reports (w : World) (agentId : String) : List (List TxReportResponseDto) :=
  (w.sent.filter fun m => m.agentId == agentId).filterMap reportOf?

/-- The records with their ranks for orders. -/
def ranked (recs : List TxReportResponseDto) : List TxReportResponseDto :=
  recs.map fun rec => { rec with order := rank (recs.map TxReportResponseDto.order) rec.order }

def World.ownRows (w : World) (agentId : String) : List Row := w.rows.filter fun row => row.agentId == agentId

/-- The row less the columns that depend on the rest of the table. -/
def Row.content (row : Row) : Row := { row with id := 0, merkelOrder := 0 }

/-! ## One run -/

theorem send_isFound {m : SendMessage} {ch : Choice} {w w' : World} {a}
    (h : answer (.sendMessage m) ch w = some (a, w')) : ch.isFound = false := by
  cases ch with
  | found rows => cases h
  | _ => rfl

theorem getMax_committedAt? {ch : Choice} {w w' : World} {a}
    (h : answer .getMaxMerkelOrder ch w = some (a, w')) : ch.committedAt? = none := by
  cases ch with
  | committed now => cases h
  | committedThenFailed now e => cases h
  | _ => rfl

theorem save_committedAt? {r : AgentTransaction} {ch : Choice} {w w' : World} {a}
    (h : answer (.saveTransaction r) ch w = some (a, w')) :
    w'.rows = w.rows ++ ch.committedAt?.toList.map (r.row w.nextId) ∧ w'.sent = w.sent ∧
      ((∃ e, a = some (.error e)) ∨ (a = some (.ok ()) ∧ ∃ now, ch.committedAt? = some now)) := by
  cases ch with
  | committed now =>
      obtain ⟨-, h⟩ := Option.ite_none_right_eq_some.mp h
      cases h
      exact ⟨rfl, rfl, .inr ⟨rfl, now, rfl⟩⟩
  | committedThenFailed now e =>
      obtain ⟨-, h⟩ := Option.ite_none_right_eq_some.mp h
      cases h
      exact ⟨rfl, rfl, .inl ⟨e, rfl⟩⟩
  | failed e =>
      cases h
      exact ⟨by simp [Choice.committedAt?], rfl, .inl ⟨e, rfl⟩⟩
  | _ => cases h

theorem getAll_isFound {agentId : String} {ch : Choice} {w w' : World} {a}
    (h : answer (.getAllTransactions agentId) ch w = some (a, w')) :
    w' = w ∧ ((∃ e, a = some (.error e) ∧ ch.isFound = false) ∨
      ∃ found, a = some (.ok found) ∧ ch.isFound = true ∧ found.Perm (w.ownRows agentId)) := by
  cases ch with
  | found rows =>
      obtain ⟨hperm, h⟩ := Option.ite_none_right_eq_some.mp h
      cases h
      exact ⟨rfl, .inr ⟨rows, rfl, rfl, hperm⟩⟩
  | failed e =>
      cases h
      exact ⟨rfl, .inl ⟨e, rfl, rfl⟩⟩
  | _ => cases h

/-- A message may be sent several times, once for each choice. -/
theorem send_play {m : SendMessage} {cs : List Choice} {w w' : World} {r}
    (h : machine.play (.await (.sendMessage m) .settled) w cs = some (r, w')) :
    w'.rows = w.rows ∧ w'.sent = w.sent ++ List.replicate cs.length m := by
  induction cs generalizing w with
  | nil => cases h
  | cons ch cs ih =>
      obtain ⟨_, _, a, w₁, he, ha, hnext⟩ := Machine.play_await_inv h
      cases he
      obtain rfl := answer_send ha
      rcases hnext with ⟨-, hnext⟩ | ⟨res, -, hnext⟩
      · obtain ⟨hrows, hsent⟩ := ih hnext
        refine ⟨hrows, ?_⟩
        rw [hsent, World.issue, List.append_assoc, List.length_cons, List.replicate_succ]
        rfl
      · obtain ⟨rfl, -, rfl⟩ := Machine.play_settled_inv hnext
        exact ⟨rfl, rfl⟩

/-- The maximum goes into the order of the record and nothing else. -/
theorem record_max (ctx : HandlerContext) (message : Option Json) (max : Option Int) :
    TransactionMessageHandler.record hash32 ctx message max =
      (fun r : AgentTransaction => { r with merkelOrder := nextOrder max }) <$>
        TransactionMessageHandler.record hash32 ctx message none := by
  simp only [TransactionMessageHandler.record, map_bind, map_pure]

/-- The rows that a started transaction adds. -/
def creditedRows (hash32 : Option Json → Except JsError String) (d : Delivery) (data : Json) (w : World)
    (cs : List Choice) : List Row :=
  match TransactionMessageHandler.record hash32 d.context (some data) none with
  | .error _ => []
  | .ok r =>
      (committedNow? cs).toList.map
        (({ r with merkelOrder := succMax (orders w.rows) } : AgentTransaction).row w.nextId)

theorem creditRun_play {d : Delivery} {data : Json} {cs : List Choice} {w w' : World} {r}
    (h : machine.play (creditRun hash32 d data) w cs = some (r, w')) :
    w'.rows = w.rows ++ creditedRows hash32 d data w cs ∧
      ∃ n, w'.sent = w.sent ++ List.replicate n (d.acceptedReply data) := by
  obtain ⟨ch, cs₁, res, w₁, rfl, ha, hrecord⟩ := Machine.play_await_once (answer_once fun _ => Op.noConfusion) h
  obtain ⟨rfl, hmax⟩ := answer_getMax ha
  have hcommitted : committedNow? (ch :: cs₁) = committedNow? cs₁ := by
    simp [committedNow?, getMax_committedAt? ha]
  unfold creditedRows
  rw [hcommitted]
  cases res with
  | error e =>
      obtain ⟨rfl, -, rfl⟩ := Machine.play_settled_inv hrecord
      refine ⟨?_, 0, by simp⟩
      split <;> simp [committedNow?]
  | ok max =>
      obtain rfl := hmax max rfl
      simp only [record_max d.context (some data) (maxMerkelOrder w₁.rows), nextOrder_maxMerkelOrder] at hrecord
      cases hr : TransactionMessageHandler.record hash32 d.context (some data) none with
      | error e =>
          rw [hr] at hrecord
          obtain ⟨rfl, -, rfl⟩ := Machine.play_settled_inv hrecord
          exact ⟨by simp, 0, by simp⟩
      | ok record =>
          rw [hr] at hrecord
          obtain ⟨ch', cs₂, saved, w₂, rfl, hsave, hreply⟩ :=
            Machine.play_await_once (answer_once fun _ => Op.noConfusion) hrecord
          obtain ⟨hrows, hsent, ⟨e, he⟩ | ⟨he, now, hnow⟩⟩ := save_committedAt? hsave
          · cases he
            obtain ⟨rfl, -, rfl⟩ := Machine.play_settled_inv hreply
            exact ⟨by simpa [committedNow?] using hrows, 0, by simpa using hsent⟩
          · cases he
            obtain ⟨hrows', hsent'⟩ := send_play hreply
            refine ⟨?_, cs₂.length, by rw [hsent', hsent]⟩
            rw [hrows', hrows]
            simp only [committedNow?, List.findSome?_cons, hnow]

theorem reportRun_play {d : Delivery} {data : Json} {cs : List Choice} {w w' : World} {r}
    (h : machine.play (reportRun d data) w cs = some (r, w')) :
    w'.rows = w.rows ∧ ∃ n, ∃ found : List Row, found.Perm (w.ownRows d.agentId) ∧
      w'.sent = w.sent ++ List.replicate n (d.reportReply data .accepted .empty) ++
        List.replicate (reportSends cs)
          (d.reportReply data .completed (.records (found.map ReportMessageHandler.reportRec))) := by
  induction cs generalizing w with
  | nil => cases h
  | cons ch cs ih =>
      obtain ⟨_, _, a, w₁, he, ha, hnext⟩ := Machine.play_await_inv h
      cases he
      obtain rfl := answer_send ha
      have hsends : reportSends (ch :: cs) = reportSends cs := by
        simp [reportSends, send_isFound ha]
      rw [hsends]
      rcases hnext with ⟨-, hnext⟩ | ⟨res, -, hnext⟩
      · obtain ⟨hrows, n, found, hperm, hsent⟩ := ih hnext
        refine ⟨hrows, n + 1, found, hperm, ?_⟩
        rw [hsent, World.issue, List.replicate_succ]
        simp
      · cases res with
        | error e =>
            obtain ⟨rfl, -, rfl⟩ := Machine.play_settled_inv hnext
            exact ⟨rfl, 1, w.ownRows d.agentId, .refl _, by simp [World.issue, reportSends]⟩
        | ok u =>
            obtain ⟨ch', cs', rows, w₂, rfl, hans, hreport⟩ :=
              Machine.play_await_once (answer_once fun _ => Op.noConfusion) hnext
            obtain ⟨rfl, ⟨e, he, hnot⟩ | ⟨found, he, hfound, hperm⟩⟩ := getAll_isFound hans
            · cases he
              obtain ⟨rfl, -, rfl⟩ := Machine.play_settled_inv hreport
              exact ⟨rfl, 1, w.ownRows d.agentId, .refl _, by simp [World.issue, reportSends, hnot]⟩
            · cases he
              obtain ⟨hrows, hsent⟩ := send_play hreport
              refine ⟨hrows, 1, found, hperm, ?_⟩
              rw [hsent]
              simp [World.issue, reportSends, hfound]

theorem creditedRows_cases (hash32 : Option Json → Except JsError String) (d : Delivery) (data : Json) (w : World)
    (cs : List Choice) : creditedRows hash32 d data w cs = [] ∨
      ∃ row, creditedRows hash32 d data w cs = [row] ∧ row.agentId = d.agentId ∧
        row.merkelOrder = succMax (orders w.rows) := by
  unfold creditedRows
  split
  · exact .inl rfl
  · rename_i r hr
    cases hnow : committedNow? cs with
    | none => exact .inl rfl
    | some now =>
        refine .inr ⟨_, rfl, ?_, rfl⟩
        have hagent : r.agentId = d.agentId := by
          rw [record_ok hr]
          rfl
        simpa [AgentTransaction.row] using hagent

theorem creditedRows_content {d : Delivery} {data : Json} {w w' : World} {cs cs' : List Choice}
    (h : List.Forall₂ Choice.SameAs cs cs') :
    (creditedRows hash32 d data w cs).map Row.content = (creditedRows hash32 d data w' cs').map Row.content := by
  unfold creditedRows
  rw [committedNow?_congr h]
  split
  · rfl
  · cases committedNow? cs' <;> rfl

theorem reports_sent {w w' : World} {agentId : String} {ms : List SendMessage} (h : w'.sent = w.sent ++ ms) :
    w'.reports agentId = w.reports agentId ++ (ms.filter fun m => m.agentId == agentId).filterMap reportOf? := by
  simp [World.reports, h]

theorem ownRows_append {w w' : World} {agentId : String} {rows : List Row} (h : w'.rows = w.rows ++ rows) :
    w'.ownRows agentId = w.ownRows agentId ++ rows.filter fun row => row.agentId == agentId := by
  simp [World.ownRows, h]

/-! ## Deliveries to others -/

/-- A delivery shows nothing to other agents, and numbers its row after all rows before. -/
theorem delivery_other {d : Delivery} {cs : List Choice} {w w' : World} {r}
    (h : machine.play (basicMessageHandler hash32 d) w cs = some (r, w')) :
    (Consecutive (orders w.rows) → Consecutive (orders w'.rows)) ∧
      ∀ agentId, d.agentId ≠ agentId → w'.ownRows agentId = w.ownRows agentId ∧
        w'.reports agentId = w.reports agentId := by
  rcases basicMessageHandler_cases hash32 d with ⟨r₀, hr⟩ | ⟨data, -, hr⟩ | ⟨data, -, hr⟩
  · rw [hr] at h
    obtain ⟨-, -, rfl⟩ := Machine.play_settled_inv h
    exact ⟨fun hw => hw, fun _ _ => ⟨rfl, rfl⟩⟩
  · rw [hr] at h
    obtain ⟨hrows, n, hsent⟩ := creditRun_play h
    rcases creditedRows_cases hash32 d data w cs with hnone | ⟨row, hrow, hagent, horder⟩
    · rw [hnone, List.append_nil] at hrows
      refine ⟨fun hw => hrows ▸ hw, fun agentId hne => ⟨by simp [World.ownRows, hrows], ?_⟩⟩
      rw [reports_sent hsent]
      simp [Delivery.acceptedReply, hne]
    · rw [hrow] at hrows
      refine ⟨fun hw => ?_, fun agentId hne => ⟨?_, ?_⟩⟩
      · rw [hrows, orders, List.map_append, List.map_cons, List.map_nil, horder]
        exact Consecutive.concat hw
      · rw [ownRows_append hrows]
        simp [hagent, hne]
      · rw [reports_sent hsent]
        simp [Delivery.acceptedReply, hne]
  · rw [hr] at h
    obtain ⟨hrows, n, found, -, hsent⟩ := reportRun_play h
    refine ⟨fun hw => hrows ▸ hw, fun agentId hne => ⟨by simp [World.ownRows, hrows], ?_⟩⟩
    rw [List.append_assoc] at hsent
    rw [reports_sent hsent]
    simp [Delivery.reportReply, hne]

/-! ## Two runs -/

/-- The reports are equal as multisets once each order is replaced by its rank in its report. -/
def SameReport (recs recs' : List TxReportResponseDto) : Prop := (ranked recs).Perm (ranked recs')

/-- The tables hold the same for an agent but for the orders, and the agent has sent the same reports but for the
gaps between them. -/
structure Alike (agentId : String) (w w' : World) : Prop where
  orders : Consecutive (orders w.rows)
  orders' : Consecutive (Transactions.orders w'.rows)
  contents : (w.ownRows agentId).map Row.content = (w'.ownRows agentId).map Row.content
  reports : List.Forall₂ SameReport (w.reports agentId) (w'.reports agentId)

theorem ranked_perm {recs recs' : List TxReportResponseDto} (h : recs.Perm recs') :
    (ranked recs).Perm (ranked recs') := by
  unfold ranked
  rw [rank_perm (h.map TxReportResponseDto.order)]
  exact h.map _

theorem ownRows_increasing {w : World} (h : Consecutive (orders w.rows)) (agentId : String) :
    ((w.ownRows agentId).map Row.merkelOrder).Pairwise (· < ·) :=
  h.pairwise.sublist (List.filter_sublist.map _)

/-- Ranks and contents determine the records of increasing rows. -/
theorem ranked_getElem? {rows : List Row} (h : (rows.map Row.merkelOrder).Pairwise (· < ·)) {i : ℕ}
    (hi : i < rows.length) : (ranked (rows.map ReportMessageHandler.reportRec))[i]? =
      ((rows.map Row.content)[i]?).map fun row =>
        { ReportMessageHandler.reportRec row with order := (i : Int) + 1 } := by
  have horders : (rows.map ReportMessageHandler.reportRec).map TxReportResponseDto.order =
      rows.map Row.merkelOrder := by
    rw [List.map_map]
    rfl
  have hi' : i < (rows.map Row.merkelOrder).length := by simpa using hi
  have hrank := rank_getElem h hi'
  rw [List.getElem_map] at hrank
  unfold ranked
  rw [horders]
  simp only [List.getElem?_map, List.getElem?_eq_getElem hi, Option.map_some]
  simp [ReportMessageHandler.reportRec, Row.content, hrank]

theorem ranked_eq {rows rows' : List Row} (h : (rows.map Row.merkelOrder).Pairwise (· < ·))
    (h' : (rows'.map Row.merkelOrder).Pairwise (· < ·)) (hc : rows.map Row.content = rows'.map Row.content) :
    ranked (rows.map ReportMessageHandler.reportRec) = ranked (rows'.map ReportMessageHandler.reportRec) := by
  have hlength : rows.length = rows'.length := by simpa using congrArg List.length hc
  refine List.ext_getElem? fun i => ?_
  by_cases hi : i < rows.length
  · rw [ranked_getElem? h hi, ranked_getElem? h' (hlength ▸ hi), hc]
  · have hnone : (ranked (rows.map ReportMessageHandler.reportRec)).length ≤ i := by simpa [ranked] using hi
    have hnone' : (ranked (rows'.map ReportMessageHandler.reportRec)).length ≤ i := by
      simpa [ranked, ← hlength] using hi
    rw [List.getElem?_eq_none hnone, List.getElem?_eq_none hnone']

theorem Alike.found {agentId : String} {w w' : World} (h : Alike agentId w w') {found found' : List Row}
    (hf : found.Perm (w.ownRows agentId)) (hf' : found'.Perm (w'.ownRows agentId)) :
    SameReport (found.map ReportMessageHandler.reportRec) (found'.map ReportMessageHandler.reportRec) := by
  have hsame := ranked_eq (ownRows_increasing h.orders agentId) (ownRows_increasing h.orders' agentId) h.contents
  exact (ranked_perm (hf.map _)).trans (hsame ▸ (ranked_perm (hf'.map _)).symm)

/-- A delivery to another agent on one side. -/
theorem Alike.other {agentId : String} {w w' w₁ : World} (h : Alike agentId w w') {d : Delivery} {cs : List Choice} {r}
    (hd : d.agentId ≠ agentId) (hplay : machine.play (basicMessageHandler hash32 d) w cs = some (r, w₁)) :
    Alike agentId w₁ w' := by
  obtain ⟨horders, hother⟩ := delivery_other hplay
  obtain ⟨hrows, hreports⟩ := hother agentId hd
  exact ⟨horders h.orders, h.orders', hrows ▸ h.contents, hreports ▸ h.reports⟩

theorem creditedRows_own (hash32 : Option Json → Except JsError String) (d : Delivery) (data : Json) (w : World)
    (cs : List Choice) : ((creditedRows hash32 d data w cs).filter fun row => row.agentId == d.agentId) =
      creditedRows hash32 d data w cs := by
  rcases creditedRows_cases hash32 d data w cs with hnone | ⟨row, hrow, hagent, -⟩
  · rw [hnone]
    rfl
  · rw [hrow]
    simp [hagent]

theorem reportOf?_replicate_accepted (d : Delivery) (data : Json) (n : ℕ) :
    ((List.replicate n (d.acceptedReply data)).filter fun m => m.agentId == d.agentId).filterMap reportOf? = [] := by
  refine List.filterMap_eq_nil_iff.mpr fun m hm => ?_
  rw [List.eq_of_mem_replicate (List.mem_of_mem_filter hm)]
  rfl

theorem reportOf?_replicate_report (d : Delivery) (data : Json) (n k : ℕ) (recs : List TxReportResponseDto) :
    ((List.replicate n (d.reportReply data .accepted .empty) ++
        List.replicate k (d.reportReply data .completed (.records recs))).filter
          fun m => m.agentId == d.agentId).filterMap reportOf? = List.replicate k recs := by
  have hnone : reportOf? (d.reportReply data .accepted .empty) = none := rfl
  have hsome : reportOf? (d.reportReply data .completed (.records recs)) = some recs := rfl
  have hall : ∀ m ∈ List.replicate n (d.reportReply data .accepted .empty) ++
      List.replicate k (d.reportReply data .completed (.records recs)), (m.agentId == d.agentId) = true := by
    intro m hm
    rcases List.mem_append.mp hm with hm | hm <;>
    · rw [List.eq_of_mem_replicate hm]
      exact beq_self_eq_true d.agentId
  rw [List.filter_eq_self.mpr hall, List.filterMap_append, List.filterMap_replicate_of_none hnone,
    List.filterMap_replicate_of_some hsome, List.nil_append]

theorem forall₂_replicate {α : Type} {R : α → α → Prop} {a b : α} (h : R a b) (n : ℕ) :
    List.Forall₂ R (List.replicate n a) (List.replicate n b) := by
  induction n with
  | zero => exact .nil
  | succ n ih => exact .cons h ih

/-- A delivery to the agent on both sides, with the same outcomes. -/
theorem Alike.own {d : Delivery} {w w' w₁ w₁' : World} (h : Alike d.agentId w w') {cs cs' : List Choice}
    {r r' : Except JsError Unit} (hcs : List.Forall₂ Choice.SameAs cs cs')
    (hplay : machine.play (basicMessageHandler hash32 d) w cs = some (r, w₁))
    (hplay' : machine.play (basicMessageHandler hash32 d) w' cs' = some (r', w₁')) : Alike d.agentId w₁ w₁' := by
  have horders := (delivery_other hplay).1 h.orders
  have horders' := (delivery_other hplay').1 h.orders'
  rcases basicMessageHandler_cases hash32 d with ⟨r₀, hr⟩ | ⟨data, -, hr⟩ | ⟨data, -, hr⟩
  · rw [hr] at hplay hplay'
    obtain ⟨-, -, rfl⟩ := Machine.play_settled_inv hplay
    obtain ⟨-, -, rfl⟩ := Machine.play_settled_inv hplay'
    exact h
  · rw [hr] at hplay hplay'
    obtain ⟨hrows, n, hsent⟩ := creditRun_play hplay
    obtain ⟨hrows', n', hsent'⟩ := creditRun_play hplay'
    refine ⟨horders, horders', ?_, ?_⟩
    · rw [ownRows_append hrows, ownRows_append hrows', creditedRows_own, creditedRows_own, List.map_append,
        List.map_append, h.contents, creditedRows_content hcs]
    · rw [reports_sent hsent, reports_sent hsent', reportOf?_replicate_accepted, reportOf?_replicate_accepted,
        List.append_nil, List.append_nil]
      exact h.reports
  · rw [hr] at hplay hplay'
    obtain ⟨hrows, n, found, hf, hsent⟩ := reportRun_play hplay
    obtain ⟨hrows', n', found', hf', hsent'⟩ := reportRun_play hplay'
    refine ⟨horders, horders', ?_, ?_⟩
    · simpa [World.ownRows, hrows, hrows'] using h.contents
    · rw [List.append_assoc] at hsent hsent'
      rw [reports_sent hsent, reports_sent hsent', reportOf?_replicate_report, reportOf?_replicate_report,
        reportSends_congr hcs]
      exact List.rel_append h.reports (forall₂_replicate (h.found hf hf') _)

/-! ## Runs -/

/-- The part of a run that is addressed to an agent. -/
def addressedTo (agentId : String) (run : List (Delivery × List Choice)) : List (Delivery × List Choice) :=
  run.filter fun dcs => dcs.1.agentId == agentId

/-- The same delivery with the same outcomes. -/
def SameHandling (dcs dcs' : Delivery × List Choice) : Prop :=
  dcs.1 = dcs'.1 ∧ List.Forall₂ Choice.SameAs dcs.2 dcs'.2

theorem addressedTo_cons_other {agentId : String} {dcs : Delivery × List Choice} {run : List (Delivery × List Choice)}
    (h : dcs.1.agentId ≠ agentId) : addressedTo agentId (dcs :: run) = addressedTo agentId run := by
  simp [addressedTo, h]

theorem addressedTo_cons_own (dcs : Delivery × List Choice) (run : List (Delivery × List Choice)) :
    addressedTo dcs.1.agentId (dcs :: run) = dcs :: addressedTo dcs.1.agentId run := by
  simp [addressedTo]

theorem Alike.arrive {agentId : String} {w w' : World} (h : Alike agentId w w') (d : Delivery) :
    Alike agentId { w with delivered := w.delivered ++ [d] } w' :=
  ⟨h.orders, h.orders', h.contents, h.reports⟩

theorem Alike.symm {agentId : String} {w w' : World} (h : Alike agentId w w') : Alike agentId w' w :=
  ⟨h.orders', h.orders, h.contents.symm, h.reports.flip.imp fun _ _ hsame => List.Perm.symm hsame⟩

theorem Alike.skipAll {agentId : String} {run : List (Delivery × List Choice)} {w w' w₁ : World}
    (h : Alike agentId w w') (hnone : addressedTo agentId run = [])
    (hrun : Transactions.handleAll hash32 w run = some w₁) : Alike agentId w₁ w' := by
  induction run generalizing w with
  | nil => cases hrun; exact h
  | cons dcs run ih =>
      obtain ⟨d, cs⟩ := dcs
      obtain ⟨rw₁, hplay, hrest⟩ := Option.bind_eq_some_iff.mp hrun
      have hd : d.agentId ≠ agentId := fun he => by simp [addressedTo, he] at hnone
      rw [addressedTo_cons_other hd] at hnone
      exact ih ((h.arrive d).other hd hplay) hnone hrest

/-- On one side, the deliveries to other agents before the next one to the agent. -/
theorem Alike.skip {agentId : String} {run rest : List (Delivery × List Choice)} {dcs : Delivery × List Choice}
    {w w' w₁ : World} (h : Alike agentId w w') (hnext : addressedTo agentId run = dcs :: rest)
    (hrun : Transactions.handleAll hash32 w run = some w₁) :
    ∃ w₂ run₂, Alike agentId w₂ w' ∧ addressedTo agentId run₂ = rest ∧
      Transactions.handleAll hash32 w₂ (dcs :: run₂) = some w₁ := by
  induction run generalizing w with
  | nil => cases hnext
  | cons dcs' run ih =>
      by_cases hd : dcs'.1.agentId = agentId
      · subst hd
        rw [addressedTo_cons_own] at hnext
        cases hnext
        exact ⟨w, run, h, rfl, hrun⟩
      · obtain ⟨d, cs⟩ := dcs'
        obtain ⟨rw₁, hplay, hrest⟩ := Option.bind_eq_some_iff.mp hrun
        rw [addressedTo_cons_other hd] at hnext
        exact ih ((h.arrive d).other hd hplay) hnext hrest

/-- Runs that differ in the deliveries to other agents only keep worlds alike. -/
theorem Alike.handleAll {agentId : String} {run run' : List (Delivery × List Choice)} {w w' w₁ w₁' : World}
    (h : Alike agentId w w')
    (hown : List.Forall₂ SameHandling (addressedTo agentId run) (addressedTo agentId run'))
    (hrun : Transactions.handleAll hash32 w run = some w₁)
    (hrun' : Transactions.handleAll hash32 w' run' = some w₁') : Alike agentId w₁ w₁' := by
  induction run generalizing run' w w' with
  | nil =>
      cases hrun
      exact (h.symm.skipAll (List.forall₂_nil_left_iff.mp hown) hrun').symm
  | cons dcs run ih =>
      obtain ⟨d, cs⟩ := dcs
      obtain ⟨rw₁, hplay, hrest⟩ := Option.bind_eq_some_iff.mp hrun
      by_cases hd : d.agentId = agentId
      · subst hd
        rw [addressedTo_cons_own (d, cs)] at hown
        obtain ⟨⟨d', cs'⟩, rest, ⟨hsame, hcs⟩, hown, hnext⟩ := List.forall₂_cons_left_iff.mp hown
        cases hsame
        obtain ⟨w₂, run₂, halike, hrest₂, hrun₂⟩ := h.symm.skip hnext hrun'
        obtain ⟨rw₂, hplay₂, hrun₂⟩ := Option.bind_eq_some_iff.mp hrun₂
        have hnow := ((halike.symm.arrive d).symm.arrive d).symm.own hcs hplay hplay₂
        exact ih hnow (hrest₂ ▸ hown) hrest hrun₂
      · rw [addressedTo_cons_other hd] at hown
        exact ih ((h.arrive d).other hd hplay) hown hrest hrun'

end GuardianshipAgency.Transactions
