import GuardianshipAgency.Ledger.Model
import GuardianshipAgency.Transactions.Lemmas.Orders
import GuardianshipAgency.Transactions.Lemmas.Recorded
import GuardianshipAgency.Transactions.Theorems

/-!
# Deliveries one after the other keep a ledger
-/

namespace GuardianshipAgency.Transactions

open Js Async Sequence

variable {hash32 : Option Json → Except JsError String}

namespace Ledger

/-! ## Rows and entries -/

theorem Represents.orders_eq {rows : List Row} {es : List Entry} (h : Represents hash32 rows es) :
    Consecutive (orders rows) := by
  have hmap : orders rows = es.zipIdx.map fun e => (e.2 : Int) + 1 :=
    List.forall₂_eq_eq_eq ▸ (List.forall₂_map_left_iff.mpr (List.forall₂_map_right_iff.mpr
      (h.imp fun _ _ hrow => hrow.1)))
  have hplaces : es.zipIdx.map (fun e => (e.2 : Int) + 1) =
      (List.range es.length).map fun i : Nat => (i : Int) + 1 := by
    rw [List.range_eq_range', ← List.zipIdx_map_snd 0 es, List.map_map]
    rfl
  have hlength : (orders rows).length = es.length := by rw [hmap, List.length_map, List.length_zipIdx]
  rw [Consecutive, hlength, hmap, hplaces]

theorem Represents.concat {rows : List Row} {es : List Entry} (h : Represents hash32 rows es) {row : Row}
    {d : Delivery} {data : Json} (horder : row.merkelOrder = succMax (orders rows)) (hrecords : row.Records d data)
    (hhash : hash32 (Json.field (Json.field (some data) "transaction") "fspHash") = .ok row.merkelHash) :
    Represents hash32 (rows ++ [row]) (es ++ [⟨d, data⟩]) := by
  have hlength : (orders rows).length = es.length := by
    rw [orders, List.length_map, h.length_eq, List.length_zipIdx]
  rw [h.orders_eq.succMax_eq, hlength] at horder
  rw [Represents, List.zipIdx_append]
  exact List.rel_append h (.cons ⟨by simpa using horder, hrecords, hhash⟩ .nil)

/-- A query for the rows of an agent finds its part of the ledger. -/
theorem Represents.lists {rows found : List Row} {es : List Entry} (h : Represents hash32 rows es) {agentId : String}
    (hfound : found.Perm (rows.filter fun row => row.agentId == agentId)) :
    Lists es agentId (found.map ReportMessageHandler.reportRec) := by
  refine ⟨_, hfound.map _, ?_⟩
  rw [List.forall₂_map_left_iff, part]
  have hagree : ∀ {rows : List Row} {places : List (Entry × Nat)},
      List.Forall₂ (fun (row : Row) (e : Entry × Nat) => row.merkelOrder = e.2 + 1 ∧ row.Records e.1.delivery e.1.data ∧
        hash32 (Json.field (Json.field (some e.1.data) "transaction") "fspHash") = .ok row.merkelHash) rows places →
      List.Forall₂ (fun (row : Row) (e : Entry × Nat) => (ReportMessageHandler.reportRec row).order = e.2 + 1 ∧
        (ReportMessageHandler.reportRec row).Describes e.1.data) (rows.filter fun row => row.agentId == agentId)
        (places.filter fun e => e.1.delivery.agentId == agentId) := by
    intro rows places hrows
    induction hrows with
    | nil => exact .nil
    | @cons row e rows places hrow _ ih =>
        rw [List.filter_cons, List.filter_cons, hrow.2.1.agentId]
        split
        · exact .cons ⟨hrow.1, hrow.2.1.describes⟩ ih
        · exact ih
  exact hagree h

end Ledger

/-! ## One delivery -/

theorem send_exec {m : SendMessage} {next : Except JsError Unit → Prog JsError Op.Val Unit} {w w' : World} {r}
    (h : machine.Exec (.await (.sendMessage m) next) w r w') :
    ∃ res ms w₁, (∀ m' ∈ ms, m' = m) ∧ w₁.rows = w.rows ∧ w₁.sent = w.sent ++ ms ∧
      machine.Exec (next res) w₁ r w' := by
  generalize hp : (Prog.await (Op.sendMessage m) next : Prog JsError Op.Val Unit) = p at h
  induction h with
  | settled => cases hp
  | @answered op next' ch w a w₁ r w' ha hnext _ =>
      cases hp
      rw [answer_send ha] at hnext
      exact ⟨a, [m], w.issue m, by simp, rfl, rfl, hnext⟩
  | @retried op next' ch w w₁ r w' ha _ ih =>
      cases hp
      obtain ⟨res, ms, w₂, hms, hrows, hsent, hnext⟩ := ih rfl
      rw [answer_send ha] at hrows hsent
      refine ⟨res, m :: ms, w₂, by simpa using hms, hrows, ?_, hnext⟩
      rw [hsent]
      simp [World.issue]

theorem record_hash {ctx : HandlerContext} {message : Option Json} {max : Option Int} {r : AgentTransaction}
    (h : TransactionMessageHandler.record hash32 ctx message max = .ok r) :
    hash32 (Json.field (Json.field message "transaction") "fspHash") = .ok r.merkelHash := by
  have h := prop_bind_ok (prop_bind_ok (prop_bind_ok (prop_bind_ok (prop_bind_ok h))))
  cases hm : hash32 (Json.field (Json.field message "transaction") "fspHash") with
  | error e =>
      rw [hm] at h
      cases h
  | ok merkelHash =>
      rw [hm] at h
      have h := prop_bind_ok (prop_bind_ok (prop_bind_ok (prop_bind_ok (prop_bind_ok (prop_bind_ok h)))))
      cases h
      rfl

open Ledger

theorem creditRun_handles {d : Delivery} {data : Json} (hs : d.Starts .creditTransaction data) {w w' : World} {r}
    (h : machine.Exec (creditRun hash32 d data) w r w') {es : List Entry} (hes : Represents hash32 w.rows es) :
    ∃ es' ms, Handles es d ms es' ∧ Represents hash32 w'.rows es' ∧ w'.sent = w.sent ++ ms := by
  obtain ⟨ch, res, w₁, ha, hnext⟩ := Machine.Exec.await_once (answer_once fun _ => Op.noConfusion) h
  obtain ⟨rfl, hmax⟩ := answer_getMax ha
  cases res with
  | error e =>
      obtain ⟨-, rfl⟩ := Machine.Exec.settled_inv hnext
      exact ⟨es, [], .ignored, hes, (List.append_nil _).symm⟩
  | ok max =>
      cases hr : TransactionMessageHandler.record hash32 d.context (some data) max with
      | error e =>
          simp only [hr] at hnext
          obtain ⟨-, rfl⟩ := Machine.Exec.settled_inv hnext
          exact ⟨es, [], .ignored, hes, (List.append_nil _).symm⟩
      | ok record =>
          simp only [hr] at hnext
          obtain ⟨ch', res', w₂, ha', hnext'⟩ := Machine.Exec.await_once (answer_once fun _ => Op.noConfusion) hnext
          rcases answer_save ha' with ⟨-, -, now, rfl⟩ | ⟨-, rfl, e, he⟩
          · have hrecords := records_of_record hs hr w₁.nextId now
            have horder : (record.row w₁.nextId now).merkelOrder = succMax (orders w₁.rows) := by
              rw [record_ok hr, ← nextOrder_maxMerkelOrder, hmax max rfl]
              rfl
            have hes' := hes.concat horder hrecords (record_hash hr)
            cases res' with
            | error e =>
                obtain ⟨-, rfl⟩ := Machine.Exec.settled_inv hnext'
                exact ⟨_, [], .recorded hs (by simp), hes', (List.append_nil _).symm⟩
            | ok u =>
                obtain ⟨res, ms, w₃, hms, hrows, hsent, hrest⟩ := send_exec hnext'
                obtain ⟨-, rfl⟩ := Machine.Exec.settled_inv hrest
                exact ⟨_, ms, .recorded hs hms, hrows ▸ hes', hsent⟩
          · cases he
            obtain ⟨-, rfl⟩ := Machine.Exec.settled_inv hnext'
            exact ⟨es, [], .ignored, hes, (List.append_nil _).symm⟩

theorem reportRun_handles {d : Delivery} {data : Json} (hs : d.Starts .transactionRequest data) {w w' : World} {r}
    (h : machine.Exec (reportRun d data) w r w') {es : List Entry} (hes : Represents hash32 w.rows es) :
    ∃ es' ms, Handles es d ms es' ∧ Represents hash32 w'.rows es' ∧ w'.sent = w.sent ++ ms := by
  obtain ⟨res, acks, w₁, hacks, hrows₁, hsent₁, hnext⟩ := send_exec h
  rw [← hrows₁] at hes
  cases res with
  | error e =>
      obtain ⟨-, rfl⟩ := Machine.Exec.settled_inv hnext
      exact ⟨es, acks, .reported hs fun m hm => .inl (hacks m hm), hes, hsent₁⟩
  | ok u =>
      obtain ⟨ch, res, w₂, ha, hnext⟩ := Machine.Exec.await_once (answer_once fun _ => Op.noConfusion) hnext
      obtain ⟨rfl, hfound⟩ := answer_getAll ha
      cases res with
      | error e =>
          obtain ⟨-, rfl⟩ := Machine.Exec.settled_inv hnext
          exact ⟨es, acks, .reported hs fun m hm => .inl (hacks m hm), hes, hsent₁⟩
      | ok rows =>
          obtain ⟨res, reports, w₃, hreports, hrows₃, hsent₃, hrest⟩ := send_exec hnext
          obtain ⟨-, rfl⟩ := Machine.Exec.settled_inv hrest
          refine ⟨es, acks ++ reports, .reported hs fun m hm => ?_, hrows₃ ▸ hes, ?_⟩
          · rcases List.mem_append.mp hm with hm | hm
            · exact .inl (hacks m hm)
            · exact .inr ⟨_, hes.lists (hfound rows rfl), hreports m hm⟩
          · rw [hsent₃, hsent₁, List.append_assoc]

theorem delivery_handles {d : Delivery} {w w' : World} {r} (h : machine.Exec (basicMessageHandler hash32 d) w r w')
    {es : List Entry} (hes : Represents hash32 w.rows es) :
    ∃ es' ms, Handles es d ms es' ∧ Represents hash32 w'.rows es' ∧ w'.sent = w.sent ++ ms := by
  rcases basicMessageHandler_cases hash32 d with ⟨r, hr⟩ | ⟨data, hs, hr⟩ | ⟨data, hs, hr⟩
  · rw [hr] at h
    obtain ⟨-, rfl⟩ := Machine.Exec.settled_inv h
    exact ⟨es, [], .ignored, hes, (List.append_nil _).symm⟩
  · rw [hr] at h
    exact creditRun_handles hs h hes
  · rw [hr] at h
    exact reportRun_handles hs h hes

/-! ## A sequence of deliveries -/

theorem Delivered.ledger {w w' : World} {ds : List Delivery} (h : Delivered hash32 w ds w') {es : List Entry}
    (hes : Represents hash32 w.rows es) :
    ∃ es' ms, Ledger.Run es ds ms es' ∧ Represents hash32 w'.rows es' ∧ w'.sent = w.sent ++ ms := by
  induction h generalizing es with
  | nil => exact ⟨es, [], .nil, hes, (List.append_nil _).symm⟩
  | cons hd _ ih =>
      obtain ⟨es₁, ms, hhandles, hes₁, hsent⟩ := delivery_handles hd hes
      obtain ⟨es', ms', hrun, hes', hsent'⟩ := ih hes₁
      refine ⟨es', ms ++ ms', .cons hhandles hrun, hes', ?_⟩
      rw [hsent', hsent, List.append_assoc]

/-- Deliveries handled one after the other, with whatever failures, keep a ledger: its entries are deliveries in their
order, the rows are the entries numbered from 1, and every message sent is one that the ledger allows at that
point. -/
theorem delivered_keeps_ledger {ds : List Delivery} {w : World} (h : Delivered hash32 .empty ds w) :
    ∃ es, Ledger.Run [] ds w.sent es ∧ Represents hash32 w.rows es ∧ (es.map Entry.delivery).Sublist ds := by
  have hempty : Represents hash32 World.empty.rows [] := .nil
  obtain ⟨es, ms, hrun, hes, hsent⟩ := h.ledger hempty
  obtain ⟨new, hnew, hsublist⟩ := hrun.appends
  rw [List.nil_append] at hnew
  rw [show w.sent = ms from hsent]
  exact ⟨es, hrun, hes, hnew ▸ hsublist⟩

/-- A transaction is delivered twice, and then reported. -/
theorem delivered_keeps_ledger_redelivered : ∃ w,
    Delivered sampleHash .empty [sampleCredit "t1", sampleCredit "t1", sampleReport] w ∧
    w.rows.map Row.merkelOrder = [1, 2] ∧
    ∃ es, Ledger.Run [] [sampleCredit "t1", sampleCredit "t1", sampleReport] w.sent es ∧
      Represents sampleHash w.rows es ∧
      (es.map Entry.delivery).Sublist [sampleCredit "t1", sampleCredit "t1", sampleReport] := by
  have hplay : (machine.play (basicMessageHandler sampleHash (sampleCredit "t1"))
      { World.empty with delivered := [] ++ [sampleCredit "t1"] }
      [.ok, .committed (.str "now"), .failed (Json.typeError "no answer")]).bind (fun rw₁ =>
        (machine.play (basicMessageHandler sampleHash (sampleCredit "t1"))
          { rw₁.2 with delivered := rw₁.2.delivered ++ [sampleCredit "t1"] }
          [.ok, .committed (.str "now"), .lost, .ok]).bind fun rw₂ =>
            (machine.play (basicMessageHandler sampleHash sampleReport)
              { rw₂.2 with delivered := rw₂.2.delivered ++ [sampleReport] }
              [.ok, .found [{ sampleRow with id := 2, merkelOrder := 2 }, sampleRow], .ok]).map fun rw₃ =>
                rw₃.2.rows.map Row.merkelOrder) = some [1, 2] := by decide +kernel
  obtain ⟨⟨r₁, w₁⟩, h₁, hplay⟩ := Option.bind_eq_some_iff.mp hplay
  obtain ⟨⟨r₂, w₂⟩, h₂, hplay⟩ := Option.bind_eq_some_iff.mp hplay
  obtain ⟨⟨r₃, w₃⟩, h₃, horders⟩ := Option.map_eq_some_iff.mp hplay
  have hw : Delivered sampleHash .empty [sampleCredit "t1", sampleCredit "t1", sampleReport] w₃ :=
    .cons (.of_play h₁) (.cons (.of_play h₂) (.cons (.of_play h₃) .nil))
  exact ⟨w₃, hw, horders, delivered_keeps_ledger hw⟩

end GuardianshipAgency.Transactions
