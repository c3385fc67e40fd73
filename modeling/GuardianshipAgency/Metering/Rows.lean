import GuardianshipAgency.Async.Dues
import GuardianshipAgency.Transactions.Theorems

/-!
# How often transactions are recorded

Every delivery of a started transaction that is handled without an error has a row of its own, and no delivery has two.
-/

namespace GuardianshipAgency.Transactions

open Js Async

variable {hash32 : Option Json → Except JsError String} {key : String × Json}

/-- The delivery starts the transaction with this key. -/
def Delivery.starts (key : String × Json) (d : Delivery) : Bool := d.key? == some key

def Op.saves (key : String × Json) : Op → Bool
  | .saveTransaction r => (r.agentId, column r.transactionId) == key
  | _ => false

/-! ## Started transactions -/

theorem key?_of_starts {d : Delivery} {data : Json} (h : d.Starts .creditTransaction data) :
    d.key? = some (d.agentId, column (Json.field (some data) "id")) := by
  simp [Delivery.key?, h.parsed, field_of_prop h.type, field_of_prop h.state, isString]

theorem prop_of_field {v : Option Json} {name : String} {x : Json} (h : Json.field v name = some x) :
    Json.prop v name = .ok (some x) := by
  unfold Json.field at h
  cases hprop : Json.prop v name with
  | error e =>
      rw [hprop] at h
      cases h
  | ok y =>
      rw [hprop] at h
      exact congrArg _ h

theorem starts_of_key? {d : Delivery} (h : d.key? = some key) : ∃ data, d.Starts .creditTransaction data := by
  unfold Delivery.key? at h
  split at h
  · cases h
  · rename_i data hparse
    split at h
    · rename_i hstarted
      obtain ⟨htype, hstate⟩ := Bool.and_eq_true_iff.mp hstarted
      exact ⟨data, hparse, prop_of_field (isString_iff.mp htype), prop_of_field (isString_iff.mp hstate)⟩
    · cases h

theorem basicMessageHandler_of_credit {d : Delivery} {data : Json} (h : d.Starts .creditTransaction data) :
    basicMessageHandler hash32 d = creditRun hash32 d data := by
  have hhandler : getMessageHandler d.context (some (.str TransactionMessageTypesEnum.creditTransaction.text)) =
      .ok (some (.transaction d.context)) := rfl
  unfold basicMessageHandler
  simp only [h.parsed, h.type, hhandler, Prog.ofExcept_eq, Prog.settled_ok_bind]
  exact transactionRespond_run h.state

theorem basicMessageHandler_of_report {d : Delivery} {data : Json} (h : d.Starts .transactionRequest data) :
    basicMessageHandler hash32 d = reportRun d data := by
  have hhandler : getMessageHandler d.context (some (.str TransactionMessageTypesEnum.transactionRequest.text)) =
      .ok (some (.report d.context)) := rfl
  unfold basicMessageHandler
  simp only [h.parsed, h.type, hhandler, Prog.ofExcept_eq, Prog.settled_ok_bind]
  exact reportRespond_run h.state

/-! ## What a handler saves -/

theorem record_saves {d : Delivery} {data : Json} (h : d.Starts .creditTransaction data) {max : Option Int}
    {record : AgentTransaction}
    (hrecord : TransactionMessageHandler.record hash32 d.context (some data) max = .ok record) :
    (Op.saveTransaction record).saves key = d.starts key := by
  rw [Delivery.starts, key?_of_starts h, record_ok hrecord]
  rfl

/-- A handler saves no more than the transaction that its message starts, and that once. -/
theorem creditRun_saves {d : Delivery} {data : Json} (h : d.Starts .creditTransaction data) :
    (creditRun hash32 d data).AtMost (Op.saves key) (d.starts key).toNat := by
  refine (Prog.AtMost.await_free rfl).mpr fun max => ?_
  cases max with
  | error e => trivial
  | ok max =>
      dsimp only
      cases hrecord : TransactionMessageHandler.record hash32 d.context (some data) max with
      | error e => trivial
      | ok record =>
          rw [← record_saves h hrecord, ← Nat.zero_add ((Op.saveTransaction record).saves key).toNat]
          refine .await fun saved => ?_
          cases saved with
          | error e => trivial
          | ok u => exact (Prog.AtMost.await_free rfl).mpr fun _ => trivial

/-- A handler that succeeds has saved the transaction that its message starts. -/
theorem creditRun_saved {d : Delivery} {data : Json} (h : d.Starts .creditTransaction data) :
    (creditRun hash32 d data).AtLeast (Op.saves key) (d.starts key).toNat := by
  refine ⟨fun max => ?_, fun _ => trivial⟩
  dsimp only
  cases hrecord : TransactionMessageHandler.record hash32 d.context (some data) max with
  | error e => trivial
  | ok record =>
      refine ⟨fun u => ?_, fun _ => trivial⟩
      rw [record_saves h hrecord]
      refine ⟨fun v => ?_, fun _ => trivial⟩
      show (d.starts key).toNat - (Op.getMaxMerkelOrder.saves key).toNat - (d.starts key).toNat - _ = 0
      omega

theorem body_saves (d : Delivery) :
    ((system hash32).body d).AtMost (Op.saves key) (d.starts key).toNat := by
  show (basicMessageHandler hash32 d).AtMost _ _
  rcases basicMessageHandler_cases hash32 d with ⟨r, hr⟩ | ⟨data, hs, hr⟩ | ⟨data, hs, hr⟩
  · rw [hr]
    trivial
  · rw [hr]
    exact creditRun_saves hs
  · rw [hr]
    refine .of_calls ((reportRun_calls d data).mono fun op hop => ?_)
    cases op with
    | saveTransaction r => exact absurd rfl (hop r)
    | _ => rfl

theorem body_saved (d : Delivery) :
    ((system hash32).body d).AtLeast (Op.saves key) (d.starts key).toNat := by
  show (basicMessageHandler hash32 d).AtLeast _ _
  cases hkey : d.starts key with
  | false => exact .zero
  | true =>
      obtain ⟨data, hs⟩ := starts_of_key? (beq_iff_eq.mp hkey)
      rw [basicMessageHandler_of_credit hs, ← hkey]
      exact creditRun_saved hs

/-! ## Runs -/

theorem World.insert_keys (w : World) (now : Json) (r : AgentTransaction) :
    (keys (w.insert now r).rows).count key = (keys w.rows).count key + ((Op.saveTransaction r).saves key).toNat := by
  have hrow : keys (w.insert now r).rows = keys w.rows ++ [(r.agentId, column r.transactionId)] := List.map_append
  rw [hrow, List.count_append, List.count_singleton, Op.saves]
  cases (r.agentId, column r.transactionId) == key <;> rfl

/-- A row is paid for by the delivery that saves it. -/
theorem metered (hash32 : Option Json → Except JsError String) (key : String × Json) :
    (system hash32).Metered (Op.saves key) (fun d => (d.starts key).toNat) (fun _ => 0)
      (fun w => (keys w.rows).count key) where
  body := body_saves
  arrive _ _ := Nat.le_refl _
  answer op ch w a w' h := by
    rcases answer_rows h with hrows | ⟨r, now, rfl, -, rfl⟩
    · exact .inl (Nat.le_of_eq (by rw [hrows]))
    · rw [World.insert_keys]
      cases hop : (Op.saveTransaction r).saves key with
      | false => exact .inl (Nat.le_refl _)
      | true =>
          refine .inr ⟨rfl, fun hlost => ?_, Nat.le_refl _⟩
          subst hlost
          obtain ⟨m, he⟩ := answer_lost h
          cases he
  env e := e.elim

theorem owing (hash32 : Option Json → Except JsError String) (key : String × Json) :
    (system hash32).Owing (Op.saves key) (fun d => (d.starts key).toNat) (fun _ => 0)
      (fun w => (keys w.rows).count key) where
  body := body_saved
  arrive _ _ := Nat.le_refl _
  answer op ch w a w' h := by
    refine ⟨((answer_grows h).rows.sublist.map Row.key).count_le key, fun hop v hv => ?_⟩
    cases op with
    | saveTransaction r =>
        rcases answer_save h with ⟨-, -, now, rfl⟩ | ⟨-, -, e, he⟩
        · rw [World.insert_keys, hop]
          exact Nat.le_refl _
        · rw [hv] at he
          cases he
    | _ => cases hop
  env e := e.elim

/-- In every run from the empty table, a transaction has a row for each delivery of it that was handled without an
error, and no more rows than deliveries. -/
theorem rows_accounted {ls : List (Label Choice Delivery Empty)} {c : Config JsError Op.Val World Delivery Unit}
    (hrun : (system hash32).run (.init .empty) ls = some c) (key : String × Json) :
    (c.threads.filter Thread.succeeded).countP (fun th => th.call.starts key) ≤ (keys c.world.rows).count key ∧
      (keys c.world.rows).count key ≤ (begun ls).countP (Delivery.starts key) := by
  have hmost := (metered hash32 key).bounded hrun
  have hleast := (owing hash32 key).covered hrun
  have hempty : (keys World.empty.rows).count key = 0 := rfl
  rw [List.sum_map_add, sum_toNat (Delivery.starts key), List.sum_map_zero, List.sum_map_zero, hempty] at hmost
  rw [sum_toNat fun th : Thread JsError Op.Val World Delivery Unit => th.call.starts key, List.sum_map_zero,
    List.sum_map_zero, hempty] at hleast
  exact ⟨by omega, by omega⟩

/-- A transaction is delivered three times: the first reply is sent twice, the second fails after the row was
committed, and the third is not yet saved. -/
def creditedThrice : List (Label Choice Delivery Empty) :=
  [.begin (sampleCredit "t1"), .begin (sampleCredit "t1"), .begin (sampleCredit "t1"), .answer 0 .ok,
    .answer 0 (.committed (.str "now")), .answer 0 .lost, .answer 0 .ok, .answer 1 .ok,
    .answer 1 (.committedThenFailed (.str "now") (Json.typeError "no answer")), .answer 2 .ok]

theorem rows_accounted_creditedThrice : ∃ c, (system sampleHash).run (.init .empty) creditedThrice = some c ∧
    (keys c.world.rows).count ("fsp", .str "t1") = 2 ∧
    (c.threads.filter Thread.succeeded).countP (fun th => th.call.starts ("fsp", .str "t1")) ≤
      (keys c.world.rows).count ("fsp", .str "t1") ∧
    (keys c.world.rows).count ("fsp", .str "t1") ≤
      (begun creditedThrice).countP (Delivery.starts ("fsp", .str "t1")) := by
  have hrun : ((system sampleHash).run (.init .empty) creditedThrice).map
      (fun c => (keys c.world.rows).count ("fsp", .str "t1")) = some 2 := by decide +kernel
  obtain ⟨c, hc, hrows⟩ := Option.map_eq_some_iff.mp hrun
  exact ⟨c, hc, hrows, rows_accounted hc ("fsp", .str "t1")⟩

end GuardianshipAgency.Transactions
