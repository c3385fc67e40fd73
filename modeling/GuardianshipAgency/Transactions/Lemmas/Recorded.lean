import GuardianshipAgency.Async.Lemmas.Exec
import GuardianshipAgency.Transactions.Lemmas.Reports

/-!
# Deliveries handled one after the other

One delivery adds at most one row, and that row has the key of the delivery.
-/

namespace GuardianshipAgency.Transactions

open Js Async

variable {hash32 : Option Json → Except JsError String}

/-- What identifies a transaction: the agent and the message id, as the value that is saved. -/
def Row.key (row : Row) : String × Json := (row.agentId, row.transactionId)

/-- The key of the transaction that a delivery starts. -/
def Delivery.key? (d : Delivery) : Option (String × Json) :=
  match Json.parse d.content with
  | .error _ => none
  | .ok data =>
      if isString (Json.field (some data) "messageTypeId")
            TransactionMessageTypesEnum.creditTransaction.text &&
          isString (Json.field (some data) "state") TransactionMessageStatesEnum.started.text then
        some (d.agentId, column (Json.field (some data) "id"))
      else none

theorem field_of_prop {v x : Option Json} {key : String} (h : Json.prop v key = .ok x) :
    Json.field v key = x := by
  simp [Json.field, h, Except.toOption]

theorem Row.Records.key {row : Row} {d : Delivery} {data : Json} (h : row.Records d data) :
    d.key? = some row.key := by
  simp [Delivery.key?, h.starts.parsed, field_of_prop h.starts.type, field_of_prop h.starts.state, isString,
    Row.key, h.agentId, h.transactionId]

/-! ## One delivery -/

theorem rows_of_calls {p : Prog JsError Op.Val Unit} (hp : p.Calls fun op => ∀ r, op ≠ .saveTransaction r)
    {w w' : World} {r} (h : machine.Exec p w r w') : w'.rows = w.rows := by
  refine Machine.Exec.of_calls (fun w w' => w'.rows = w.rows) hp (fun _ => rfl)
    (fun {w₁ w₂ w₃} (h₁ : w₂.rows = w₁.rows) (h₂ : w₃.rows = w₂.rows) => h₂.trans h₁) ?_ h
  intro op ch w a w' hop ha
  rcases answer_rows ha with hr | ⟨r, _, rfl, _⟩
  · exact hr
  · exact absurd rfl (hop r)

theorem replyRun_calls (m : SendMessage) :
    (Prog.await (.sendMessage m) .settled : Prog JsError Op.Val Unit).Calls
      fun op => ∀ r, op ≠ .saveTransaction r :=
  ⟨fun r he => (by cases he), fun _ => trivial⟩

theorem creditRun_rows {d : Delivery} {data : Json} (hs : d.Starts .creditTransaction data) {w w' : World} {r}
    (h : machine.Exec (creditRun hash32 d data) w r w') :
    w'.rows = w.rows ∨ ∃ row, row.Records d data ∧ w'.rows = w.rows ++ [row] := by
  obtain ⟨ch, res, w₁, ha, hnext⟩ := Machine.Exec.await_once (answer_once fun _ => Op.noConfusion) h
  obtain ⟨rfl, _⟩ := answer_getMax ha
  cases res with
  | error e => exact .inl (by rw [(Machine.Exec.settled_inv hnext).2])
  | ok max =>
      cases hr : TransactionMessageHandler.record hash32 d.context (some data) max with
      | error e =>
          simp only [hr] at hnext
          exact .inl (by rw [(Machine.Exec.settled_inv hnext).2])
      | ok record =>
          simp only [hr] at hnext
          obtain ⟨ch', res', w₂, ha', hnext'⟩ := Machine.Exec.await_once (answer_once fun _ => Op.noConfusion) hnext
          have hrest : w'.rows = w₂.rows := by
            cases res' with
            | error e => rw [(Machine.Exec.settled_inv hnext').2]
            | ok u => exact rows_of_calls (replyRun_calls _) hnext'
          rcases answer_save ha' with ⟨_, _, now, rfl⟩ | ⟨_, rfl, _⟩
          · exact .inr ⟨_, records_of_record hs hr w₁.nextId now, hrest⟩
          · exact .inl hrest

theorem delivery_rows {d : Delivery} {w w' : World} {r}
    (h : machine.Exec (basicMessageHandler hash32 d) w r w') :
    w'.rows = w.rows ∨ ∃ row, d.key? = some row.key ∧ w'.rows = w.rows ++ [row] := by
  rcases basicMessageHandler_cases hash32 d with ⟨r, hr⟩ | ⟨data, hs, hr⟩ | ⟨data, _, hr⟩
  · rw [hr] at h
    exact .inl (by rw [(Machine.Exec.settled_inv h).2])
  · rw [hr] at h
    rcases creditRun_rows hs h with he | ⟨row, hrec, he⟩
    · exact .inl he
    · exact .inr ⟨row, hrec.key, he⟩
  · rw [hr] at h
    exact .inl (rows_of_calls (reportRun_calls d data) h)

/-! ## A sequence of deliveries -/

def keys (rows : List Row) : List (String × Json) := rows.map Row.key

section Columns

variable {τ : Type} [DecidableEq τ] {text : Json → τ} {w w' : World} {d : Delivery}

/-- The keys as the table has them, where `text` is what the column `transaction_id` makes of a message id. -/
def keysIn (text : Json → τ) (rows : List Row) : List (String × τ) := (keys rows).map (Prod.map id text)

def Delivery.keyIn? (text : Json → τ) (d : Delivery) : Option (String × τ) := d.key?.map (Prod.map id text)

theorem delivery_count (text : Json → τ) (key : String × τ) {delivered : List Delivery} {r}
    (h : machine.Exec (basicMessageHandler hash32 d) { w with delivered } r w') :
    (keysIn text w'.rows).count key ≤
      (keysIn text w.rows).count key + if d.keyIn? text = some key then 1 else 0 := by
  rcases delivery_rows h with hr | ⟨row, hkey, hr⟩
  · rw [hr]
    exact Nat.le_add_right _ _
  · have hrows : keysIn text w'.rows = keysIn text w.rows ++ [Prod.map id text row.key] := by
      simp [keysIn, keys, hr]
    rw [hrows, List.count_append, List.count_singleton, Delivery.keyIn?, hkey]
    simp

theorem Delivered.count_le {ds : List Delivery} (h : Delivered hash32 w ds w') (text : Json → τ) (key : String × τ) :
    (keysIn text w'.rows).count key ≤
      (keysIn text w.rows).count key + ds.countP fun d => d.keyIn? text == some key := by
  induction h with
  | nil => simp
  | @cons w d r w₁ ds w' hd _ ih =>
      have hone := delivery_count text key hd
      simp only [List.countP_cons, beq_iff_eq] at ih ⊢
      omega

/-- A key that has at most one row at first has two only if its transaction is delivered again when it has a row. -/
theorem Delivered.repeated {ds : List Delivery} {key : String × τ} (h : Delivered hash32 w ds w')
    (hw : (keysIn text w.rows).count key ≤ 1) (htwice : 2 ≤ (keysIn text w'.rows).count key) :
    ∃ pre d post w₁, ds = pre ++ d :: post ∧ Delivered hash32 w pre w₁ ∧ Delivered hash32 w₁ (d :: post) w' ∧
      d.keyIn? text = some key ∧ key ∈ keysIn text w₁.rows := by
  induction h with
  | nil => omega
  | @cons w d r w₁ ds w' hd hrest ih =>
      by_cases hrep : d.keyIn? text = some key ∧ key ∈ keysIn text w.rows
      · exact ⟨[], d, ds, w, rfl, .nil, .cons hd hrest, hrep⟩
      · have hone := delivery_count text key hd
        have hw₁ : (keysIn text w₁.rows).count key ≤ 1 := by
          split at hone
          · rename_i hkey
            have hnew : (keysIn text w.rows).count key = 0 :=
              List.count_eq_zero.mpr fun hmem => hrep ⟨hkey, hmem⟩
            omega
          · omega
        obtain ⟨pre, d', post, w₂, rfl, hpre, hpost, hagain⟩ := ih hw₁ htwice
        exact ⟨d :: pre, d', post, w₂, rfl, .cons hd hpre, hpost, hagain⟩

end Columns

end GuardianshipAgency.Transactions
