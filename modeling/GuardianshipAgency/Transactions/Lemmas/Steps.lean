import GuardianshipAgency.Async.Lemmas.Pool
import GuardianshipAgency.Transactions.Lemmas.Shape

/-!
# What one call does to the table

Rows, issued messages and deliveries are only ever added.
-/

namespace GuardianshipAgency.Transactions

open Js Async

structure World.Grows (w w' : World) : Prop where
  rows : w.rows <+: w'.rows
  sent : w.sent <+: w'.sent
  delivered : w.delivered <+: w'.delivered

theorem World.Grows.refl (w : World) : w.Grows w :=
  ⟨List.prefix_rfl, List.prefix_rfl, List.prefix_rfl⟩

theorem World.Grows.trans {w₁ w₂ w₃ : World} (h₁ : w₁.Grows w₂) (h₂ : w₂.Grows w₃) : w₁.Grows w₃ :=
  ⟨h₁.rows.trans h₂.rows, h₁.sent.trans h₂.sent, h₁.delivered.trans h₂.delivered⟩

theorem World.grows_insert (w : World) (now : Json) (r : AgentTransaction) : w.Grows (w.insert now r) :=
  ⟨List.prefix_append _ _, List.prefix_rfl, List.prefix_rfl⟩

theorem World.grows_issue (w : World) (m : SendMessage) : w.Grows (w.issue m) :=
  ⟨List.prefix_rfl, List.prefix_append _ _, List.prefix_rfl⟩

/-! ## The answers, call by call -/

def Choice.commits : Choice → Bool
  | .committed _ | .committedThenFailed _ _ => true
  | _ => false

theorem answer_getMax {ch : Choice} {w w' : World} {a}
    (h : answer .getMaxMerkelOrder ch w = some (a, w')) :
    w' = w ∧ ∀ max, a = some (.ok max) → max = maxMerkelOrder w.rows := by
  cases ch with
  | ok =>
      cases h
      exact ⟨rfl, fun max he => by cases he; rfl⟩
  | failed e =>
      cases h
      exact ⟨rfl, fun max he => by cases he⟩
  | _ => cases h

theorem answer_save {r : AgentTransaction} {ch : Choice} {w w' : World} {a}
    (h : answer (.saveTransaction r) ch w = some (a, w')) :
    (ch.commits = true ∧ r.insertable = true ∧ ∃ now, w' = w.insert now r) ∨
      (ch.commits = false ∧ w' = w ∧ ∃ e, a = some (.error e)) := by
  cases ch with
  | committed now =>
      obtain ⟨hr, he⟩ := Option.ite_none_right_eq_some.mp h
      cases he
      exact .inl ⟨rfl, hr, now, rfl⟩
  | committedThenFailed now e =>
      obtain ⟨hr, he⟩ := Option.ite_none_right_eq_some.mp h
      cases he
      exact .inl ⟨rfl, hr, now, rfl⟩
  | failed e =>
      cases h
      exact .inr ⟨rfl, rfl, e, rfl⟩
  | _ => cases h

theorem answer_getAll {agentId : String} {ch : Choice} {w w' : World} {a}
    (h : answer (.getAllTransactions agentId) ch w = some (a, w')) :
    w' = w ∧ ∀ rows, a = some (.ok rows) →
      rows.Perm (w.rows.filter fun row => row.agentId == agentId) := by
  cases ch with
  | found rows =>
      obtain ⟨hp, he⟩ := Option.ite_none_right_eq_some.mp h
      cases he
      exact ⟨rfl, fun rows' he => by cases he; exact hp⟩
  | failed e =>
      cases h
      exact ⟨rfl, fun rows he => by cases he⟩
  | _ => cases h

theorem answer_send {m : SendMessage} {ch : Choice} {w w' : World} {a}
    (h : answer (.sendMessage m) ch w = some (a, w')) : w' = w.issue m := by
  cases ch with
  | ok => cases h; rfl
  | failed e => cases h; rfl
  | lost => cases h; rfl
  | _ => cases h

/-- Only messages are sent again. -/
theorem answer_lost {op : Op} {ch : Choice} {w w' : World} (h : answer op ch w = some (none, w')) :
    ∃ m, op = .sendMessage m := by
  cases op with
  | sendMessage m => exact ⟨m, rfl⟩
  | getMaxMerkelOrder => cases ch <;> cases h
  | saveTransaction r =>
      cases ch with
      | committed now =>
          obtain ⟨-, he⟩ := Option.ite_none_right_eq_some.mp h
          cases he
      | committedThenFailed now e =>
          obtain ⟨-, he⟩ := Option.ite_none_right_eq_some.mp h
          cases he
      | _ => cases h
  | getAllTransactions agentId =>
      cases ch with
      | found rows =>
          obtain ⟨-, he⟩ := Option.ite_none_right_eq_some.mp h
          cases he
      | _ => cases h

theorem answer_once {op : Op} (hop : ∀ m, op ≠ .sendMessage m) (ch : Choice) (w w' : World) :
    machine.answer op ch w ≠ some (none, w') := fun h => by
  obtain ⟨m, he⟩ := answer_lost h
  exact hop m he

theorem answer_grows {op : Op} {ch : Choice} {w w' : World} {a} (h : answer op ch w = some (a, w')) :
    w.Grows w' := by
  cases op with
  | getMaxMerkelOrder => obtain ⟨rfl, _⟩ := answer_getMax h; exact .refl _
  | saveTransaction r =>
      rcases answer_save h with ⟨_, _, now, rfl⟩ | ⟨_, rfl, _⟩
      · exact w.grows_insert now r
      · exact .refl _
  | getAllTransactions agentId => obtain ⟨rfl, _⟩ := answer_getAll h; exact .refl _
  | sendMessage m => rw [answer_send h]; exact w.grows_issue m

/-- Only a committed `saveTransaction` changes the rows. -/
theorem answer_rows {op : Op} {ch : Choice} {w w' : World} {a} (h : answer op ch w = some (a, w')) :
    w'.rows = w.rows ∨ ∃ r now, op = .saveTransaction r ∧ ch.commits = true ∧ w' = w.insert now r := by
  cases op with
  | getMaxMerkelOrder => obtain ⟨rfl, _⟩ := answer_getMax h; exact .inl rfl
  | saveTransaction r =>
      rcases answer_save h with ⟨hc, _, now, rfl⟩ | ⟨_, rfl, _⟩
      · exact .inr ⟨r, now, rfl, hc, rfl⟩
      · exact .inl rfl
  | getAllTransactions agentId => obtain ⟨rfl, _⟩ := answer_getAll h; exact .inl rfl
  | sendMessage m => rw [answer_send h]; exact .inl rfl

theorem reportRun_calls (d : Delivery) (data : Json) :
    (reportRun d data).Calls fun op => ∀ r, op ≠ .saveTransaction r := by
  refine ⟨(fun r he => by cases he), fun res => ?_⟩
  cases res with
  | error e => trivial
  | ok u =>
      refine ⟨(fun r he => by cases he), fun res => ?_⟩
      cases res with
      | error e => trivial
      | ok rows => exact ⟨(fun r he => by cases he), fun _ => trivial⟩

end GuardianshipAgency.Transactions
