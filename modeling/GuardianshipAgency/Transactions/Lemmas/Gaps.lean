import GuardianshipAgency.Sequence.Gapless
import GuardianshipAgency.Transactions.Lemmas.Orders

/-!
# Orders without gaps

However the handlers interleave, the maximum that a handler has read is one of an earlier table, and the rows of an
earlier table are still there when the handler saves.
-/

namespace GuardianshipAgency.Transactions

open Js Async Sequence

variable {hash32 : Option Json → Except JsError String}

def gapsRely : Rely World where
  inv w := Gapless (orders w.rows)
  rel := World.Grows
  refl := World.Grows.refl
  trans := World.Grows.trans

theorem gaps_answer_other {op : Op} {ch : Choice} {w w' : World} {a} (hop : ∀ r, op ≠ .saveTransaction r)
    (hinv : gapsRely.inv w) (h : answer op ch w = some (a, w')) : gapsRely.inv w' ∧ gapsRely.rel w w' := by
  refine ⟨?_, answer_grows h⟩
  rcases answer_rows h with hr | ⟨r, _, rfl, _⟩
  · show Gapless (orders w'.rows)
    rw [hr]
    exact hinv
  · exact absurd rfl (hop r)

/-- A save with the number after the maximum of an earlier table. -/
theorem gaps_answer_save {r : AgentTransaction} {ch : Choice} {w₀ w w' : World} {a}
    (horder : r.merkelOrder = succMax (orders w₀.rows)) (hinv₀ : gapsRely.inv w₀) (hgrows : w₀.Grows w)
    (hinv : gapsRely.inv w) (h : answer (.saveTransaction r) ch w = some (a, w')) : gapsRely.inv w' := by
  rcases answer_save h with ⟨-, -, now, rfl⟩ | ⟨-, rfl, -⟩
  · show Gapless (orders (w.insert now r).rows)
    rw [orders_insert, horder]
    exact Gapless.concat hinv₀ hinv (hgrows.rows.map _).subset
  · exact hinv

theorem creditRun_gaps (d : Delivery) (data : Json) (w : World) :
    machine.Ensures gapsRely {} (creditRun hash32 d data) (fun _ _ => True) w := by
  intro w₁ _ hinv₁
  refine ⟨trivial, fun ch a w₂ _ ha => ?_⟩
  obtain ⟨rfl, hmax⟩ := answer_getMax ha
  refine ⟨⟨hinv₁, .refl _⟩, fun res hres => ?_⟩
  cases res with
  | error e => exact fun _ _ _ => trivial
  | ok max =>
      have hm := hmax max hres
      cases hr : TransactionMessageHandler.record hash32 d.context (some data) max with
      | error e => simp only [hr]; exact fun _ _ _ => trivial
      | ok record =>
          have horder : record.merkelOrder = succMax (orders w₂.rows) := by
            rw [record_ok hr, ← nextOrder_maxMerkelOrder, hm]
          simp only [hr]
          intro w₃ hw₃ hinv₃
          refine ⟨trivial, fun ch' a' w₄ _ ha' => ?_⟩
          refine ⟨⟨gaps_answer_save horder hinv₁ hw₃ hinv₃ ha', answer_grows ha'⟩, fun res' _ => ?_⟩
          cases res' with
          | error e => exact fun _ _ _ => trivial
          | ok u =>
              intro w₅ _ hinv₅
              exact ⟨trivial, fun _ _ _ _ ha'' =>
                ⟨gaps_answer_other (fun r he => by cases he) hinv₅ ha'', fun _ _ _ _ _ => trivial⟩⟩

theorem gapsSound : (system hash32).Sound gapsRely (fun _ => True) (fun _ _ => {}) (fun _ _ _ _ => True) where
  arrive d w _ hinv := ⟨hinv, List.prefix_rfl, List.prefix_rfl, List.prefix_append _ _⟩
  body d w _ _ _ := by
    show machine.Ensures _ _ (basicMessageHandler hash32 d) _ _
    rcases basicMessageHandler_cases hash32 d with ⟨r, hr⟩ | ⟨data, _, hr⟩ | ⟨data, _, hr⟩
    · rw [hr]; exact fun _ _ _ => trivial
    · rw [hr]; exact creditRun_gaps d data _
    · rw [hr]
      exact Machine.Ensures.of_calls (reportRun_calls d data) (fun _ _ _ _ _ _ => trivial)
        (fun op ch w₁ a w₂ hop hinv ha => gaps_answer_other hop hinv ha) fun _ _ _ => trivial
  env e := e.elim

theorem gapless_run {ls : List (Label Choice Delivery Empty)} {c : Config JsError Op.Val World Delivery Unit}
    (hrun : (system hash32).run (.init .empty) ls = some c) : Gapless (orders c.world.rows) := by
  have hinit : gapsRely.inv World.empty := Gapless.nil
  have hok : c.Ok (system hash32) gapsRely (fun _ => True) (fun _ _ => {}) (fun _ _ _ _ => True) := by
    refine Config.Ok.run gapsSound (.init hinit) (System.along_of_mem (fun l _ _ => ?_) _) hrun
    cases l with
    | begin d => trivial
    | answer i ch => exact fun _ _ _ _ _ => trivial
    | env e => trivial
  exact hok.inv

/-! ## Orders and their column -/

def OrdersFit (rows : List Row) : Prop := ∀ row ∈ rows, row.merkelOrder ≤ 2147483647

theorem ordersFit_answer {op : Op} {ch : Choice} {w w' : World} {a} (hw : OrdersFit w.rows)
    (h : answer op ch w = some (a, w')) : OrdersFit w'.rows := by
  cases op with
  | saveTransaction r =>
      rcases answer_save h with ⟨-, hr, now, rfl⟩ | ⟨-, rfl, -⟩
      · simp only [AgentTransaction.insertable, Bool.and_eq_true, decide_eq_true_eq] at hr
        intro row hrow
        rcases List.mem_append.mp hrow with hrow | hrow
        · exact hw row hrow
        · rw [List.mem_singleton.mp hrow]
          exact hr.2
      · exact hw
  | getMaxMerkelOrder =>
      rw [(answer_getMax h).1]
      exact hw
  | getAllTransactions agentId =>
      rw [(answer_getAll h).1]
      exact hw
  | sendMessage m =>
      rw [answer_send h]
      exact hw

theorem ordersFit_step {c c' : Config JsError Op.Val World Delivery Unit} {l : Label Choice Delivery Empty}
    (hc : OrdersFit c.world.rows) (h : (system hash32).step c l = some c') : OrdersFit c'.world.rows := by
  cases l with
  | begin d =>
      cases h
      exact hc
  | answer i ch =>
      obtain ⟨th, op, next, a, w, -, -, hans, hw, -⟩ := System.step_answer h
      rw [hw]
      exact ordersFit_answer hc hans
  | env e => exact e.elim

/-- Orders begin with 1 and fit into their column. -/
theorem order_bounds {ls : List (Label Choice Delivery Empty)} {c : Config JsError Op.Val World Delivery Unit}
    (hrun : (system hash32).run (.init .empty) ls = some c) {row : Row} (hrow : row ∈ c.world.rows) :
    1 ≤ row.merkelOrder ∧ row.merkelOrder ≤ 2147483647 := by
  obtain ⟨m, -, horders⟩ := gapless_run hrun
  have hinit : OrdersFit World.empty.rows := fun _ h => by cases h
  have hkeeps : ∀ (c : Config JsError Op.Val World Delivery Unit) (l : Label Choice Delivery Empty) c',
      OrdersFit c.world.rows → True → (system hash32).step c l = some c' → OrdersFit c'.world.rows :=
    fun _ _ _ hc _ hstep => ordersFit_step hc hstep
  have hfit : OrdersFit c.world.rows :=
    System.run_invariant hkeeps hinit (System.along_of_mem (fun _ _ _ => trivial) _) hrun
  exact ⟨((horders _).mp (List.mem_map_of_mem hrow)).1, hfit row hrow⟩

end GuardianshipAgency.Transactions
