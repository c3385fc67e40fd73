import GuardianshipAgency.Sequence.Consecutive
import GuardianshipAgency.Transactions.Lemmas.Steps

/-!
# The order numbers of concurrent handlers

As long as every handler saves before anyone else has saved since its query, the orders are 1, 2, 3, ...
-/

namespace GuardianshipAgency.Transactions

open Js Async Sequence

variable {hash32 : Option Json → Except JsError String}

def orders (rows : List Row) : List Int := rows.map Row.merkelOrder

theorem nextOrder_maxMerkelOrder (rows : List Row) : nextOrder (maxMerkelOrder rows) = succMax (orders rows) := rfl

theorem orders_insert (w : World) (now : Json) (r : AgentTransaction) :
    orders (w.insert now r).rows = orders w.rows ++ [r.merkelOrder] := by
  simp [orders, World.insert, AgentTransaction.row]

/-- The step commits no row that other rows have come before since the handler's query. Between its query and its
save a handler does not resume, so that `resumed` is the world of the query. -/
def FreshSave (c : Config JsError Op.Val World Delivery Unit) : Label Choice Delivery Empty → Prop
  | .answer i ch => ∀ th r next, c.threads[i]? = some th → th.prog = .await (.saveTransaction r) next →
      ch.commits = true → c.world.rows = th.resumed.rows
  | _ => True

def ordersRely : Rely World where
  inv w := Consecutive (orders w.rows)
  rel := World.Grows
  refl := World.Grows.refl
  trans := World.Grows.trans

def ordersTerms : Terms World Op Choice where
  guard resumed _ op := ∀ r, op = .saveTransaction r → r.merkelOrder = succMax (orders resumed.rows)
  assume resumed now op ch := ∀ r, op = .saveTransaction r → ch.commits = true → now.rows = resumed.rows

theorem orders_answer_other {op : Op} {ch : Choice} {w w' : World} {a} (hop : ∀ r, op ≠ .saveTransaction r)
    (hinv : ordersRely.inv w) (h : answer op ch w = some (a, w')) :
    ordersRely.inv w' ∧ ordersRely.rel w w' := by
  refine ⟨?_, answer_grows h⟩
  rcases answer_rows h with hr | ⟨r, _, rfl, _⟩
  · show Consecutive (orders w'.rows)
    rw [hr]
    exact hinv
  · exact absurd rfl (hop r)

theorem creditRun_orders (d : Delivery) (data : Json) (w : World) :
    machine.Ensures ordersRely ordersTerms (creditRun hash32 d data) (fun _ _ => True) w := by
  intro w₁ _ hinv₁
  refine ⟨(fun r he => by cases he), fun ch a w₂ _ ha => ?_⟩
  obtain ⟨rfl, hmax⟩ := answer_getMax ha
  refine ⟨⟨hinv₁, .refl _⟩, fun res hres => ?_⟩
  cases res with
  | error e => exact fun _ _ _ => trivial
  | ok max =>
      have hm := hmax max hres
      cases hr : TransactionMessageHandler.record hash32 d.context (some data) max with
      | error e => simp only [hr]; exact fun _ _ _ => trivial
      | ok record =>
          have horder : record.merkelOrder = succMax (orders w₂.rows) := by
            rw [record_ok hr, ← nextOrder_maxMerkelOrder, hm]
          simp only [hr]
          intro w₃ _ hinv₃
          refine ⟨fun r he => by cases he; exact horder, fun ch' a' w₄ hfresh ha' => ?_⟩
          refine ⟨⟨?_, answer_grows ha'⟩, fun res' _ => ?_⟩
          · rcases answer_save ha' with ⟨hc, _, now, rfl⟩ | ⟨_, rfl, _⟩
            · show Consecutive (orders (w₃.insert now record).rows)
              rw [orders_insert, horder, ← hfresh record rfl hc]
              exact Consecutive.concat hinv₃
            · exact hinv₃
          · cases res' with
            | error e => exact fun _ _ _ => trivial
            | ok u =>
                intro w₅ _ hinv₅
                exact ⟨(fun r he => by cases he), fun _ _ _ _ ha'' =>
                  ⟨orders_answer_other (fun r he => by cases he) hinv₅ ha'', fun _ _ _ _ _ => trivial⟩⟩

theorem ordersSound : (system hash32).Sound ordersRely (fun _ => True) (fun _ _ => ordersTerms)
    (fun _ _ _ _ => True) where
  arrive d w _ hinv := ⟨hinv, List.prefix_rfl, List.prefix_rfl, List.prefix_append _ _⟩
  body d w _ _ _ := by
    show machine.Ensures _ _ (basicMessageHandler hash32 d) _ _
    rcases basicMessageHandler_cases hash32 d with ⟨r, hr⟩ | ⟨data, _, hr⟩ | ⟨data, _, hr⟩
    · rw [hr]; exact fun _ _ _ => trivial
    · rw [hr]; exact creditRun_orders d data _
    · rw [hr]
      exact Machine.Ensures.of_calls (reportRun_calls d data)
        (fun op _ _ hop _ _ r he => absurd he (hop r))
        (fun op ch w₁ a w₂ hop hinv ha => orders_answer_other hop hinv ha) fun _ _ _ => trivial
  env e := e.elim

/-! ## Steps of the system -/

theorem stepOk_of_freshSave {c : Config JsError Op.Val World Delivery Unit} {l : Label Choice Delivery Empty}
    (h : FreshSave c l) : Config.StepOk (fun _ => True) (fun _ _ => ordersTerms) c l := by
  cases l with
  | begin d => trivial
  | answer i ch =>
      intro th op next hth hprog r hop hc
      subst hop
      exact h th r next hth hprog hc
  | env e => exact e.elim

theorem ordersOk {ls : List (Label Choice Delivery Empty)} {c : Config JsError Op.Val World Delivery Unit}
    (hrun : (system hash32).run (.init .empty) ls = some c)
    (hls : (system hash32).Along FreshSave (.init .empty) ls) :
    c.Ok (system hash32) ordersRely (fun _ => True) (fun _ _ => ordersTerms) (fun _ _ _ _ => True) :=
  have hinit : ordersRely.inv World.empty := Consecutive.nil
  Config.Ok.run ordersSound (.init hinit) (hls.mono fun _ _ => stepOk_of_freshSave) hrun

theorem step_grows {c c' : Config JsError Op.Val World Delivery Unit} {l : Label Choice Delivery Empty}
    (h : (system hash32).step c l = some c') : c.world.Grows c'.world := by
  cases l with
  | begin d => cases h; exact ⟨List.prefix_rfl, List.prefix_rfl, List.prefix_append _ _⟩
  | answer i ch =>
      obtain ⟨th, op, next, a, w, _, _, hans, hw, _⟩ := System.step_answer h
      rw [hw]
      exact answer_grows hans
  | env e => exact e.elim

/-- A row that is committed on a stale maximum repeats an order. -/
theorem not_nodup_of_stale {c c' : Config JsError Op.Val World Delivery Unit} {i : Nat} {ch : Choice}
    (hok : c.Ok (system hash32) ordersRely (fun _ => True) (fun _ _ => ordersTerms) (fun _ _ _ _ => True))
    (h : (system hash32).step c (.answer i ch) = some c') {th r next} (hth : c.threads[i]? = some th)
    (hprog : th.prog = .await (.saveTransaction r) next) (hc : ch.commits = true)
    (hstale : c.world.rows ≠ th.resumed.rows) : ¬ (orders c'.world.rows).Nodup := by
  have hmem := List.mem_of_getElem? hth
  have horder : r.merkelOrder = succMax (orders th.resumed.rows) := hok.guard hmem hprog r rfl
  have hpre := ((hok.threads th hmem).resumed).rows
  obtain ⟨th', op, next', a, w, hth', hprog', hans, hw, _⟩ := System.step_answer h
  cases hth.symm.trans hth'
  cases hprog.symm.trans hprog'
  rcases answer_save hans with ⟨_, _, now, rfl⟩ | ⟨hn, _⟩
  · rw [hw, orders_insert, horder]
    have hne : orders c.world.rows ≠ orders th.resumed.rows := fun he =>
      hstale (hpre.eq_of_length (by simpa [orders] using congrArg List.length he.symm)).symm
    have hin := Consecutive.succMax_mem hok.inv (hpre.map _) hne
    exact fun hnd => List.disjoint_of_nodup_append hnd hin (List.mem_singleton.mpr rfl)
  · simp [hc] at hn

end GuardianshipAgency.Transactions
