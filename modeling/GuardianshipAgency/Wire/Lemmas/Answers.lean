import GuardianshipAgency.Transactions.Lemmas.Reports
import GuardianshipAgency.Wire.Lemmas.Reading

/-!
# Every message sent answers a delivery
-/

namespace GuardianshipAgency.Transactions

open Js Async

variable {hash32 : Option Json → Except JsError String}

/-! ## Records and what they describe -/

theorem Delivery.Starts.exact {d : Delivery} {type : TransactionMessageTypesEnum} {data : Json}
    (h : d.Starts type data) (hfinite : d.finite = true) : data.Exact := by
  rw [Delivery.finite, h.parsed] at hfinite
  exact Json.exact_parse h.parsed hfinite

theorem TxReportResponseDto.Describes.exact {rec : TxReportResponseDto} {data : Json} (h : rec.Describes data)
    (hdata : data.Exact) (horder : (Json.num rec.order).Exact) (hdate : rec.txDate.Exact) : rec.Exact := by
  have hown : ∀ x, some data = some x → x.Exact := by
    rintro x ⟨⟩
    exact hdata
  have htransaction : ∀ x, Json.field (some data) "transaction" = some x → x.Exact := fun x => exact_field hdata
  refine ⟨horder, ?_, ?_, ?_, hdate, ?_, ?_, ?_, ?_⟩
  · exact h.transactionId ▸ exact_column_field hown "id"
  · exact h.typeId ▸ exact_column_field htransaction "typeId"
  · exact h.subjectId ▸ exact_column_field htransaction "subjectId"
  · exact h.amount ▸ exact_column_field htransaction "amount"
  · exact h.credentialId ▸ exact_column_field hown "credentialId"
  · exact h.hash ▸ exact_column_field htransaction "fspHash"
  · exact h.details ▸ exact_column_field htransaction "eventJson"

/-! ## The invariant -/

/-- The message is one of the answers to a delivery. A report lists the agent's rows of a table that was there
before. -/
inductive Answers (w : World) : SendMessage → Prop where
  | accepted {d : Delivery} {data : Json} (hd : d ∈ w.delivered) (hs : d.Starts .creditTransaction data) :
      Answers w (d.acceptedReply data)
  | acknowledged {d : Delivery} {data : Json} (hd : d ∈ w.delivered) (hs : d.Starts .transactionRequest data) :
      Answers w (d.reportReply data .accepted .empty)
  | reported {d : Delivery} {data : Json} {rows seen : List Row} (hd : d ∈ w.delivered)
      (hs : d.Starts .transactionRequest data) (hseen : seen <+: w.rows)
      (hrows : rows.Perm (seen.filter fun row => row.agentId == d.agentId)) :
      Answers w (d.reportReply data .completed (.records (rows.map ReportMessageHandler.reportRec)))

theorem Answers.later {w w' : World} {m : SendMessage} (h : Answers w m) (hw : w.Grows w') : Answers w' m := by
  cases h with
  | accepted hd hs => exact .accepted (hw.delivered.subset hd) hs
  | acknowledged hd hs => exact .acknowledged (hw.delivered.subset hd) hs
  | reported hd hs hseen hrows => exact .reported (hw.delivered.subset hd) hs (hseen.trans hw.rows) hrows

def answersRely : Rely World where
  inv w := ∀ m ∈ w.sent, Answers w m
  rel := World.Grows
  refl := World.Grows.refl
  trans := World.Grows.trans

theorem answers_send {m : SendMessage} {ch : Choice} {w w' : World} {a} (hinv : answersRely.inv w) (hm : Answers w m)
    (h : answer (.sendMessage m) ch w = some (a, w')) : answersRely.inv w' ∧ w.Grows w' := by
  rw [answer_send h]
  refine ⟨fun m' hm' => ?_, w.grows_issue m⟩
  rcases List.mem_append.mp hm' with hm' | hm'
  · exact (hinv m' hm').later (w.grows_issue m)
  · rw [List.mem_singleton.mp hm']
    exact hm.later (w.grows_issue m)

/-- A call that sends nothing. -/
theorem answers_silent {op : Op} (hop : ∀ m, op ≠ .sendMessage m) {ch : Choice} {w w' : World} {a}
    (hinv : answersRely.inv w) (h : answer op ch w = some (a, w')) : answersRely.inv w' ∧ w.Grows w' := by
  have hgrows := answer_grows h
  have hsent : w'.sent = w.sent := by
    cases op with
    | getMaxMerkelOrder => rw [(answer_getMax h).1]
    | saveTransaction r =>
        rcases answer_save h with ⟨_, _, now, rfl⟩ | ⟨_, rfl, _⟩
        · rfl
        · rfl
    | getAllTransactions agentId => rw [(answer_getAll h).1]
    | sendMessage m => exact absurd rfl (hop m)
  exact ⟨fun m hm => (hinv m (hsent ▸ hm)).later hgrows, hgrows⟩

theorem creditRun_answers {d : Delivery} {data : Json} (hs : d.Starts .creditTransaction data) {w : World}
    (hd : d ∈ w.delivered) : machine.Ensures answersRely {} (creditRun hash32 d data) (fun _ _ => True) w := by
  intro w₁ hw₁ hinv₁
  refine ⟨trivial, fun ch a w₂ _ ha => ?_⟩
  obtain ⟨hinv₂, hw₂⟩ := answers_silent (by simp) hinv₁ ha
  refine ⟨⟨hinv₂, hw₂⟩, fun res _ => ?_⟩
  cases res with
  | error e => exact fun _ _ _ => trivial
  | ok max =>
      dsimp only
      split
      · exact fun _ _ _ => trivial
      · intro w₃ hw₃ hinv₃
        refine ⟨trivial, fun ch a w₄ _ ha => ?_⟩
        obtain ⟨hinv₄, hw₄⟩ := answers_silent (by simp) hinv₃ ha
        refine ⟨⟨hinv₄, hw₄⟩, fun res _ => ?_⟩
        cases res with
        | error e => exact fun _ _ _ => trivial
        | ok u =>
            intro w₅ hw₅ hinv₅
            have hd₅ : d ∈ w₅.delivered :=
              hw₅.delivered.subset (hw₄.delivered.subset (hw₃.delivered.subset (hw₂.delivered.subset
                (hw₁.delivered.subset hd))))
            exact ⟨trivial, fun _ _ _ _ ha => ⟨answers_send hinv₅ (.accepted hd₅ hs) ha, fun _ _ _ _ _ => trivial⟩⟩

theorem reportRun_answers {d : Delivery} {data : Json} (hs : d.Starts .transactionRequest data) {w : World}
    (hd : d ∈ w.delivered) : machine.Ensures answersRely {} (reportRun d data) (fun _ _ => True) w := by
  intro w₁ hw₁ hinv₁
  have hd₁ := hw₁.delivered.subset hd
  refine ⟨trivial, fun ch a w₂ _ ha => ?_⟩
  obtain ⟨hinv₂, hw₂⟩ := answers_send hinv₁ (.acknowledged hd₁ hs) ha
  refine ⟨⟨hinv₂, hw₂⟩, fun res _ => ?_⟩
  cases res with
  | error e => exact fun _ _ _ => trivial
  | ok u =>
      intro w₃ hw₃ hinv₃
      have hd₃ := hw₃.delivered.subset (hw₂.delivered.subset hd₁)
      refine ⟨trivial, fun ch a w₄ _ ha => ?_⟩
      obtain ⟨rfl, hrows⟩ := answer_getAll ha
      refine ⟨⟨hinv₃, .refl _⟩, fun res hres => ?_⟩
      cases res with
      | error e => exact fun _ _ _ => trivial
      | ok rows =>
          intro w₅ hw₅ hinv₅
          have hreport := Answers.reported (hw₅.delivered.subset hd₃) hs hw₅.rows (hrows rows hres)
          exact ⟨trivial, fun _ _ _ _ ha => ⟨answers_send hinv₅ hreport ha, fun _ _ _ _ _ => trivial⟩⟩

theorem answersSound : (system hash32).Sound answersRely (fun _ => True) (fun _ _ => {}) (fun _ _ _ _ => True) where
  arrive d w _ hinv := by
    have hgrows : w.Grows ((system hash32).arrive d w) := ⟨List.prefix_rfl, List.prefix_rfl, List.prefix_append _ _⟩
    exact ⟨fun m hm => (hinv m hm).later hgrows, hgrows⟩
  body d w _ _ _ := by
    have hd : d ∈ ((system hash32).arrive d w).delivered := List.mem_append_right _ (List.mem_singleton.mpr rfl)
    change machine.Ensures _ _ (basicMessageHandler hash32 d) _ _
    rcases basicMessageHandler_cases hash32 d with ⟨r, hr⟩ | ⟨data, hs, hr⟩ | ⟨data, hs, hr⟩
    · rw [hr]
      exact fun _ _ _ => trivial
    · rw [hr]
      exact creditRun_answers hs hd
    · rw [hr]
      exact reportRun_answers hs hd
  env e := e.elim

theorem answers_run {ls : List (Label Choice Delivery Empty)} {c : Config JsError Op.Val World Delivery Unit}
    (hrun : (system hash32).run (.init .empty) ls = some c) {m : SendMessage} (hm : m ∈ c.world.sent) :
    Answers c.world m := by
  have hinit : answersRely.inv World.empty := fun _ hm => by cases hm
  have hok := Config.Ok.run answersSound (.init hinit)
    (System.along_of_mem (fun l _ _ => by cases l <;> simp [Config.StepOk]) _) hrun
  exact hok.inv m hm

end GuardianshipAgency.Transactions
