import GuardianshipAgency.Transactions.Lemmas.Gaps
import GuardianshipAgency.Transactions.Lemmas.Content
import GuardianshipAgency.Transactions.Lemmas.Exchange
import GuardianshipAgency.Transactions.Lemmas.Isolation

/-!
# Properties of the transaction messages
-/

namespace GuardianshipAgency.Transactions

open Js Async Sequence

variable {hash32 : Option Json → Except JsError String}

/-! ## Sample messages -/

def sampleHash (_ : Option Json) : Except JsError String := .ok "9f86d081884c7d659a2feaa0c55ad015"

def sampleCredit (id : String) : Delivery where
  agentId := "fsp"
  adminApiKey := "key"
  connectionId := "tdc"
  content := "\x7b\"messageTypeId\":\"credit_transaction\",\"state\":\"started\",\"id\":\"" ++ id ++
    "\",\"transaction\":\x7b\"fspHash\":\"ab\",\"fspId\":\"f1\",\"amount\":\"9\"\x7d\x7d"

def sampleReport : Delivery where
  agentId := "fsp"
  adminApiKey := "key"
  connectionId := "tdc"
  content := "\x7b\"messageTypeId\":\"transaction_request\",\"state\":\"started\",\"id\":\"r1\"," ++
    "\"tdcFspId\":\"f1\"\x7d"

/-! ## Order numbers -/

/-- In every run from the empty table, the orders are distinct if and only if every row was committed before any
other row came in since its handler read the maximum. -/
theorem orders_nodup_iff_freshSaves {ls : List (Label Choice Delivery Empty)}
    {c : Config JsError Op.Val World Delivery Unit}
    (hrun : (system hash32).run (.init .empty) ls = some c) :
    (orders c.world.rows).Nodup ↔ (system hash32).Along FreshSave (.init .empty) ls := by
  constructor
  · induction ls using List.reverseRecOn generalizing c with
    | nil => exact fun _ => trivial
    | append_singleton ls l ih =>
        intro hnd
        rw [System.run_append] at hrun
        obtain ⟨c₁, hrun₁, hstep⟩ := Option.bind_eq_some_iff.mp hrun
        obtain ⟨c₂, hstep, hc₂⟩ := Option.bind_eq_some_iff.mp hstep
        cases hc₂
        have hfresh := ih hrun₁ (hnd.sublist ((step_grows hstep).rows.map _).sublist)
        refine (System.along_append hrun₁).mpr ⟨hfresh, ?_, fun _ _ => trivial⟩
        cases l with
        | begin d => trivial
        | answer i ch =>
            intro th r next hth hprog hc
            by_contra hstale
            exact not_nodup_of_stale (ordersOk hrun₁ hfresh) hstep hth hprog hc hstale hnd
        | env e => trivial
  · exact fun h => (ordersOk hrun h).inv.nodup

def ordersInTurn : List (Label Choice Delivery Empty) :=
  [.begin (sampleCredit "t1"), .answer 0 .ok, .answer 0 (.committed (.str "now")), .answer 0 .ok,
    .begin (sampleCredit "t2"), .answer 1 .ok, .answer 1 (.committed (.str "now")), .answer 1 .ok]

theorem orders_nodup_ordersInTurn : ∃ c, (system sampleHash).run (.init .empty) ordersInTurn = some c ∧
    orders c.world.rows = [1, 2] ∧
    ((orders c.world.rows).Nodup ↔ (system sampleHash).Along FreshSave (.init .empty) ordersInTurn) := by
  have hrun : ((system sampleHash).run (.init .empty) ordersInTurn).map (fun c => orders c.world.rows) =
      some [1, 2] := by decide +kernel
  obtain ⟨c, hc, horders⟩ := Option.map_eq_some_iff.mp hrun
  exact ⟨c, hc, horders, orders_nodup_iff_freshSaves hc⟩

/-- Two transactions whose handlers both query before either saves. -/
def ordersAtOnce : List (Label Choice Delivery Empty) :=
  [.begin (sampleCredit "t1"), .begin (sampleCredit "t2"), .answer 0 .ok, .answer 1 .ok,
    .answer 0 (.committed (.str "now")), .answer 1 (.committed (.str "now"))]

theorem orders_ordersAtOnce : ∃ c, (system sampleHash).run (.init .empty) ordersAtOnce = some c ∧
    orders c.world.rows = [1, 1] :=
  Option.map_eq_some_iff.mp (by decide +kernel)

theorem not_forall_orders_nodup : ¬∀ ls c,
    (system sampleHash).run (.init .empty) ls = some c → (orders c.world.rows).Nodup := by
  intro h
  obtain ⟨c, hc, horders⟩ := orders_ordersAtOnce
  have hnd := h ordersAtOnce c hc
  rw [horders] at hnd
  exact absurd hnd (by decide)

/-- In every run from the empty table, the orders present are `1, ..., m` for an `m` that is at most the number of
rows. -/
theorem orders_gapless {ls : List (Label Choice Delivery Empty)} {c : Config JsError Op.Val World Delivery Unit}
    (hrun : (system hash32).run (.init .empty) ls = some c) :
    ∃ m : ℕ, m ≤ c.world.rows.length ∧ ∀ x, x ∈ orders c.world.rows ↔ 1 ≤ x ∧ x ≤ m := by
  obtain ⟨m, hm, horders⟩ := gapless_run hrun
  refine ⟨m, ?_, horders⟩
  simpa [orders] using hm

theorem orders_gapless_ordersAtOnce : ∃ c, (system sampleHash).run (.init .empty) ordersAtOnce = some c ∧
    orders c.world.rows = [1, 1] ∧
    ∃ m : ℕ, m ≤ c.world.rows.length ∧ ∀ x, x ∈ orders c.world.rows ↔ 1 ≤ x ∧ x ≤ m := by
  obtain ⟨c, hc, horders⟩ := orders_ordersAtOnce
  exact ⟨c, hc, horders, orders_gapless hc⟩

/-! ## Reports -/

/-- When a report run has queried the rows, the report it is about to send has a record for every transaction
whose `accepted` reply had been issued for its agent, with what a message delivered to that agent says. And each
record of any report comes from a message delivered to the agent that sends the report. -/
theorem reports_accepted_and_only_delivered {ls : List (Label Choice Delivery Empty)}
    {c : Config JsError Op.Val World Delivery Unit}
    (hrun : (system hash32).run (.init .empty) ls = some c) :
    (∀ i rows c' th m next id tdcFspId recs,
      (system hash32).step c (.answer i (.found rows)) = some c' → c'.threads[i]? = some th →
      th.prog = .await (.sendMessage m) next →
      m.msg = .transactionReportRequest .completed id tdcFspId (.records recs) →
      ∀ m' t transaction, Issued c m' → m'.agentId = m.agentId →
        m'.msg = .creditTransaction .accepted t transaction →
        ∃ rec ∈ recs, rec.transactionId = column t ∧ ∃ d ∈ c.world.delivered, d.agentId = m.agentId ∧
          ∃ data, d.Starts .creditTransaction data ∧ Json.field (some data) "id" = t ∧ rec.Describes data) ∧
    (∀ m id tdcFspId recs, Issued c m →
      m.msg = .transactionReportRequest .completed id tdcFspId (.records recs) →
      ∀ rec ∈ recs, ∃ d ∈ c.world.delivered, ∃ data,
        d.Starts .creditTransaction data ∧ d.agentId = m.agentId ∧ rec.Describes data) := by
  constructor
  · intro i rows c' th m next id tdcFspId recs hstep hth hprog hm m' t transaction hm' hagent ht
    have hrun' : (system hash32).run (.init .empty) (ls ++ [.answer i (.found rows)]) = some c' := by
      simp [System.run_append, hrun, System.run, hstep]
    have hreports := ((reportsOk hrun').guard (List.mem_of_getElem? hth) hprog m rfl).2
    rw [found_resumed hstep hth] at hreports
    exact hreports.accepted hm (mayIssue_of_issued hrun hm') hagent ht
  · exact fun m id tdcFspId recs hm => (mayIssue_of_issued hrun hm).reported id tdcFspId recs

def pendingSend? : Prog JsError Op.Val Unit → Option SendMessage
  | .await (.sendMessage m) _ => some m
  | _ => none

theorem pendingSend?_eq_some {p : Prog JsError Op.Val Unit} {m : SendMessage} (h : pendingSend? p = some m) :
    ∃ next, p = .await (.sendMessage m) next := by
  unfold pendingSend? at h
  split at h
  · cases h
    exact ⟨_, rfl⟩
  · cases h

def acceptedThenReport : List (Label Choice Delivery Empty) :=
  [.begin (sampleCredit "t1"), .answer 0 .ok, .answer 0 (.committed (.str "now")), .answer 0 .ok,
    .begin sampleReport, .answer 1 .ok]

def sampleRow : Row :=
  { id := 1, agentId := "fsp", fspId := .str "f1", transactionId := .str "t1", merkelOrder := 1
    merkelHash := "9f86d081884c7d659a2feaa0c55ad015", eventDate := .str "now", transactionDate := .str "now"
    issuerHash := .str "ab", credentialId := .null, typeId := .null, subjectId := .null, amount := .str "9"
    transactionDetails := .null }

def sampleAccepted : SendMessage :=
  { agentId := "fsp", adminApiKey := "key", connectionId := "tdc"
    msg := .creditTransaction .accepted (some (.str "t1"))
      (some (.obj [("fspHash", .str "ab"), ("fspId", .str "f1"), ("amount", .str "9")])) }

def sampleCompleted : SendMessage :=
  { agentId := "fsp", adminApiKey := "key", connectionId := "tdc"
    msg := .transactionReportRequest .completed (some (.str "r1")) (some (.str "f1"))
      (.records [ReportMessageHandler.reportRec sampleRow]) }

theorem reports_acceptedThenReport : ∃ c c' th next,
    (system sampleHash).run (.init .empty) acceptedThenReport = some c ∧ sampleAccepted ∈ c.world.sent ∧
    (system sampleHash).step c (.answer 1 (.found [sampleRow])) = some c' ∧ c'.threads[1]? = some th ∧
    th.prog = .await (.sendMessage sampleCompleted) next ∧
    ∃ rec ∈ [ReportMessageHandler.reportRec sampleRow], rec.transactionId = .str "t1" ∧
      ∃ d ∈ c.world.delivered, d.agentId = "fsp" ∧ ∃ data, d.Starts .creditTransaction data ∧
        Json.field (some data) "id" = some (.str "t1") ∧ rec.Describes data := by
  have hrun : ((system sampleHash).run (.init .empty) acceptedThenReport).map (fun c =>
      (decide (sampleAccepted ∈ c.world.sent),
        ((system sampleHash).step c (.answer 1 (.found [sampleRow]))).bind fun c' =>
          c'.threads[1]?.bind fun th => pendingSend? th.prog)) = some (true, some sampleCompleted) := by
    decide +kernel
  obtain ⟨c, hc, he⟩ := Option.map_eq_some_iff.mp hrun
  obtain ⟨hsent, hpending⟩ := Prod.mk.inj he
  obtain ⟨c', hc', hth⟩ := Option.bind_eq_some_iff.mp hpending
  obtain ⟨th, hth, hprog⟩ := Option.bind_eq_some_iff.mp hth
  obtain ⟨next, hprog⟩ := pendingSend?_eq_some hprog
  have hsent := of_decide_eq_true hsent
  exact ⟨c, c', th, next, hc, hsent, hc', hth, hprog,
    (reports_accepted_and_only_delivered hc).1 1 _ c' th _ next _ _ _ hc' hth hprog rfl _ _ _ (.inl hsent) rfl rfl⟩

/-! ## Deliveries one after the other -/

/-- Whatever text the table keeps of a message id: a transaction has at most one row for each delivery that starts it,
and two rows only if it was delivered again when it had a row. -/
theorem rows_le_deliveries {τ : Type} [DecidableEq τ] (text : Json → τ) {ds : List Delivery} {w : World}
    (h : Delivered hash32 .empty ds w) (key : String × τ) :
    (keysIn text w.rows).count key ≤ (ds.countP fun d => d.keyIn? text == some key) ∧
      (2 ≤ (keysIn text w.rows).count key → ∃ pre d post w₁, ds = pre ++ d :: post ∧
        Delivered hash32 .empty pre w₁ ∧ Delivered hash32 w₁ (d :: post) w ∧
        d.keyIn? text = some key ∧ key ∈ keysIn text w₁.rows) := by
  have hempty : (keysIn text World.empty.rows).count key = 0 := rfl
  refine ⟨?_, h.repeated (by omega)⟩
  have hcount := h.count_le text key
  omega

/-- A transaction is delivered twice, because its reply failed after its row had been committed. -/
theorem delivered_twice : ∃ w, Delivered sampleHash .empty [sampleCredit "t1", sampleCredit "t1"] w ∧
    keys w.rows = [("fsp", .str "t1"), ("fsp", .str "t1")] := by
  have hplay : (machine.play (basicMessageHandler sampleHash (sampleCredit "t1"))
      { World.empty with delivered := [] ++ [sampleCredit "t1"] }
      [.ok, .committed (.str "now"), .failed (Json.typeError "no answer")]).bind (fun rw₁ =>
        (machine.play (basicMessageHandler sampleHash (sampleCredit "t1"))
          { rw₁.2 with delivered := rw₁.2.delivered ++ [sampleCredit "t1"] }
          [.ok, .committed (.str "now"), .ok]).map fun rw₂ => keys rw₂.2.rows) =
      some [("fsp", .str "t1"), ("fsp", .str "t1")] := by decide +kernel
  obtain ⟨⟨r₁, w₁⟩, h₁, hplay⟩ := Option.bind_eq_some_iff.mp hplay
  obtain ⟨⟨r₂, w₂⟩, h₂, hkeys⟩ := Option.map_eq_some_iff.mp hplay
  exact ⟨w₂, .cons (.of_play h₁) (.cons (.of_play h₂) .nil), hkeys⟩

theorem rows_le_delivered_twice : ∃ w, Delivered sampleHash .empty [sampleCredit "t1", sampleCredit "t1"] w ∧
    (keysIn id w.rows).count ("fsp", .str "t1") = 2 ∧ ∃ pre d post w₁,
      [sampleCredit "t1", sampleCredit "t1"] = pre ++ d :: post ∧ Delivered sampleHash .empty pre w₁ ∧
      Delivered sampleHash w₁ (d :: post) w ∧ d.keyIn? id = some ("fsp", .str "t1") ∧
      ("fsp", .str "t1") ∈ keysIn id w₁.rows := by
  obtain ⟨w, hw, hkeys⟩ := delivered_twice
  have htwice : (keysIn id w.rows).count ("fsp", .str "t1") = 2 := by
    rw [keysIn, hkeys]
    decide
  exact ⟨w, hw, htwice, (rows_le_deliveries id hw _).2 htwice.ge⟩

/-- Handled one after the other, deliveries can still record a transaction twice. -/
theorem not_forall_keys_nodup : ¬∀ ds w, Delivered sampleHash .empty ds w → (keys w.rows).Nodup := by
  intro h
  obtain ⟨w, hw, hkeys⟩ := delivered_twice
  have hnd := h _ w hw
  rw [hkeys] at hnd
  exact absurd hnd (by decide)

/-! ## Reports and other agents -/

/-- Two runs that handle the same deliveries to an agent with the same outcomes give the same reports, whatever else
they handle: each pair of reports is equal once orders are replaced by ranks. -/
theorem reports_isolated {agentId : String} {run run' : List (Delivery × List Choice)} {w w' : World}
    (hown : List.Forall₂ SameHandling (addressedTo agentId run) (addressedTo agentId run'))
    (hrun : handleAll hash32 .empty run = some w) (hrun' : handleAll hash32 .empty run' = some w') :
    List.Forall₂ SameReport (w.reports agentId) (w'.reports agentId) := by
  have hempty : Alike agentId World.empty World.empty := ⟨Consecutive.nil, Consecutive.nil, rfl, .nil⟩
  exact (hempty.handleAll hown hrun hrun').reports

def reportAlone : List (Delivery × List Choice) :=
  [(sampleCredit "t1", [.ok, .committed (.str "now"), .ok]), (sampleReport, [.ok, .found [sampleRow], .ok])]

/-- The same, after another agent has had a transaction of its own. -/
def reportAmongOthers : List (Delivery × List Choice) :=
  [({ sampleCredit "t0" with agentId := "other" }, [.ok, .committed (.str "before"), .ok]),
    (sampleCredit "t1", [.ok, .committed (.str "now"), .ok]),
    (sampleReport, [.ok, .found [{ sampleRow with id := 2, merkelOrder := 2 }], .ok])]

theorem reports_isolated_reportAmongOthers : ∃ w w', handleAll sampleHash .empty reportAlone = some w ∧
    handleAll sampleHash .empty reportAmongOthers = some w' ∧
    w.reports "fsp" = [[ReportMessageHandler.reportRec sampleRow]] ∧
    w'.reports "fsp" = [[{ ReportMessageHandler.reportRec sampleRow with order := 2 }]] ∧
    List.Forall₂ SameReport (w.reports "fsp") (w'.reports "fsp") := by
  have hruns : ((handleAll sampleHash .empty reportAlone).bind fun w =>
      (handleAll sampleHash .empty reportAmongOthers).map fun w' => (w.reports "fsp", w'.reports "fsp")) =
      some ([[ReportMessageHandler.reportRec sampleRow]],
        [[{ ReportMessageHandler.reportRec sampleRow with order := 2 }]]) := by decide +kernel
  obtain ⟨w, hw, hruns⟩ := Option.bind_eq_some_iff.mp hruns
  obtain ⟨w', hw', hreports⟩ := Option.map_eq_some_iff.mp hruns
  obtain ⟨hreport, hreport'⟩ := Prod.mk.inj hreports
  refine ⟨w, w', hw, hw', hreport, hreport', reports_isolated ?_ hw hw'⟩
  exact .cons ⟨rfl, .cons rfl (.cons rfl (.cons rfl .nil))⟩
    (.cons ⟨rfl, .cons rfl (.cons trivial (.cons rfl .nil))⟩ .nil)

/-! ## Untrusted content -/

/-- Content is handled safely if and only if the handler finds what it reads without a guard: the content is JSON and
not `null`, its message type can be printed, a started `credit_transaction` has a transaction whose hash can be hashed,
and a completed one has an id that can be printed. -/
theorem handledSafely_iff_digestible {d : Delivery} :
    HandledSafely hash32 d ↔ ∃ data, d.Digestible hash32 data :=
  ⟨HandledSafely.digestible, fun ⟨_, h⟩ => ⟨h.resolves, fun _ _ _ => h.result⟩⟩

def sampleGreeting : Delivery where
  agentId := "fsp"
  adminApiKey := "key"
  connectionId := "tdc"
  content := "hello issuer, are you ready to receive your credentials?"

theorem not_handledSafely_sampleGreeting : ¬∀ d, HandledSafely sampleHash d := by
  intro h
  have hparse : (Json.parse sampleGreeting.content).isOk = false := by decide +kernel
  cases he : Json.parse sampleGreeting.content with
  | ok data =>
      rw [he] at hparse
      cases hparse
  | error e =>
      have hexec : calmMachine.Exec (basicMessageHandler sampleHash sampleGreeting) .empty (.error e) .empty := by
        rw [basicMessageHandler, he]
        exact .settled
      cases ((h _).result _ _ _ hexec).1

/-! ## Exchanges -/

variable {text : ReplyMessage → String}

/-- However messages are delivered and calls answered, handlers send at most two messages for each started message
that was in flight at first, and none in answer to a reply. -/
theorem exchange_ends (htext : KeepsState text) {ms : List Delivery} {moves : List Move} {n : Network}
    (h : (Network.init ms).run hash32 text moves = some n) :
    n.replies.length ≤ 2 * ms.countP Delivery.isStarted ∧
      ∀ d ∈ n.replies, (basicMessageHandler hash32 d).Calls fun op => ∀ m, op ≠ .sendMessage m := by
  have hbounded := (Network.bounded_init ms).run htext h
  obtain ⟨left, -, htotal⟩ := hbounded.funded
  refine ⟨by omega, fun d hd => ?_⟩
  have hnone := basicMessageHandler_atMost hash32 d
  rw [Delivery.cost, hbounded.replies d hd] at hnone
  refine hnone.calls.mono fun op hop m he => ?_
  subst he
  cases hop

/-- The text of the reply to `sampleCredit "t1"`, and for other messages no more than their state. -/
def sampleText (msg : ReplyMessage) : String :=
  if msg = sampleAccepted.msg then
    "\x7b\"messageTypeId\":\"credit_transaction\",\"id\":\"t1\",\"state\":\"accepted\"," ++
      "\"transaction\":\x7b\"fspHash\":\"ab\",\"fspId\":\"f1\",\"amount\":\"9\"\x7d\x7d"
  else "\x7b\"state\":\"" ++ msg.state.text ++ "\"\x7d"

def textState? (text : String) : Option Json :=
  match Json.parse text with
  | .ok data => Json.field (some data) "state"
  | .error _ => none

theorem sampleText_keepsState : KeepsState sampleText := by
  have hstate : ∀ state ∈ [TransactionMessageStatesEnum.accepted, .completed, .started],
      textState? ("\x7b\"state\":\"" ++ state.text ++ "\"\x7d") = some (.str state.text) := by decide +kernel
  have haccepted : textState? (sampleText sampleAccepted.msg) = some (.str "accepted") := by decide +kernel
  intro msg data hparse
  have htext : textState? (sampleText msg) = some (.str msg.state.text) := by
    by_cases hmsg : msg = sampleAccepted.msg
    · rw [hmsg]
      exact haccepted
    · rw [sampleText, if_neg hmsg]
      exact hstate msg.state (by cases msg.state <;> simp)
  rw [textState?, hparse] at htext
  exact htext

def sampleAnswers : (op : Op) → Except JsError op.Val
  | .getMaxMerkelOrder => .ok none
  | .saveTransaction _ => .ok ()
  | .getAllTransactions _ => .ok []
  | .sendMessage _ => .ok ()

def sampleReply : Delivery where
  agentId := "tdc"
  adminApiKey := "key"
  connectionId := "fsp"
  content := sampleText sampleAccepted.msg

/-- A transaction is delivered, accepted, and the reply is delivered in turn. -/
def creditExchange : List Move :=
  [.deliver 0, .answer 0 sampleAnswers, .answer 0 sampleAnswers, .post 0 sampleReply, .deliver 0,
    .answer 0 sampleAnswers]

theorem exchange_ends_creditExchange : ∃ n,
    (Network.init [sampleCredit "t1"]).run sampleHash sampleText creditExchange = some n ∧ n.replies = [sampleReply] ∧
    n.replies.length ≤ 2 * [sampleCredit "t1"].countP Delivery.isStarted ∧
    ∀ d ∈ n.replies, (basicMessageHandler sampleHash d).Calls fun op => ∀ m, op ≠ .sendMessage m := by
  have hrun : ((Network.init [sampleCredit "t1"]).run sampleHash sampleText creditExchange).map Network.replies =
      some [sampleReply] := by decide +kernel
  obtain ⟨n, hn, hreplies⟩ := Option.map_eq_some_iff.mp hrun
  exact ⟨n, hn, hreplies, exchange_ends sampleText_keepsState hn⟩

end GuardianshipAgency.Transactions
