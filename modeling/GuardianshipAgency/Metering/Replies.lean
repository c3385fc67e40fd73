import GuardianshipAgency.Metering.Rows

/-!
# How often messages are answered

Every delivery of a started message that is handled without an error has a last reply of its own.
-/

namespace GuardianshipAgency.Transactions

open Js Async

/-- A started message and its last reply: who exchanges them, over which connection, and about what. -/
structure Exchange where
  agentId : String
  adminApiKey : String
  connectionId : String
  type : TransactionMessageTypesEnum
  id : Option Json
deriving DecidableEq

def Delivery.exchange (d : Delivery) (type : TransactionMessageTypesEnum) (data : Json) : Exchange :=
  { agentId := d.agentId, adminApiKey := d.adminApiKey, connectionId := d.connectionId, type
    id := Json.field (some data) "id" }

/-- The exchange that a delivery opens. -/
def Delivery.opens? (d : Delivery) : Option Exchange :=
  match Json.parse d.content with
  | .error _ => none
  | .ok data =>
      if isString (Json.field (some data) "state") TransactionMessageStatesEnum.started.text then
        if isString (Json.field (some data) "messageTypeId") TransactionMessageTypesEnum.creditTransaction.text then
          some (d.exchange .creditTransaction data)
        else if isString (Json.field (some data) "messageTypeId")
            TransactionMessageTypesEnum.transactionRequest.text then
          some (d.exchange .transactionRequest data)
        else none
      else none

/-- The exchange that a message closes. A report is accepted before it is sent, a transaction when it is recorded. -/
def SendMessage.closes? (m : SendMessage) : Option Exchange :=
  match m.msg with
  | .creditTransaction .accepted id _ =>
      some { agentId := m.agentId, adminApiKey := m.adminApiKey, connectionId := m.connectionId
             type := .creditTransaction, id }
  | .transactionReportRequest .completed id _ _ =>
      some { agentId := m.agentId, adminApiKey := m.adminApiKey, connectionId := m.connectionId
             type := .transactionRequest, id }
  | _ => none

def Op.closes (exchange : Exchange) : Op → Bool
  | .sendMessage m => m.closes? == some exchange
  | _ => false

variable {hash32 : Option Json → Except JsError String} {exchange : Exchange}

theorem starts_of_opens? {d : Delivery} (h : d.opens? = some exchange) :
    ∃ data, (d.Starts .creditTransaction data ∧ exchange = d.exchange .creditTransaction data) ∨
      (d.Starts .transactionRequest data ∧ exchange = d.exchange .transactionRequest data) := by
  unfold Delivery.opens? at h
  split at h
  · cases h
  rename_i data hparse
  split at h
  · rename_i hstate
    have hstate := prop_of_field (isString_iff.mp hstate)
    split at h
    · rename_i htype
      cases h
      exact ⟨data, .inl ⟨⟨hparse, prop_of_field (isString_iff.mp htype), hstate⟩, rfl⟩⟩
    · split at h
      · rename_i htype
        cases h
        exact ⟨data, .inr ⟨⟨hparse, prop_of_field (isString_iff.mp htype), hstate⟩, rfl⟩⟩
      · cases h
  · cases h

/-! ## What a handler has sent when it succeeds -/

theorem creditRun_closes (d : Delivery) (data : Json) :
    (creditRun hash32 d data).AtLeast (Op.closes (d.exchange .creditTransaction data)) 1 := by
  refine ⟨fun max => ?_, fun _ => trivial⟩
  dsimp only
  cases TransactionMessageHandler.record hash32 d.context (some data) max with
  | error e => trivial
  | ok record =>
      have hcloses : (Op.sendMessage (d.acceptedReply data)).closes (d.exchange .creditTransaction data) = true :=
        beq_self_eq_true _
      refine ⟨fun u => ⟨fun v => ?_, fun _ => trivial⟩, fun _ => trivial⟩
      rw [hcloses]
      rfl

theorem reportRun_closes (d : Delivery) (data : Json) :
    (reportRun d data).AtLeast (Op.closes (d.exchange .transactionRequest data)) 1 := by
  refine ⟨fun u => ⟨fun rows => ?_, fun _ => trivial⟩, fun _ => trivial⟩
  have hcloses : (Op.sendMessage (d.reportReply data .completed
      (.records (rows.map ReportMessageHandler.reportRec)))).closes (d.exchange .transactionRequest data) = true :=
    beq_self_eq_true _
  refine ⟨fun v => ?_, fun _ => trivial⟩
  rw [hcloses]
  rfl

theorem body_closes (d : Delivery) :
    ((system hash32).body d).AtLeast (Op.closes exchange) (d.opens? == some exchange).toNat := by
  show (basicMessageHandler hash32 d).AtLeast _ _
  cases hopens : d.opens? == some exchange with
  | false => exact .zero
  | true =>
      obtain ⟨data, ⟨hs, rfl⟩ | ⟨hs, rfl⟩⟩ := starts_of_opens? (beq_iff_eq.mp hopens)
      · rw [basicMessageHandler_of_credit hs]
        exact creditRun_closes d data
      · rw [basicMessageHandler_of_report hs]
        exact reportRun_closes d data

/-! ## Runs -/

def closed (sent : List SendMessage) (exchange : Exchange) : Nat := sent.countP fun m => m.closes? == some exchange

theorem replies_owing (hash32 : Option Json → Except JsError String) (exchange : Exchange) :
    (system hash32).Owing (Op.closes exchange) (fun d => (d.opens? == some exchange).toNat) (fun _ => 0)
      (fun w => closed w.sent exchange) where
  body := body_closes
  arrive _ _ := Nat.le_refl _
  answer op ch w a w' h := by
    refine ⟨(answer_grows h).sent.sublist.countP_le, fun hop v hv => ?_⟩
    cases op with
    | sendMessage m =>
        have hone : [m].countP (fun m => m.closes? == some exchange) = 1 := by
          rw [List.countP_singleton]
          exact if_pos hop
        rw [answer_send h, closed, closed, World.issue, List.countP_append, hone]
    | _ => cases hop
  env e := e.elim

/-- In every run, the last replies that have been sent in an exchange are no fewer than the deliveries that open it
and were handled without an error. -/
theorem replies_accounted {ls : List (Label Choice Delivery Empty)} {c : Config JsError Op.Val World Delivery Unit}
    (hrun : (system hash32).run (.init .empty) ls = some c) (exchange : Exchange) :
    (c.threads.filter Thread.succeeded).countP (fun th => th.call.opens? == some exchange) ≤
      closed c.world.sent exchange := by
  have hleast := (replies_owing hash32 exchange).covered hrun
  rw [sum_toNat fun th : Thread JsError Op.Val World Delivery Unit => th.call.opens? == some exchange] at hleast
  have hempty : closed World.empty.sent exchange = 0 := rfl
  rw [List.sum_map_zero, List.sum_map_zero, hempty] at hleast
  omega

def sampleExchange : Exchange where
  agentId := "fsp"
  adminApiKey := "key"
  connectionId := "tdc"
  type := .creditTransaction
  id := some (.str "t1")

/-- A transaction is delivered twice. The first reply is sent twice, and the second one is not sent yet. -/
def answeredOnce : List (Label Choice Delivery Empty) :=
  [.begin (sampleCredit "t1"), .answer 0 .ok, .answer 0 (.committed (.str "now")), .answer 0 .lost, .answer 0 .ok,
    .begin (sampleCredit "t1"), .answer 1 .ok]

theorem replies_accounted_answeredOnce : ∃ c, (system sampleHash).run (.init .empty) answeredOnce = some c ∧
    (c.threads.filter Thread.succeeded).countP (fun th => th.call.opens? == some sampleExchange) = 1 ∧
    (c.threads.filter Thread.succeeded).countP (fun th => th.call.opens? == some sampleExchange) ≤
      closed c.world.sent sampleExchange := by
  have hrun : ((system sampleHash).run (.init .empty) answeredOnce).map (fun c =>
      (c.threads.filter Thread.succeeded).countP fun th => th.call.opens? == some sampleExchange) = some 1 := by
    decide +kernel
  obtain ⟨c, hc, hone⟩ := Option.map_eq_some_iff.mp hrun
  exact ⟨c, hc, hone, replies_accounted hc sampleExchange⟩

end GuardianshipAgency.Transactions
