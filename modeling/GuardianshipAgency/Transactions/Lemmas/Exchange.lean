import GuardianshipAgency.Async.Budget
import GuardianshipAgency.Transactions.Lemmas.Shape
import GuardianshipAgency.Transactions.Network

/-!
# Exchanges of messages

Every message in flight pays for the replies that its handler may send: two if it is started, none otherwise. No reply
is started.
-/

namespace GuardianshipAgency.Transactions

open Js Async

variable {hash32 : Option Json → Except JsError String} {text : ReplyMessage → String}

def sends : Op → Bool
  | .sendMessage _ => true
  | _ => false

/-! ## What a handler may send -/

theorem creditRun_sends (d : Delivery) (data : Json) : (creditRun hash32 d data).AtMost sends 1 := by
  refine (Prog.AtMost.await_free rfl).mpr fun max => ?_
  cases max with
  | error e => trivial
  | ok max =>
      dsimp only
      split
      · trivial
      · refine (Prog.AtMost.await_free rfl).mpr fun saved => ?_
        cases saved with
        | error e => trivial
        | ok u => exact (Prog.AtMost.await_counted rfl).mpr ⟨by omega, fun _ => trivial⟩

theorem reportRun_sends (d : Delivery) (data : Json) : (reportRun d data).AtMost sends 2 := by
  refine (Prog.AtMost.await_counted rfl).mpr ⟨by omega, fun sent => ?_⟩
  cases sent with
  | error e => trivial
  | ok u =>
      refine (Prog.AtMost.await_free rfl).mpr fun rows => ?_
      cases rows with
      | error e => trivial
      | ok rows => exact (Prog.AtMost.await_counted rfl).mpr ⟨by omega, fun _ => trivial⟩

def Delivery.cost (d : Delivery) : ℕ := if d.isStarted then 2 else 0

theorem Delivery.Starts.isStarted {d : Delivery} {type : TransactionMessageTypesEnum} {data : Json}
    (h : d.Starts type data) : d.isStarted = true := by
  have hstate : Json.field (some data) "state" = some (.str TransactionMessageStatesEnum.started.text) := by
    simp [Json.field, h.state, Except.toOption]
  simp [Delivery.isStarted, h.parsed, hstate, isString]

theorem basicMessageHandler_atMost (hash32 : Option Json → Except JsError String) (d : Delivery) :
    (basicMessageHandler hash32 d).AtMost sends d.cost := by
  rcases basicMessageHandler_cases hash32 d with ⟨r, hr⟩ | ⟨data, hs, hr⟩ | ⟨data, hs, hr⟩
  · rw [hr]
    trivial
  · rw [hr, Delivery.cost, if_pos hs.isStarted]
    exact (creditRun_sends d data).mono (by omega)
  · rw [hr, Delivery.cost, if_pos hs.isStarted]
    exact reportRun_sends d data

theorem isStarted_of_reply {d : Delivery} {m : SendMessage} (htext : KeepsState text)
    (hm : m.msg.state ≠ .started) (hd : d.content = text m.msg) : d.isStarted = false := by
  unfold Delivery.isStarted
  rw [hd]
  cases hparse : Json.parse (text m.msg) with
  | error e => rfl
  | ok data =>
      simp only [htext _ _ hparse, isString]
      cases hstate : m.msg.state with
      | started => exact absurd hstate hm
      | accepted => decide
      | completed => decide

/-- Handlers send no started message. -/
def RepliesOnly (op : Op) : Prop := ∀ m, op = .sendMessage m → m.msg.state ≠ .started

theorem creditRun_repliesOnly (d : Delivery) (data : Json) : (creditRun hash32 d data).Calls RepliesOnly := by
  refine ⟨fun m he => (by cases he), fun max => ?_⟩
  cases max with
  | error e => trivial
  | ok max =>
      dsimp only
      split
      · trivial
      · refine ⟨fun m he => (by cases he), fun saved => ?_⟩
        cases saved with
        | error e => trivial
        | ok u => exact ⟨fun m he => (by cases he; simp [Delivery.acceptedReply, ReplyMessage.state]), fun _ => trivial⟩

theorem reportRun_repliesOnly (d : Delivery) (data : Json) : (reportRun d data).Calls RepliesOnly := by
  refine ⟨fun m he => (by cases he; simp [Delivery.reportReply, ReplyMessage.state]), fun sent => ?_⟩
  cases sent with
  | error e => trivial
  | ok u =>
      refine ⟨fun m he => (by cases he), fun rows => ?_⟩
      cases rows with
      | error e => trivial
      | ok rows => exact ⟨fun m he => (by cases he; simp [Delivery.reportReply, ReplyMessage.state]), fun _ => trivial⟩

theorem basicMessageHandler_repliesOnly (hash32 : Option Json → Except JsError String) (d : Delivery) :
    (basicMessageHandler hash32 d).Calls RepliesOnly := by
  rcases basicMessageHandler_cases hash32 d with ⟨r, hr⟩ | ⟨data, -, hr⟩ | ⟨data, -, hr⟩
  · rw [hr]
    trivial
  · rw [hr]
    exact creditRun_repliesOnly d data
  · rw [hr]
    exact reportRun_repliesOnly d data

/-! ## Handlers under way -/

/-- The handler may still put `b` messages in flight, none of them started. -/
structure Runner.Left (r : Runner) (b : ℕ) : Prop where
  replies : r.prog.Calls RepliesOnly
  pending : r.posted = false → r.prog.AtMost sends b
  posted : r.posted = true → ∀ op next, r.prog = .await op next → ∀ res, (next res).AtMost sends b

theorem Runner.left_start (hash32 : Option Json → Except JsError String) (d : Delivery) :
    Runner.Left { prog := basicMessageHandler hash32 d } d.cost :=
  ⟨basicMessageHandler_repliesOnly hash32 d, fun _ => basicMessageHandler_atMost hash32 d, fun he => (by cases he)⟩

theorem Runner.Left.answer {op : Op} {next : Except JsError op.Val → Prog JsError Op.Val Unit} {posted : Bool}
    {b : ℕ} (h : Runner.Left { prog := .await op next, posted } b) (res : Except JsError op.Val) :
    Runner.Left { prog := next res } b where
  replies := h.replies.2 res
  pending _ := by
    cases posted with
    | false => exact (h.pending rfl).next res
    | true => exact h.posted rfl op next rfl res
  posted he := by cases he

theorem Runner.Left.post {m : SendMessage} {next : Except JsError Unit → Prog JsError Op.Val Unit} {b : ℕ}
    (h : Runner.Left { prog := .await (.sendMessage m) next } b) :
    0 < b ∧ Runner.Left { prog := .await (.sendMessage m) next, posted := true } (b - 1) := by
  obtain ⟨hpos, hnext⟩ := (Prog.AtMost.await_counted rfl).mp (h.pending rfl)
  refine ⟨hpos, h.replies, fun he => (by cases he), fun _ op k he => ?_⟩
  cases he
  exact hnext

/-- Together the handlers may still put `n` messages in flight. -/
inductive Funded : List Runner → ℕ → Prop where
  | nil : Funded [] 0
  | cons {r rs b n} : r.Left b → Funded rs n → Funded (r :: rs) (b + n)

theorem Funded.concat {rs : List Runner} {r : Runner} {n b : ℕ} (h : Funded rs n) (hr : r.Left b) :
    Funded (rs ++ [r]) (n + b) := by
  induction h with
  | nil => simpa using Funded.cons hr .nil
  | @cons r' rs b' n hr' _ ih =>
      rw [Nat.add_assoc]
      exact .cons hr' ih

/-- What a handler takes part in can be replaced. -/
theorem Funded.replace {rs : List Runner} {r : Runner} {n i : ℕ} (h : Funded rs n) (hi : rs[i]? = some r) :
    ∃ b m, n = b + m ∧ r.Left b ∧ ∀ r' b', r'.Left b' → Funded (rs.set i r') (b' + m) := by
  induction h generalizing i with
  | nil => simp at hi
  | @cons r₀ rs b₀ n hr₀ hrs ih =>
      cases i with
      | zero =>
          cases hi
          exact ⟨b₀, n, rfl, hr₀, fun r' b' hr' => .cons hr' hrs⟩
      | succ i =>
          obtain ⟨b, m, rfl, hr, hset⟩ := ih hi
          refine ⟨b, b₀ + m, by omega, hr, fun r' b' hr' => ?_⟩
          have hset' := Funded.cons hr₀ (hset r' b' hr')
          rwa [show b₀ + (b' + m) = b' + (b₀ + m) by omega] at hset'

/-! ## The whole network -/

/-- At most `total` replies have been and will be sent. -/
structure Network.Bounded (n : Network) (total : ℕ) : Prop where
  funded : ∃ left, Funded n.runners left ∧ n.replies.length + left + (n.flight.map Delivery.cost).sum ≤ total
  replies : ∀ d ∈ n.replies, d.isStarted = false

theorem Network.bounded_init (ms : List Delivery) :
    (Network.init ms).Bounded (2 * ms.countP Delivery.isStarted) where
  funded := by
    refine ⟨0, .nil, ?_⟩
    induction ms with
    | nil => simp [Network.init]
    | cons d ms ih =>
        simp only [Network.init, List.length_nil, List.map_cons, List.sum_cons, List.countP_cons,
          Delivery.cost] at ih ⊢
        split <;> omega
  replies d hd := by simp [Network.init] at hd

theorem cost_eraseIdx {ds : List Delivery} {k : ℕ} {d : Delivery} (h : ds[k]? = some d) :
    ((ds.eraseIdx k).map Delivery.cost).sum + d.cost = (ds.map Delivery.cost).sum := by
  induction ds generalizing k with
  | nil => simp at h
  | cons d' ds ih =>
      cases k with
      | zero =>
          cases h
          simp [Nat.add_comm]
      | succ k =>
          have htail := ih h
          simp only [List.eraseIdx_cons_succ, List.map_cons, List.sum_cons]
          omega

theorem Network.Bounded.step (htext : KeepsState text) {n n' : Network} {total : ℕ} {move : Move}
    (hn : n.Bounded total) (h : n.step hash32 text move = some n') : n'.Bounded total := by
  obtain ⟨left, hfunded, htotal⟩ := hn.funded
  cases move with
  | deliver k =>
      simp only [Network.step] at h
      split at h
      · rename_i d hd
        cases h
        refine ⟨⟨left + d.cost, hfunded.concat (Runner.left_start hash32 d), ?_⟩, hn.replies⟩
        have hcost := cost_eraseIdx hd
        dsimp only
        omega
      · cases h
  | post i d =>
      simp only [Network.step] at h
      split at h
      · rename_i m next hr
        obtain ⟨hd, he⟩ := Option.ite_none_right_eq_some.mp h
        cases he
        obtain ⟨b, rest, rfl, hleft, hset⟩ := hfunded.replace hr
        obtain ⟨hpos, hposted⟩ := hleft.post
        have hnew := isStarted_of_reply htext (hleft.replies.1 m rfl) hd
        refine ⟨⟨b - 1 + rest, hset _ _ hposted, ?_⟩, fun d' hd' => ?_⟩
        · simp only [List.length_append, List.length_singleton, List.map_append, List.map_cons, List.map_nil,
            List.sum_append, List.sum_singleton, Delivery.cost, hnew, Bool.false_eq_true, ↓reduceIte] at htotal ⊢
          omega
        · rcases List.mem_append.mp hd' with hd' | hd'
          · exact hn.replies d' hd'
          · rw [List.mem_singleton.mp hd']
            exact hnew
      · cases h
  | answer i res =>
      simp only [Network.step] at h
      split at h
      · rename_i op next posted hr
        cases h
        obtain ⟨b, rest, rfl, hleft, hset⟩ := hfunded.replace hr
        exact ⟨⟨b + rest, hset _ _ (hleft.answer (res op)), htotal⟩, hn.replies⟩
      · cases h

theorem Network.Bounded.run (htext : KeepsState text) {n n' : Network} {total : ℕ} {moves : List Move}
    (hn : n.Bounded total) (h : n.run hash32 text moves = some n') : n'.Bounded total := by
  induction moves generalizing n with
  | nil => cases h; exact hn
  | cons move moves ih =>
      obtain ⟨n₁, hstep, hrest⟩ := Option.bind_eq_some_iff.mp h
      exact ih (hn.step htext hstep) hrest

end GuardianshipAgency.Transactions
