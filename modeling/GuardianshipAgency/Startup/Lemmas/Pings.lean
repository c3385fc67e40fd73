import GuardianshipAgency.Agency.Lemmas.Steps
import GuardianshipAgency.Async.Path

/-!
# Waiting for an agent

The loop of `pingConnectionWithRetry`, on any clock that never runs backwards.
-/

namespace GuardianshipAgency.Startup

open Js Async Agency

variable {env : Env}

abbrev Exchanges := List (Exchange JsError Op.Val)

/-! ## Clocks -/

/-- `Ticks t xs`: the times in `xs` can be those of a clock that shows `t` at first. Between two calls it may advance by
any amount, and during `delay(ms)` by at least `ms`. -/
inductive Ticks : ℚ → Exchanges → Prop where
  | nil {t} : Ticks t []
  | getTime {t now xs} : t ≤ now → Ticks now xs → Ticks t ({ op := .getTime, answer := .ok now } :: xs)
  | delay {t t' ms xs} : t + ms ≤ t' → Ticks t' xs → Ticks t ({ op := .delay ms, answer := .ok () } :: xs)
  | other {t t' op a xs} : op ≠ .getTime → (∀ ms, op ≠ .delay ms) → t ≤ t' → Ticks t' xs →
      Ticks t ({ op, answer := a } :: xs)

namespace Ticks

variable {t : ℚ} {xs : Exchanges}

theorem getTime_inv {a : Except JsError ℚ} (h : Ticks t ({ op := .getTime, answer := a } :: xs)) :
    ∃ now, a = .ok now ∧ t ≤ now ∧ Ticks now xs := by
  cases h with
  | getTime hnow hxs => exact ⟨_, rfl, hnow, hxs⟩
  | other hop => exact absurd rfl hop

theorem delay_inv {ms : ℚ} {a : Except JsError Unit} (h : Ticks t ({ op := .delay ms, answer := a } :: xs)) :
    a = .ok () ∧ ∃ t', t + ms ≤ t' ∧ Ticks t' xs := by
  cases h with
  | delay ht' hxs => exact ⟨rfl, _, ht', hxs⟩
  | other _ hop => exact absurd rfl (hop ms)

theorem status_inv {target : AdminTarget} {a : Except JsError Nat}
    (h : Ticks t ({ op := .status target, answer := a } :: xs)) : ∃ t', t ≤ t' ∧ Ticks t' xs := by
  cases h with
  | other _ _ ht' hxs => exact ⟨_, ht', hxs⟩

/-- A clock that is ahead is a clock, too. -/
theorem mono {t' : ℚ} (h : Ticks t' xs) (ht : t ≤ t') : Ticks t xs := by
  cases h with
  | nil => exact .nil
  | getTime hnow hxs => exact .getTime (ht.trans hnow) hxs
  | delay ht' hxs => exact .delay (by linarith) hxs
  | other hop hdelay ht' hxs => exact .other hop hdelay (ht.trans ht') hxs

end Ticks

theorem effect_now {op : Op} {d : Detail} {w w' : World} {v} (h : effect env op d w = some (v, w')) :
    w'.now = w.now ∨ ∃ ms, op = .delay ms ∧ w.now + ms ≤ w'.now := by
  rcases effect_cases h with rfl | ⟨-, hw⟩ | ⟨_, _, _, -, rfl⟩ | ⟨_, -, rfl⟩ | hserver | ⟨ms, d', rfl, hms, rfl⟩ |
    ⟨_, _, -, rfl⟩
  · exact .inl rfl
  · exact .inl (by rw [hw])
  · exact .inl rfl
  · exact .inl rfl
  · exact .inl (by rw [hserver.frame])
  · exact .inr ⟨ms, rfl, (add_le_add_iff_left w.now).mpr hms⟩
  · exact .inl rfl

theorem answer_now {op : Op} {ch : Choice} {w w' : World} {a} (h : answer env op ch w = some (a, w')) :
    w'.now = w.now ∨ ∃ ms, op = .delay ms ∧ w.now + ms ≤ w'.now := by
  rcases answer_cases h with ⟨rfl, -⟩ | ⟨d, o, v, -, he, -⟩
  · exact .inl rfl
  · exact effect_now he

/-- Neither reading the clock nor waiting fails. -/
theorem answer_local {op : Op} (hop : op.remote = false) {ch : Choice} {w w' : World} {a : Except JsError op.Val}
    (h : answer env op ch w = some (some a, w')) : ∃ d v, effect env op d w = some (v, w') ∧ a = .ok v := by
  rcases answer_cases h with ⟨-, e, -, -, hremote⟩ | ⟨d, o, v, -, he, ⟨ha, -⟩ | ⟨e, -, -, hremote⟩ | ⟨ha, -⟩⟩
  · rw [hop] at hremote
    cases hremote
  · cases ha
    exact ⟨d, v, he, rfl⟩
  · rw [hop] at hremote
    cases hremote
  · cases ha

theorem ticks_of_answer {op : Op} {ch : Choice} {w w' : World} {a : Except JsError op.Val} {xs : Exchanges}
    (h : answer env op ch w = some (some a, w')) (hxs : Ticks w'.now xs) :
    Ticks w.now ({ op, answer := a } :: xs) := by
  by_cases htime : op = .getTime
  · subst htime
    obtain ⟨d, v, he, rfl⟩ := answer_local rfl h
    cases d with
    | plain =>
        cases he
        exact .getTime (le_refl _) hxs
    | _ => cases he
  by_cases hdelay : ∃ ms, op = .delay ms
  · obtain ⟨ms, rfl⟩ := hdelay
    obtain ⟨d, v, he, rfl⟩ := answer_local rfl h
    cases d with
    | elapsed d' =>
        obtain ⟨hms, he⟩ := Option.ite_none_right_eq_some.mp he
        cases he
        exact .delay ((add_le_add_iff_left w.now).mpr hms) hxs
    | _ => cases he
  · rcases answer_now h with hnow | ⟨ms, rfl, -⟩
    · exact .other htime (fun ms hms => hdelay ⟨ms, hms⟩) (le_of_eq hnow.symm) hxs
    · exact absurd ⟨ms, rfl⟩ hdelay

/-- The clock of the world never runs backwards. -/
theorem ticks_of_trace {α : Type} {p : Prog JsError Op.Val α} {w w' : World} {cs : List Choice} {xs : Exchanges}
    {r : Except JsError α} (h : (machine env).trace p w cs = some (xs, r, w')) : Ticks w.now xs := by
  fun_induction Machine.trace (machine env) p w cs generalizing xs with
  | case1 r w => cases h; exact .nil
  | case2 => cases h
  | case3 => cases h
  | case4 => cases h
  | case5 w op next c cs w₁ ha ih =>
      refine (ih h).mono ?_
      rcases answer_now ha with hnow | ⟨ms, rfl, -⟩
      · exact le_of_eq hnow.symm
      -- waiting is not sent again
      · rcases answer_cases ha with ⟨-, e, he, -⟩ | ⟨d, o, v, -, -, ⟨he, -⟩ | ⟨e, he, -⟩ | ⟨-, -, hretried⟩⟩
        · cases he
        · cases he
        · cases he
        · cases hretried
  | case6 w op next c cs a w₁ ha ih =>
      obtain ⟨⟨xs', rw⟩, htrace, he⟩ := Option.map_eq_some_iff.mp h
      cases he
      exact ticks_of_answer ha (ih htrace)

/-! ## Rounds -/

def isCheck (x : Exchange JsError Op.Val) : Bool :=
  match x.op with
  | .status _ => true
  | _ => false

def good (status : Except JsError Nat) : Bool :=
  match status with
  | .ok code => code == 200
  | .error _ => false

/-- The exchange is a status check that reports the status 200. -/
def reportsUp (x : Exchange JsError Op.Val) : Bool :=
  match x with
  | { op := .status _, answer := a } => good a
  | _ => false

def pingRound (target : AdminTarget) (now : ℚ) (status : Except JsError Nat) : Exchanges :=
  [{ op := .getTime, answer := .ok now }, { op := .delay 1000, answer := .ok () },
    { op := .status target, answer := status }]

theorem Ticks.round_inv {target : AdminTarget} {now t : ℚ} {status : Except JsError Nat} {xs : Exchanges}
    (h : Ticks t (pingRound target now status ++ xs)) : t ≤ now ∧ ∃ t', now + 1000 ≤ t' ∧ Ticks t' xs := by
  obtain ⟨now', hnow, hle, h⟩ := h.getTime_inv
  cases hnow
  obtain ⟨-, t', ht', h⟩ := h.delay_inv
  obtain ⟨t'', ht'', h⟩ := h.status_inv
  exact ⟨hle, t'', ht'.trans ht'', h⟩

/-- The loop as it stands in the source: nothing but its condition and a good status ends it. -/
inductive PingLoop (agentId : String) (target : AdminTarget) (durationMS startOf : ℚ) :
    Exchanges → Except JsError Unit → Prop where
  | exceeded {now} : ¬now - startOf < durationMS →
      PingLoop agentId target durationMS startOf [{ op := .getTime, answer := .ok now }]
        (.error (AgentManagerService.neverUp agentId))
  | up {now status} : now - startOf < durationMS → good status = true →
      PingLoop agentId target durationMS startOf (pingRound target now status) (.ok ())
  | again {now status xs r} : now - startOf < durationMS → good status = false →
      PingLoop agentId target durationMS startOf xs r →
      PingLoop agentId target durationMS startOf (pingRound target now status ++ xs) r

theorem isAgentServerUp_path {agentId adminApiKey : String} {adminPort : AdminPort} {xs : Exchanges}
    {r : Except JsError Bool} (h : (AgentManagerService.isAgentServerUp agentId adminPort adminApiKey).Path xs r) :
    ∃ status, xs = [{ op := .status { host := .agent agentId adminPort, apiKey := adminApiKey }, answer := status }] ∧
      r = .ok (good status) := by
  rcases Prog.Path.tryCatch_inv h with ⟨up, hbody, rfl⟩ | ⟨ys, zs, e, rfl, hbody, hcatch⟩
  · obtain ⟨ys, zs, status, rfl, hcall, hrest⟩ := Prog.Path.bind_ok hbody
    obtain ⟨rfl, hup⟩ := Prog.Path.settled_inv hrest
    cases hup
    exact ⟨.ok status, by rw [Prog.Path.call_inv hcall, List.append_nil], rfl⟩
  · obtain ⟨rfl, rfl⟩ := Prog.Path.settled_inv hcatch
    rcases Prog.Path.bind_inv hbody with ⟨e', hcall, -⟩ | ⟨ys', zs, status, -, -, hrest⟩
    · exact ⟨.error e', by rw [Prog.Path.call_inv hcall, List.append_nil], rfl⟩
    · cases (Prog.Path.settled_inv hrest).2

section Loop

variable {agentId adminApiKey : String} {adminPort : AdminPort} {target : AdminTarget} {durationMS startOf t : ℚ}
variable {n : Nat} {xs : Exchanges} {r : Except JsError Unit}

theorem pingRounds_succ_inv
    (h : (AgentManagerService.pingRounds agentId adminPort adminApiKey durationMS startOf (n + 1)).Path xs r)
    (hticks : Ticks t xs) : ∃ now, t ≤ now ∧
      ((¬now - startOf < durationMS ∧ xs = [{ op := .getTime, answer := .ok now }] ∧
        r = .error (AgentManagerService.neverUp agentId)) ∨
      (now - startOf < durationMS ∧ ∃ status ys,
        xs = pingRound { host := .agent agentId adminPort, apiKey := adminApiKey } now status ++ ys ∧
        (∃ t', now + 1000 ≤ t' ∧ Ticks t' ys) ∧
        ((good status = true ∧ ys = [] ∧ r = .ok ()) ∨ (good status = false ∧
          (AgentManagerService.pingRounds agentId adminPort adminApiKey durationMS startOf n).Path ys r)))) := by
  obtain ⟨a, xs, rfl, hrest⟩ := Prog.Path.await_inv h
  obtain ⟨now, rfl, hnow, hticks⟩ := hticks.getTime_inv
  refine ⟨now, hnow, ?_⟩
  replace hrest : Prog.Path (if now - startOf < durationMS then _ else _) xs r := hrest
  split at hrest
  · rename_i hless
    obtain ⟨a, xs, rfl, hdelayed⟩ := Prog.Path.await_inv hrest
    obtain ⟨rfl, t', ht', hticks⟩ := hticks.delay_inv
    replace hdelayed : (AgentManagerService.isAgentServerUp agentId adminPort adminApiKey >>= _).Path xs r := hdelayed
    rcases Prog.Path.bind_inv hdelayed with ⟨e, hup, -⟩ | ⟨ys, zs, up, rfl, hup, hrest⟩
    · obtain ⟨status, -, he⟩ := isAgentServerUp_path hup
      cases he
    · obtain ⟨status, rfl, hstatus⟩ := isAgentServerUp_path hup
      cases hstatus
      obtain ⟨t'', ht'', hticks⟩ := hticks.status_inv
      refine .inr ⟨hless, status, zs, rfl, ⟨t'', ht'.trans ht'', hticks⟩, ?_⟩
      cases hgood : good status with
      | true =>
          rw [hgood] at hrest
          obtain ⟨rfl, rfl⟩ := Prog.Path.settled_inv hrest
          exact .inl ⟨rfl, rfl, rfl⟩
      | false =>
          rw [hgood] at hrest
          exact .inr ⟨rfl, hrest⟩
  · rename_i hover
    obtain ⟨rfl, rfl⟩ := Prog.Path.settled_inv hrest
    exact .inl ⟨hover, rfl, rfl⟩

/-- With a round for each second left, and one to find that none is left, the rounds do not run out: they are the
loop. -/
theorem pingLoop_of_path (hleft : durationMS - (t - startOf) ≤ n * 1000) (hticks : Ticks t xs)
    (h : (AgentManagerService.pingRounds agentId adminPort adminApiKey durationMS startOf (n + 1)).Path xs r) :
    PingLoop agentId { host := .agent agentId adminPort, apiKey := adminApiKey } durationMS startOf xs r := by
  induction n generalizing t xs with
  | zero =>
      obtain ⟨now, hnow, ⟨hover, rfl, rfl⟩ | ⟨hless, -⟩⟩ := pingRounds_succ_inv h hticks
      · exact .exceeded hover
      · rw [Nat.cast_zero] at hleft
        linarith
  | succ n ih =>
      obtain ⟨now, hnow, ⟨hover, rfl, rfl⟩ | ⟨hless, status, ys, rfl, ⟨t', ht', hys⟩, hround⟩⟩ :=
        pingRounds_succ_inv h hticks
      · exact .exceeded hover
      · rcases hround with ⟨hgood, rfl, rfl⟩ | ⟨hgood, hrest⟩
        · exact .up hless hgood
        · refine .again hless hgood (ih ?_ hys hrest)
          push_cast at hleft
          linarith

theorem pingLoop_result (h : PingLoop agentId target durationMS startOf xs r) :
    r = .ok () ∨ r = .error (AgentManagerService.neverUp agentId) := by
  induction h with
  | exceeded => exact .inr rfl
  | up => exact .inl rfl
  | again _ _ _ ih => exact ih

theorem pingLoop_ok_iff (h : PingLoop agentId target durationMS startOf xs r) :
    r = .ok () ↔ ∃ x ∈ xs, reportsUp x = true := by
  induction h with
  | exceeded => simp [reportsUp]
  | up _ hgood => simp [pingRound, reportsUp, hgood]
  | again _ hgood _ ih => simp [pingRound, reportsUp, hgood, ih]

theorem pingLoop_ne_nil (h : PingLoop agentId target durationMS startOf xs r) : xs ≠ [] := by
  cases h with
  | exceeded | up | again => simp [pingRound]

/-- A good status is the last thing that the loop gets. -/
theorem pingLoop_dropLast (h : PingLoop agentId target durationMS startOf xs r) :
    ∀ x ∈ xs.dropLast, reportsUp x = false := by
  induction h with
  | exceeded => simp
  | up => simp [pingRound, reportsUp]
  | again _ hgood hrest ih =>
      intro x hx
      rw [List.dropLast_append_of_ne_nil (pingLoop_ne_nil hrest), List.mem_append] at hx
      rcases hx with hx | hx
      · simp only [pingRound, List.mem_cons, List.not_mem_nil, or_false] at hx
        rcases hx with rfl | rfl | rfl
        · rfl
        · rfl
        · exact hgood
      · exact ih x hx

theorem pingLoop_checks (hticks : Ticks t xs) (h : PingLoop agentId target durationMS startOf xs r) :
    (xs.countP isCheck : ℤ) ≤ max 0 ⌈(durationMS - (t - startOf)) / 1000⌉ := by
  induction h generalizing t with
  | exceeded => simp [isCheck]
  | @up now status hless hgood =>
      obtain ⟨hnow, -⟩ := (show Ticks t (pingRound target now status ++ []) from hticks).round_inv
      have hpos : 1 ≤ ⌈(durationMS - (t - startOf)) / 1000⌉ := Int.one_le_ceil_iff.mpr (by linarith)
      simpa [pingRound, isCheck] using hpos
  | @again now status xs r hless hgood hrest ih =>
      obtain ⟨hnow, t', ht', hticks⟩ := hticks.round_inv
      have hpos : 1 ≤ ⌈(durationMS - (t - startOf)) / 1000⌉ := Int.one_le_ceil_iff.mpr (by linarith)
      have hrounds : ⌈(durationMS - (t' - startOf)) / 1000⌉ ≤ ⌈(durationMS - (t - startOf)) / 1000⌉ - 1 := by
        rw [← Int.ceil_sub_one]
        exact Int.ceil_mono (by linarith)
      have hcount : (pingRound target now status ++ xs).countP isCheck = xs.countP isCheck + 1 := by
        rw [List.countP_append, add_comm]
        rfl
      have hrest := ih hticks
      rw [hcount, Nat.cast_succ]
      omega

end Loop

/-! ## `pingConnectionWithRetry` -/

/-- `ceil(d / 1000)`, or nothing for a duration that is not positive or `NaN`. -/
def maxChecks (durationMS : Option ℚ) : Nat :=
  match durationMS with
  | none => 0
  | some d => ⌈d / 1000⌉.toNat

section Retry

variable {agentId adminApiKey : String} {adminPort : AdminPort} {durationMS : Option ℚ} {t : ℚ} {xs : Exchanges}
variable {r : Except JsError Unit}

/-- It reads the clock, and then runs the loop, or throws at once if no time is less than the duration. -/
theorem pingConnectionWithRetry_loop (hticks : Ticks t xs)
    (h : (AgentManagerService.pingConnectionWithRetry agentId adminPort adminApiKey durationMS).Path xs r) :
    ∃ startOf ys, xs = { op := .getTime, answer := .ok startOf } :: ys ∧ Ticks startOf ys ∧
      ((durationMS = none ∧ ys = [] ∧ r = .error (AgentManagerService.neverUp agentId)) ∨ ∃ d, durationMS = some d ∧
        PingLoop agentId { host := .agent agentId adminPort, apiKey := adminApiKey } d startOf ys r) := by
  obtain ⟨a, ys, rfl, hrest⟩ := Prog.Path.await_inv h
  obtain ⟨startOf, rfl, -, hticks⟩ := hticks.getTime_inv
  refine ⟨startOf, ys, rfl, hticks, ?_⟩
  cases durationMS with
  | none =>
      obtain ⟨rfl, rfl⟩ := Prog.Path.settled_inv hrest
      exact .inl ⟨rfl, rfl, rfl⟩
  | some d =>
      have hleft : d - (startOf - startOf) ≤ ((d / 1000).ceil.toNat : ℕ) * 1000 := by
        have hceil : d / 1000 ≤ (d / 1000).ceil := Rat.le_ceil
        have hnat : ((d / 1000).ceil : ℚ) ≤ ((d / 1000).ceil.toNat : ℚ) := by
          exact_mod_cast Int.self_le_toNat (d / 1000).ceil
        linarith
      exact .inr ⟨d, rfl, pingLoop_of_path hleft hticks hrest⟩

end Retry

end GuardianshipAgency.Startup
