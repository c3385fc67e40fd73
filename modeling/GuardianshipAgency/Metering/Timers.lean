import GuardianshipAgency.Agency.Theorems
import GuardianshipAgency.Async.Dues

/-!
# How often agents are stopped

Every spin-up with a limited lifetime that succeeds leaves one timer, and every timer one spin-down.
-/

namespace GuardianshipAgency.Agency

open Js Async

variable {env : Env} {id : String}

/-! ## Timers of an agent -/

/-- A request for the agent with a limited lifetime. -/
def Call.limits (id : String) : Call → Bool
  | .spinUpAgent agentDto => agentDto.agentId == id && decide (0 < agentDto.ttl.getD 3600)
  | _ => false

def Call.stops (id : String) (k : Call) : Bool := k == .spinDownAgent id

def Op.setsTimer (id : String) : Op → Bool
  | .setTimeout agentId _ => agentId == id
  | _ => false

def World.timersOf (id : String) (w : World) : Nat := w.timers.countP fun t => t.agentId == id

theorem limits_iff {agentDto : AgentCreateDto} : (Call.spinUpAgent agentDto).limits id = true ↔
    agentDto.agentId = id ∧ ∃ ttl : ℚ, (AgentConfig.new env agentDto).ttl = ttl ∧ 0 < ttl := by
  rw [Call.limits, Bool.and_eq_true_iff, beq_iff_eq, decide_eq_true_iff]
  refine and_congr_right fun _ => ?_
  cases hdto : agentDto.ttl with
  | none =>
      have httl : (AgentConfig.new env agentDto).ttl = (3600 : ℚ) := by
        simp [AgentConfig.new, AgentConfig.defaultTtlSeconds, hdto]
      exact ⟨fun h => ⟨3600, httl, h⟩, fun _ => by norm_num⟩
  | some t =>
      have httl : (AgentConfig.new env agentDto).ttl = if t = 0 then ⊤ else (t : WithTop ℚ) := by
        simp [AgentConfig.new, hdto]
      rw [httl]
      constructor
      · exact fun hpos => ⟨t, if_neg (ne_of_gt hpos), hpos⟩
      · rintro ⟨ttl, hif, hpos⟩
        split at hif
        · cases hif
        · rw [← WithTop.coe_inj.mp hif] at hpos
          exact hpos

/-! ## What a call may add -/

theorem handleAlreadyRunningContainer_setsNone (config : AgentConfig) (autoConnect : Option Bool) (e : JsError) :
    (AgentManagerService.handleAlreadyRunningContainer config autoConnect e).Calls
      fun op => op.setsTimer id = false := by
  refine .bind (.bind (.call rfl) fun agentData => ?_) fun agentData => ?_
  · split
    · exact .bind (.call rfl) fun _ => .call rfl
    · trivial
  · cases agentData with
    | entry e =>
        dsimp only
        split
        · exact .bind (.call rfl) fun _ => trivial
        · trivial
    | _ => trivial

theorem startAgent_setsNone (config : AgentConfig) :
    (AgentManagerService.startAgent env config).Calls fun op => op.setsTimer id = false :=
  (AgentManagerService.startAgent_calls env config).mono fun op hop => by
    cases op with
    | setTimeout agentId ms => exact hop.elim
    | _ => rfl

theorem setSpinDownJob_setsOne (agentDto : AgentCreateDto) :
    (AgentManagerService.setSpinDownJob (AgentConfig.new env agentDto)).AtMost (Op.setsTimer id)
      ((Call.spinUpAgent agentDto).limits id).toNat := by
  cases hlimits : (Call.spinUpAgent agentDto).limits id with
  | true =>
      unfold AgentManagerService.setSpinDownJob
      split
      · trivial
      · split
        · exact .call
        · trivial
  | false =>
      refine .of_calls ((AgentManagerService.setSpinDownJob_calls _).mono fun op hop => ?_)
      cases op with
      | setTimeout agentId ms =>
          obtain ⟨hid, ttl, httl, hpos, -⟩ := hop
          refine beq_eq_false_iff_ne.mpr fun he => ?_
          rw [limits_iff.mpr ⟨hid.symm.trans he, ttl, httl, hpos⟩] at hlimits
          cases hlimits
      | _ => rfl

theorem spinUpAgent_setsOne (agentDto : AgentCreateDto) :
    (AgentManagerService.spinUpAgent env agentDto).AtMost (Op.setsTimer id)
      ((Call.spinUpAgent agentDto).limits id).toNat := by
  have hstart : (tryCatch (AgentManagerService.startAgent env (AgentConfig.new env agentDto)) fun e =>
      AgentManagerService.handleAlreadyRunningContainer (AgentConfig.new env agentDto) agentDto.autoConnect e).AtMost
        (Op.setsTimer id) 0 :=
    .of_calls (.tryCatch (startAgent_setsNone _) fun e => handleAlreadyRunningContainer_setsNone _ _ e)
  have hfinish : (AgentManagerService.finishSpinUp env agentDto).AtMost (Op.setsTimer id)
      (0 + (((Call.spinUpAgent agentDto).limits id).toNat + 0)) := by
    refine .bind (.of_calls (.call rfl)) fun _ => .bind (setSpinDownJob_setsOne agentDto) fun _ => ?_
    split
    · exact .of_calls (.bind (AgentManagerService.pingConnectionWithRetry_calls (fun op => op.setsTimer id = false)
        rfl rfl rfl _) fun _ => .bind (.call rfl) fun _ => trivial)
    · trivial
  exact (hstart.bind fun _ => hfinish).mono (by omega)

theorem body_setsOne (k : Call) : (k.body env).AtMost (Op.setsTimer id) (k.limits id).toNat := by
  cases k with
  | spinUpAgent agentDto =>
      have hreply : ∀ reply : AgentManagerService.AgentReply,
          (pure (.agent reply) : Prog JsError Op.Val Reply).AtMost (Op.setsTimer id) 0 := fun _ => trivial
      exact (spinUpAgent_setsOne agentDto).bind hreply
  | _ =>
      refine .of_calls ((Call.body_calls env _).mono fun op hop => ?_)
      cases op with
      | setTimeout agentId ms => exact hop.elim
      | _ => rfl

/-! ## What a call has added when it succeeds -/

theorem setSpinDownJob_sets {agentDto : AgentCreateDto} (h : (Call.spinUpAgent agentDto).limits id = true) :
    (AgentManagerService.setSpinDownJob (AgentConfig.new env agentDto)).AtLeast (Op.setsTimer id) 1 := by
  obtain ⟨hid, ttl, httl, hpos⟩ := limits_iff.mp h
  have hcall : (Prog.call (Op.setTimeout agentDto.agentId (ttl * 1000)) : Prog JsError Op.Val Unit).AtLeast
      (Op.setsTimer id) ((Op.setTimeout agentDto.agentId (ttl * 1000)).setsTimer id).toNat := .call
  have hsets : (Op.setTimeout agentDto.agentId (ttl * 1000)).setsTimer id = true := beq_iff_eq.mpr hid
  have hjob : AgentManagerService.setSpinDownJob (AgentConfig.new env agentDto) =
      Prog.call (Op.setTimeout agentDto.agentId (ttl * 1000)) := by
    unfold AgentManagerService.setSpinDownJob
    rw [httl]
    exact if_pos hpos
  rwa [hjob, ← Bool.toNat_true, ← hsets]

theorem body_sets (k : Call) : (k.body env).AtLeast (Op.setsTimer id) (k.limits id).toNat := by
  cases hlimits : k.limits id with
  | false => exact .zero
  | true =>
      cases k with
      | spinUpAgent agentDto =>
          have hfinish : (AgentManagerService.finishSpinUp env agentDto).AtLeast (Op.setsTimer id) (0 + (1 + 0)) :=
            .bind .zero fun _ => .bind (setSpinDownJob_sets hlimits) fun _ => .zero
          have hspinUp : (AgentManagerService.spinUpAgent env agentDto).AtLeast (Op.setsTimer id) (0 + 1) :=
            .bind .zero fun _ => hfinish
          have hreply : ∀ reply : AgentManagerService.AgentReply,
              (pure (.agent reply) : Prog JsError Op.Val Reply).AtLeast (Op.setsTimer id) 0 := fun _ => rfl
          exact hspinUp.bind hreply
      | _ => cases hlimits

/-! ## Runs -/

theorem timersOf_effect {op : Op} {d : Detail} {w w' : World} {v} (h : effect env op d w = some (v, w')) :
    w'.timersOf id = w.timersOf id + (op.setsTimer id).toNat := by
  cases op with
  | setTimeout agentId ms =>
      cases d with
      | plain =>
          cases h
          rw [World.timersOf, List.countP_append, List.countP_singleton]
          cases hid : agentId == id <;> simp [World.timersOf, Op.setsTimer, hid]
      | _ => cases h
  | _ =>
      rcases effect_cases h with rfl | ⟨-, hw⟩ | ⟨_, _, _, -, rfl⟩ | ⟨_, -, rfl⟩ | hserver | ⟨_, _, -, -, rfl⟩ |
        ⟨_, _, hop, -⟩
      · rfl
      · rw [hw]
        rfl
      · rfl
      · rfl
      · rw [hserver.frame]
        rfl
      · rfl
      · cases hop

theorem timersOf_event (id : String) {e : Event} {w w' : World} {ks : List Call} (h : event e w = some (w', ks)) :
    w'.timersOf id + (ks.map fun k => (k.stops id).toNat).sum = w.timersOf id ∧
      (ks.map fun k => (k.limits id).toNat).sum = 0 := by
  rcases event_cases h with ⟨ms, -, rfl, rfl⟩ | ⟨key, rfl, rfl⟩ | ⟨t, ht, -, rfl, rfl⟩
  · exact ⟨rfl, rfl⟩
  · exact ⟨rfl, rfl⟩
  · have hcount := (List.perm_cons_erase ht).countP_eq fun t => t.agentId == id
    have hstops : ((Call.spinDownAgent t.agentId).stops id).toNat = if t.agentId == id then 1 else 0 := by
      by_cases hid : t.agentId = id <;> simp [Call.stops, hid]
    rw [List.countP_cons, ← hstops] at hcount
    refine ⟨?_, rfl⟩
    rw [List.map_cons, List.map_nil, List.sum_singleton]
    exact hcount.symm

/-- A timer is paid for by the spin-up that sets it, and pays for the spin-down that it begins. -/
theorem metered (env : Env) (id : String) :
    (system env).Metered (Op.setsTimer id) (fun k => (k.limits id).toNat) (fun k => (k.stops id).toNat)
      (World.timersOf id) where
  body := body_setsOne
  arrive _ _ := Nat.le_refl _
  answer op ch w a w' h := by
    rcases answer_cases h with ⟨rfl, -⟩ | ⟨d, o, v, -, heffect, ha⟩
    · exact .inl (Nat.le_refl _)
    have hadds : w'.timersOf id = w.timersOf id + (op.setsTimer id).toNat := timersOf_effect heffect
    cases hop : op.setsTimer id with
    | false => exact .inl (by rw [hadds, hop]; exact Nat.le_refl _)
    | true =>
        refine .inr ⟨rfl, ?_, by rw [hadds, hop]; exact Nat.le_refl _⟩
        rcases ha with ⟨rfl, -⟩ | ⟨e, rfl, -⟩ | ⟨-, -, hretried⟩
        · exact Option.some_ne_none _
        · exact Option.some_ne_none _
        · cases op with
          | setTimeout agentId ms => cases hretried
          | _ => cases hop
  env e w w' ks h := by
    obtain ⟨hstops, hlimits⟩ := timersOf_event id h
    rw [List.sum_map_add]
    omega

/-- A spin-up that succeeds has set its timer, and only the spin-down that it begins takes a timer away. -/
theorem owing (env : Env) (id : String) :
    (system env).Owing (Op.setsTimer id) (fun k => (k.limits id).toNat) (fun k => (k.stops id).toNat)
      (World.timersOf id) where
  body := body_sets
  arrive _ _ := Nat.le_refl _
  answer op ch w a w' h := by
    rcases answer_cases h with ⟨rfl, e, rfl, -⟩ | ⟨d, o, v, -, heffect, -⟩
    · exact ⟨Nat.le_refl _, fun _ v hv => by cases hv⟩
    have hadds : w'.timersOf id = w.timersOf id + (op.setsTimer id).toNat := timersOf_effect heffect
    refine ⟨hadds ▸ Nat.le_add_right _ _, fun hop _ _ => ?_⟩
    rw [hadds, hop]
    exact Nat.le_refl _
  env e w w' ks h := (timersOf_event id h).1.ge

/-- In every run, the timers of an agent that have not fired and the spin-downs of that agent so far are together no
fewer than the spin-ups with a limited lifetime that succeeded and the spin-downs that were asked for from outside, and
no more than those spin-ups and spin-downs that were asked for. -/
theorem stops_accounted {ls : List (Label Choice Call Event)} {c : Config JsError Op.Val World Call Reply}
    (hrun : (system env).run (.init .empty) ls = some c) (id : String) :
    (c.threads.filter Thread.succeeded).countP (fun th => th.call.limits id) + (begun ls).countP (Call.stops id) ≤
        c.world.timersOf id + c.threads.countP (fun th => th.call.stops id) ∧
      c.world.timersOf id + c.threads.countP (fun th => th.call.stops id) ≤
        (begun ls).countP (Call.limits id) + (begun ls).countP (Call.stops id) := by
  have hmost := (metered env id).bounded hrun
  have hleast := (owing env id).covered hrun
  have hempty : World.empty.timersOf id = 0 := rfl
  rw [List.sum_map_add, sum_toNat (Call.limits id), sum_toNat (Call.stops id),
    sum_toNat fun th : Thread JsError Op.Val World Call Reply => th.call.stops id, hempty] at hmost
  rw [sum_toNat (Call.stops id), sum_toNat fun th : Thread JsError Op.Val World Call Reply => th.call.limits id,
    sum_toNat fun th : Thread JsError Op.Val World Call Reply => th.call.stops id, hempty] at hleast
  exact ⟨by omega, by omega⟩

/-- An agent is spun up again while it runs, and the first of its two timers fires. -/
def spunUpTwice : List (Label Choice Call Event) :=
  [.begin (.spinUpAgent sampleAgent), .answer 0 fine, .answer 0 fine, .answer 0 fine, .answer 0 fine,
    .begin (.spinUpAgent sampleAgent), .answer 1 (.failed { name := "Error", message := "name already in use" }),
    .answer 1 fine, .answer 1 fine, .answer 1 fine, .env (.pass 3600000),
    .env (.fire { agentId := "agent", due := 3600000 })]

theorem stops_accounted_spunUpTwice : ∃ c, (system sampleEnv).run (.init .empty) spunUpTwice = some c ∧
    c.world.timersOf "agent" = 1 ∧ (begun spunUpTwice).countP (Call.limits "agent") = 2 ∧
    (c.threads.filter Thread.succeeded).countP (fun th => th.call.limits "agent") +
        (begun spunUpTwice).countP (Call.stops "agent") ≤
      c.world.timersOf "agent" + c.threads.countP (fun th => th.call.stops "agent") ∧
    c.world.timersOf "agent" + c.threads.countP (fun th => th.call.stops "agent") ≤
      (begun spunUpTwice).countP (Call.limits "agent") + (begun spunUpTwice).countP (Call.stops "agent") := by
  have hrun : ((system sampleEnv).run (.init .empty) spunUpTwice).map (fun c => c.world.timersOf "agent") = some 1 := by
    decide +kernel
  obtain ⟨c, hc, htimers⟩ := Option.map_eq_some_iff.mp hrun
  exact ⟨c, hc, htimers, by decide +kernel, stops_accounted hc "agent"⟩

end GuardianshipAgency.Agency
