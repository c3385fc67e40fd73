import GuardianshipAgency.Agency.Lemmas.SpinUp
import GuardianshipAgency.Startup.Lemmas.Pings

/-!
# Invitations of a spin-up
-/

namespace GuardianshipAgency.Startup

open Js Async Agency

variable {env : Env}

def adminTarget (config : AgentConfig) : AdminTarget :=
  { host := .agent config.agentId (.number config.adminPort), apiKey := config.adminApiKey }

def isInvitation (x : Exchange JsError Op.Val) : Bool :=
  match x.op with
  | .createInvitation _ => true
  | _ => false

def goodPing (config : AgentConfig) : Exchange JsError Op.Val :=
  { op := .status (adminTarget config), answer := .ok 200 }

def invitationOf (config : AgentConfig) (invitation : Option Json) : Exchange JsError Op.Val :=
  { op := .createInvitation (adminTarget config), answer := .ok invitation }

/-! ## Calls that are no invitations -/

def NoInvitation (op : Op) : Prop := ∀ target, op ≠ .createInvitation target

theorem countP_isInvitation {α : Type} {p : Prog JsError Op.Val α} {xs : Exchanges} {r : Except JsError α}
    (hp : p.Calls NoInvitation) (h : p.Path xs r) : xs.countP isInvitation = 0 := by
  rw [List.countP_eq_zero]
  intro x hx
  have hop := h.calls hp x hx
  unfold isInvitation
  split
  · rename_i target heq
    exact absurd heq (hop target)
  · exact Bool.false_ne_true

theorem startAgent_noInvitation (config : AgentConfig) :
    (AgentManagerService.startAgent env config).Calls NoInvitation := by
  refine (AgentManagerService.startAgent_calls env config).mono fun op hop target he => ?_
  rw [he] at hop
  exact hop

theorem setAgentCache_noInvitation (config : AgentConfig) :
    (AgentManagerService.setAgentCache config).Calls NoInvitation := by
  refine .call fun target he => ?_
  cases he

theorem setSpinDownJob_noInvitation (config : AgentConfig) :
    (AgentManagerService.setSpinDownJob config).Calls NoInvitation := by
  unfold AgentManagerService.setSpinDownJob
  split
  · trivial
  · split
    · refine .call fun target he => ?_
      cases he
    · trivial

theorem pingConnectionWithRetry_noInvitation (agentId adminApiKey : String) (adminPort : AdminPort)
    (durationMS : Option ℚ) :
    (AgentManagerService.pingConnectionWithRetry agentId adminPort adminApiKey durationMS).Calls NoInvitation := by
  refine AgentManagerService.pingConnectionWithRetry_calls NoInvitation ?_ ?_ ?_ durationMS
  all_goals
    intro target he
    cases he

theorem agentDataOrAdded_noInvitation (config : AgentConfig) :
    (AgentManagerService.agentDataOrAdded config).Calls NoInvitation := by
  have hget : (Prog.call (Op.cacheGet config.agentId) : Prog JsError Op.Val Lookup).Calls NoInvitation := by
    refine .call fun target he => ?_
    cases he
  refine .bind hget fun agentData => ?_
  split
  · exact .bind (setAgentCache_noInvitation config) fun _ => hget
  · trivial

/-! ## Pings -/

theorem pingRounds_pinged {agentId adminApiKey : String} {adminPort : AdminPort} {durationMS startOf : ℚ} {n : Nat}
    {xs : Exchanges}
    (h : (AgentManagerService.pingRounds agentId adminPort adminApiKey durationMS startOf n).Path xs (.ok ())) :
    { op := .status { host := .agent agentId adminPort, apiKey := adminApiKey }, answer := .ok 200 } ∈ xs := by
  induction n generalizing xs with
  | zero => cases (Prog.Path.settled_inv h).2
  | succ n ih =>
      obtain ⟨_, ys, now, rfl, -, hrest⟩ := Prog.Path.bind_ok h
      refine List.mem_append_right _ ?_
      split at hrest
      · obtain ⟨_, zs, _, rfl, -, hdelayed⟩ := Prog.Path.bind_ok hrest
        refine List.mem_append_right _ ?_
        obtain ⟨us, vs, up, rfl, hup, hlast⟩ := Prog.Path.bind_ok hdelayed
        obtain ⟨status, rfl, hstatus⟩ := isAgentServerUp_path hup
        cases hstatus
        cases hgood : good status with
        | true =>
            have h200 : status = .ok 200 := by
              cases status with
              | ok code => rw [eq_of_beq hgood]
              | error e => cases hgood
            rw [h200]
            exact List.mem_append_left _ (List.mem_singleton_self _)
        | false =>
            rw [hgood] at hlast
            exact List.mem_append_right _ (ih hlast)
      · cases (Prog.Path.settled_inv hrest).2

theorem pingConnectionWithRetry_pinged {agentId adminApiKey : String} {adminPort : AdminPort} {durationMS : Option ℚ}
    {xs : Exchanges}
    (h : (AgentManagerService.pingConnectionWithRetry agentId adminPort adminApiKey durationMS).Path xs (.ok ())) :
    { op := .status { host := .agent agentId adminPort, apiKey := adminApiKey }, answer := .ok 200 } ∈ xs := by
  obtain ⟨_, ys, startOf, rfl, -, hrest⟩ := Prog.Path.bind_ok h
  cases durationMS with
  | none => cases (Prog.Path.settled_inv hrest).2
  | some d => exact List.mem_append_right _ (pingRounds_pinged hrest)

/-! ## Parts of `spinUpAgent` -/

theorem two_failed {op op' : Op} {xs : Exchanges} {e : JsError}
    (h : (Prog.call op >>= fun _ => Prog.call op' : Prog JsError Op.Val _).Path xs (.error e)) :
    ∃ x ∈ xs, x.answer.isOk = false := by
  rcases Prog.Path.bind_inv h with ⟨e, hcall, -⟩ | ⟨ys, zs, _, rfl, -, hcall⟩
  · rw [Prog.Path.call_inv hcall]
    exact ⟨_, List.mem_singleton_self _, rfl⟩
  · rw [Prog.Path.call_inv hcall]
    exact ⟨_, List.mem_append_right _ (List.mem_singleton_self _), rfl⟩

/-- `startAgent` throws nothing of its own. -/
theorem startAgent_failed {config : AgentConfig} {xs : Exchanges} {e : JsError}
    (h : (AgentManagerService.startAgent env config).Path xs (.error e)) : ∃ x ∈ xs, x.answer.isOk = false := by
  unfold AgentManagerService.startAgent at h
  cases hm : env.managerType with
  | docker | k8s =>
      rw [hm] at h
      exact two_failed h

/-- With `autoConnect` the last thing `finishSpinUp` does is to get the invitation that it returns. -/
theorem finishSpinUp_connects {agentDto : AgentCreateDto} {xs : Exchanges} {reply : AgentManagerService.AgentReply}
    (hconnect : agentDto.autoConnect = some true)
    (h : (AgentManagerService.finishSpinUp env agentDto).Path xs (.ok reply)) :
    ∃ ys, xs = ys ++ [invitationOf (AgentConfig.new env agentDto) reply.connectionData] ∧
      ys.countP isInvitation = 0 ∧ goodPing (AgentConfig.new env agentDto) ∈ ys := by
  obtain ⟨ys₁, xs, _, rfl, hcache, hrest⟩ := Prog.Path.bind_ok h
  obtain ⟨ys₂, xs, _, rfl, hjob, hrest⟩ := Prog.Path.bind_ok hrest
  rw [if_pos hconnect] at hrest
  obtain ⟨ys₃, xs, _, rfl, hping, hrest⟩ := Prog.Path.bind_ok hrest
  obtain ⟨ys₄, xs, invitation, rfl, hcall, hrest⟩ := Prog.Path.bind_ok hrest
  obtain ⟨rfl, hreply⟩ := Prog.Path.settled_inv hrest
  cases hreply
  rw [Prog.Path.call_inv hcall]
  refine ⟨ys₁ ++ ys₂ ++ ys₃, by simp [invitationOf, adminTarget], ?_,
    List.mem_append_right _ (pingConnectionWithRetry_pinged hping)⟩
  simp only [List.countP_append, countP_isInvitation (setAgentCache_noInvitation _) hcache,
    countP_isInvitation (setSpinDownJob_noInvitation _) hjob,
    countP_isInvitation (pingConnectionWithRetry_noInvitation _ _ _ _) hping]

theorem finishSpinUp_noInvitation {agentDto : AgentCreateDto} (hconnect : agentDto.autoConnect ≠ some true) :
    (AgentManagerService.finishSpinUp env agentDto).Calls NoInvitation := by
  refine .bind (setAgentCache_noInvitation _) fun _ => .bind (setSpinDownJob_noInvitation _) fun _ => ?_
  rw [if_neg hconnect]
  trivial

/-- With `autoConnect` the handler resolves only if it got an invitation. -/
theorem handleAlreadyRunning_connects {config : AgentConfig} {e : JsError} {xs : Exchanges}
    (h : (AgentManagerService.handleAlreadyRunningContainer config (some true) e).Path xs (.ok ())) :
    1 ≤ xs.countP isInvitation := by
  obtain ⟨ys, zs, agentData, rfl, -, hrest⟩ := Prog.Path.bind_ok h
  cases agentData with
  | entry entry =>
      obtain ⟨us, vs, _, rfl, hcall, -⟩ := Prog.Path.bind_ok hrest
      rw [Prog.Path.call_inv hcall]
      simp only [List.countP_append, List.countP_cons, isInvitation, ↓reduceIte]
      omega
  | undefined => cases (Prog.Path.settled_inv hrest).2
  | null => cases (Prog.Path.settled_inv hrest).2

theorem handleAlreadyRunning_noInvitation {config : AgentConfig} {autoConnect : Option Bool} {e : JsError}
    (hconnect : autoConnect ≠ some true) :
    (AgentManagerService.handleAlreadyRunningContainer config autoConnect e).Calls NoInvitation := by
  refine .bind (agentDataOrAdded_noInvitation config) fun agentData => ?_
  cases agentData with
  | entry entry =>
      dsimp only
      rw [if_neg hconnect]
      trivial
  | undefined | null => trivial

theorem afterStart_noInvitation {agentDto : AgentCreateDto} (hconnect : agentDto.autoConnect ≠ some true)
    (r : Except JsError Unit) : (AgentManagerService.afterStart env agentDto r).Calls NoInvitation := by
  cases r with
  | ok _ => exact finishSpinUp_noInvitation hconnect
  | error e => exact .bind (handleAlreadyRunning_noInvitation hconnect) fun _ => finishSpinUp_noInvitation hconnect

/-! ## One invitation -/

/-- With `autoConnect` one invitation is asked for, otherwise none. It is asked for after the agent has reported the
status 200, and it is the one returned. -/
structure InvitesOnce (config : AgentConfig) (autoConnect : Option Bool) (xs : Exchanges)
    (reply : AgentManagerService.AgentReply) : Prop where
  count : xs.countP isInvitation = if autoConnect = some true then 1 else 0
  pinged : ∀ pre x post, xs = pre ++ x :: post → isInvitation x = true →
    goodPing config ∈ pre
  returned : ∀ target a, { op := .createInvitation target, answer := a } ∈ xs → a = .ok reply.connectionData

theorem InvitesOnce.none {config : AgentConfig} {autoConnect : Option Bool} {xs : Exchanges}
    {reply : AgentManagerService.AgentReply} (hconnect : autoConnect ≠ some true)
    (hxs : xs.countP isInvitation = 0) : InvitesOnce config autoConnect xs reply where
  count := by rw [hxs, if_neg hconnect]
  pinged pre x post he hx := by
    rw [List.countP_eq_zero] at hxs
    exact absurd hx (hxs x (by simp [he]))
  returned target a ha := by
    rw [List.countP_eq_zero] at hxs
    exact absurd rfl (hxs _ ha)

theorem InvitesOnce.last {config : AgentConfig} {autoConnect : Option Bool} {ys : Exchanges}
    {reply : AgentManagerService.AgentReply} (hconnect : autoConnect = some true)
    (hys : ys.countP isInvitation = 0) (hping : goodPing config ∈ ys) :
    InvitesOnce config autoConnect (ys ++ [invitationOf config reply.connectionData]) reply where
  count := by simp [hys, hconnect, isInvitation, invitationOf, List.countP_cons]
  pinged pre x post he hx := by
    rcases List.eq_nil_or_concat post with rfl | ⟨post, y, rfl⟩
    · rw [List.append_inj_left' he rfl] at hping
      exact hping
    · rw [List.concat_eq_append, ← List.cons_append, ← List.append_assoc] at he
      have hmem : x ∈ ys := by simp [List.append_inj_left' he rfl]
      exact absurd hx (List.countP_eq_zero.mp hys x hmem)
  returned target' a ha := by
    rcases List.mem_append.mp ha with ha | ha
    · exact absurd rfl (List.countP_eq_zero.mp hys _ ha)
    · cases List.mem_singleton.mp ha
      rfl

end GuardianshipAgency.Startup
