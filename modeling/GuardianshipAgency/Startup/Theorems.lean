import GuardianshipAgency.Agency.Theorems
import GuardianshipAgency.Startup.Lemmas.Invitations

/-!
# Properties of a spin-up
-/

namespace GuardianshipAgency.Startup

open Js Async Agency

variable {env : Env}

/-! ## Pings -/

/-- Whatever the answers, `pingConnectionWithRetry` settles. On a clock that never runs backwards it makes no more
checks than there are seconds, resolves if and only if one of them reports the status 200, which is then the last, and
throws its own error otherwise. Its rounds are those of the loop, which nothing else bounds. -/
theorem pingConnectionWithRetry_bounded (agentId adminApiKey : String) (adminPort : AdminPort)
    (durationMS : Option ℚ) :
    (∀ answers, ∃ xs r,
      (AgentManagerService.pingConnectionWithRetry agentId adminPort adminApiKey durationMS).Path xs r ∧
        Given answers xs) ∧
    ∀ t xs r, (AgentManagerService.pingConnectionWithRetry agentId adminPort adminApiKey durationMS).Path xs r →
      Ticks t xs →
        xs.countP isCheck ≤ maxChecks durationMS ∧ (r = .ok () ↔ ∃ x ∈ xs, reportsUp x = true) ∧
        (∀ x ∈ xs.dropLast, reportsUp x = false) ∧
        (r = .ok () ∨ r = .error (AgentManagerService.neverUp agentId)) ∧
        ∀ d, durationMS = some d → ∃ startOf ys, xs = { op := .getTime, answer := .ok startOf } :: ys ∧
          PingLoop agentId { host := .agent agentId adminPort, apiKey := adminApiKey } d startOf ys r := by
  refine ⟨fun answers => Prog.Path.exists_given _ answers, fun t xs r hpath hticks => ?_⟩
  obtain ⟨startOf, ys, rfl, hticks, ⟨rfl, rfl, rfl⟩ | ⟨d, rfl, hloop⟩⟩ := pingConnectionWithRetry_loop hticks hpath
  · simp [isCheck, reportsUp, maxChecks]
  · refine ⟨?_, ?_, ?_, pingLoop_result hloop, ?_⟩
    · have hchecks := pingLoop_checks hticks hloop
      rw [sub_self, sub_zero] at hchecks
      simp only [maxChecks, List.countP_cons, isCheck, Bool.false_eq_true, ↓reduceIte]
      omega
    · simp [pingLoop_ok_iff hloop, reportsUp]
    · intro x hx
      rw [List.dropLast_cons_of_ne_nil (pingLoop_ne_nil hloop)] at hx
      rcases List.mem_cons.mp hx with rfl | hx
      · rfl
      · exact pingLoop_dropLast hloop x hx
    · rintro _ ⟨⟩
      exact ⟨startOf, ys, rfl, hloop⟩

def connecting : AgentCreateDto := { sampleAgent with autoConnect := some true }

/-- The agent runs already, and the cache does not know it. -/
def alreadyRunning : World :=
  (World.empty.setPod "agent" (some (AgentConfig.new sampleEnv connecting))).setService "agent"
    (some (AgentConfig.new sampleEnv connecting))

def waited : Choice := .done (.elapsed 1000) .answered

def up : Choice := .done (.status 200) .answered

theorem pingConnectionWithRetry_bounded_secondCheck : ∃ t xs r, Ticks t xs ∧
    (AgentManagerService.pingConnectionWithRetry "agent" (.number (some 5001)) "key" (some 3000)).Path xs r ∧
    r = .ok () ∧ xs.countP isCheck ≤ maxChecks (some 3000) := by
  have htrace : ((machine sampleEnv).trace
      (AgentManagerService.pingConnectionWithRetry "agent" (.number (some 5001)) "key" (some 3000)) alreadyRunning
      [fine, fine, waited, .failed (Json.typeError "refused"), fine, waited, up]).map (fun x =>
        x.1.any reportsUp) = some true := by decide_cbv
  obtain ⟨⟨xs, r, w⟩, htrace, hup⟩ := Option.map_eq_some_iff.mp htrace
  have hpath := Prog.Path.of_trace htrace
  have hticks := ticks_of_trace htrace
  obtain ⟨hchecks, hok, -⟩ := (pingConnectionWithRetry_bounded _ _ _ _).2 _ xs r hpath hticks
  exact ⟨_, xs, r, hticks, hpath, hok.mpr (List.any_eq_true.mp hup), hchecks⟩

/-! ## Invitations -/

/-- A spin-up that resolves invites once unless `startAgent` has failed and the caller wants a connection. -/
theorem spinUpAgent_invites_iff {agentDto : AgentCreateDto} {xs : Exchanges}
    {reply : AgentManagerService.AgentReply}
    (h : (AgentManagerService.spinUpAgent env agentDto).Path xs (.ok reply)) :
    ∃ ys zs r, xs = ys ++ zs ∧ (AgentManagerService.startAgent env (AgentConfig.new env agentDto)).Path ys r ∧
      (InvitesOnce (AgentConfig.new env agentDto) agentDto.autoConnect xs reply ↔
        r = .ok () ∨ agentDto.autoConnect ≠ some true) := by
  rw [AgentManagerService.spinUpAgent_eq] at h
  obtain ⟨ys, zs, r, rfl, hstart, hrest⟩ := Prog.Path.andThen_inv h
  refine ⟨ys, zs, r, rfl, hstart, ?_⟩
  have hys := countP_isInvitation (startAgent_noInvitation _) hstart
  by_cases hconnect : agentDto.autoConnect = some true
  · cases r with
    | ok _ =>
        obtain ⟨us, rfl, hus, hping⟩ := finishSpinUp_connects hconnect hrest
        refine ⟨fun _ => .inl rfl, fun _ => ?_⟩
        rw [← List.append_assoc]
        refine .last hconnect ?_ (List.mem_append_right _ hping)
        rw [List.countP_append, hys, hus]
    | error e =>
        obtain ⟨us, vs, _, rfl, hhandle, hfinish⟩ := Prog.Path.bind_ok hrest
        rw [hconnect] at hhandle
        have hus := handleAlreadyRunning_connects hhandle
        obtain ⟨vs, rfl, hvs, -⟩ := finishSpinUp_connects hconnect hfinish
        constructor
        · intro honce
          have hcount := honce.count
          rw [if_pos hconnect] at hcount
          simp only [List.countP_append, List.countP_cons, isInvitation, invitationOf, ↓reduceIte] at hcount
          omega
        · rintro (hok | hno)
          · cases hok
          · exact absurd hconnect hno
  · refine ⟨fun _ => .inr hconnect, fun _ => .none hconnect ?_⟩
    rw [List.countP_append, hys, countP_isInvitation (afterStart_noInvitation hconnect r) hrest]

theorem spinUpAgent_invites_connected : ∃ xs reply,
    (AgentManagerService.spinUpAgent sampleEnv connecting).Path xs (.ok reply) ∧
    InvitesOnce (AgentConfig.new sampleEnv connecting) (some true) xs reply := by
  have htrace : ((machine sampleEnv).trace (AgentManagerService.spinUpAgent sampleEnv connecting) .empty
      [fine, fine, fine, fine, fine, fine, waited, up, invited]).map (fun x =>
        (x.2.1.isOk, x.1.all fun x => x.answer.isOk)) = some (true, true) := by decide_cbv
  obtain ⟨⟨xs, r, w⟩, htrace, he⟩ := Option.map_eq_some_iff.mp htrace
  obtain ⟨hok, hall⟩ := Prod.mk.inj he
  have hpath := Prog.Path.of_trace htrace
  cases r with
  | error e => cases hok
  | ok reply =>
      obtain ⟨ys, zs, r, hxs, hstart, hiff⟩ := spinUpAgent_invites_iff hpath
      refine ⟨xs, reply, hpath, hiff.mpr (.inl ?_)⟩
      cases r with
      | ok _ => rfl
      | error e =>
          obtain ⟨x, hx, hfailed⟩ := startAgent_failed hstart
          dsimp only at hxs hall
          rw [List.all_eq_true.mp hall x (by rw [hxs]; exact List.mem_append_left _ hx)] at hfailed
          cases hfailed

/-- Two invitations can be asked for. -/
theorem not_forall_invitesOnce : ¬∀ agentDto xs reply,
    (AgentManagerService.spinUpAgent sampleEnv agentDto).Path xs (.ok reply) →
      InvitesOnce (AgentConfig.new sampleEnv agentDto) agentDto.autoConnect xs reply := by
  intro h
  have htrace : ((machine sampleEnv).trace (AgentManagerService.spinUpAgent sampleEnv connecting) alreadyRunning
      [.failed (Json.typeError "pod exists"), fine, fine, fine, invited, fine, fine, fine, fine, waited, up,
        invited]).map (fun x => (x.2.1.isOk, x.1.countP isInvitation)) = some (true, 2) := by decide_cbv
  obtain ⟨⟨xs, r, w⟩, htrace, he⟩ := Option.map_eq_some_iff.mp htrace
  obtain ⟨hok, hcount⟩ := Prod.mk.inj he
  cases r with
  | error e => cases hok
  | ok reply =>
      have honce := h connecting xs reply (.of_trace htrace)
      have hone := honce.count
      rw [hcount] at hone
      cases hone

end GuardianshipAgency.Startup
