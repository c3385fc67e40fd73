import GuardianshipAgency.Agency.Theorems
import GuardianshipAgency.Lifecycle.Lemmas.Cleanup
import GuardianshipAgency.Lifecycle.Lemmas.Credentials
import GuardianshipAgency.Lifecycle.Lemmas.Failures
import GuardianshipAgency.Lifecycle.Lemmas.Removals
import GuardianshipAgency.Lifecycle.Lemmas.Timers

/-!
# Properties of the life of an agent
-/

namespace GuardianshipAgency.Lifecycle

open Js Async Agency

variable {env : Env}

/-! ## What a spin-up reports -/

/-- If the cache does not fail, what a spin-up reports is so if and only if the agent runs once `startAgent` has
settled, or its failure is contained. -/
theorem spinUpAgent_real_iff {agentDto : AgentCreateDto} {w w' : World}
    {r : Except JsError AgentManagerService.AgentReply}
    (h : (steadyMachine env).Exec (AgentManagerService.spinUpAgent env agentDto) w r w') :
    ∃ r₁ w₁, (steadyMachine env).Exec (AgentManagerService.startAgent env (AgentConfig.new env agentDto)) w r₁ w₁ ∧
      (steadyMachine env).Exec (AgentManagerService.afterStart env agentDto r₁) w₁ r w' ∧
      (Real env agentDto.agentId w r w' ↔ (w₁.running env agentDto.agentId).isSome ∨ Contained env w agentDto) := by
  obtain ⟨r₁, w₁, hstart, hrest⟩ := spinUpAgent_inv h
  refine ⟨r₁, w₁, hstart, hrest, ?_⟩
  have hresult := startAgent_result (exec_of_steady hstart)
  cases hrunning : w₁.running env agentDto.agentId with
  | some config =>
      have hrunning' : w'.running env agentDto.agentId = some config := by
        rw [managed_running (afterStart_managed (exec_of_steady hrest)), hrunning]
      cases r with
      | ok reply => simp [Real, hrunning']
      | error e => simp [Real, hrunning']
  | none =>
      cases r₁ with
      | ok _ =>
          have hok := hresult.ok rfl
          rw [AgentConfig.new_agentId, hrunning] at hok
          cases hok
      | error e =>
          have hfailed := failed_real_iff hrunning hrest
          simp only [Real, Contained, startResult_lookup hresult] at hfailed
          simpa [Real, Contained] using hfailed

def sampleRedisEnv : Env := { sampleEnv with redisEnabled := true }

theorem spinUpAgent_real_redis : ∃ w' e,
    (steadyMachine sampleRedisEnv).Exec (AgentManagerService.spinUpAgent sampleRedisEnv sampleAgent) .empty
      (.error e) w' ∧
    Real sampleRedisEnv "agent" .empty (.error e) w' := by
  have hplay : ((steadyMachine sampleRedisEnv).play (AgentManagerService.spinUpAgent sampleRedisEnv sampleAgent) .empty
      [.failed (Json.typeError "no pod"), fine]).map (fun rw => rw.1.isOk) = some false := by decide_cbv
  obtain ⟨⟨r, w'⟩, hplay, he⟩ := Option.map_eq_some_iff.mp hplay
  cases r with
  | ok reply => cases he
  | error e =>
      obtain ⟨r₁, w₁, -, -, hiff⟩ := spinUpAgent_real_iff (Machine.Exec.of_play hplay)
      exact ⟨w', e, .of_play hplay, hiff.mpr (.inr (.inl rfl))⟩

/-- A spin-up can resolve though no pod could be created. -/
theorem not_forall_real : ¬∀ agentDto w r w',
    (steadyMachine sampleEnv).Exec (AgentManagerService.spinUpAgent sampleEnv agentDto) w r w' →
      Real sampleEnv agentDto.agentId w r w' := by
  intro h
  have hplay : ((steadyMachine sampleEnv).play (AgentManagerService.spinUpAgent sampleEnv sampleAgent) .empty
      [.failed (Json.typeError "no pod"), fine, fine, fine, fine, fine]).map (fun rw =>
        (rw.1.isOk, rw.2.running sampleEnv "agent")) = some (true, none) := by decide_cbv
  obtain ⟨⟨r, w'⟩, hplay, he⟩ := Option.map_eq_some_iff.mp hplay
  obtain ⟨hok, hrunning⟩ := Prod.mk.inj he
  cases r with
  | error e => cases hok
  | ok reply =>
      have hreal : (w'.running sampleEnv "agent").isSome := h _ _ _ _ (.of_play hplay)
      rw [hrunning] at hreal
      cases hreal

/-! ## Cached credentials -/

/-- In every history of spin-ups by callers who know the credentials of what runs, of spin-downs, timers and
expiry, the live entry of a running agent has the key and the port with which the agent was started. -/
theorem cached_credentials_fit {ms : Moments} {w : World} (h : (system env).History .empty ms w)
    (hturns : ∀ m ∈ ms, ofManager m.turn = true)
    (hknows : ∀ m ∈ ms, ∀ agentDto r, m.turn = .call (.spinUpAgent agentDto) r →
      KnowsCredentials env m.before agentDto) :
    Consistent env w := by
  refine System.History.invariant _ (fun _ => Consistent env) (consistent_empty env) ?_ h
    ((throughout_of_mem hturns).and (throughout_of_mem hknows))
  intro ms turn w w' hw hm htakes
  obtain ⟨hturn, hknows⟩ := hm
  rcases takes_cases hturn htakes with ⟨agentDto, r, r', rfl, hup⟩ | ⟨-, hshrinks⟩
  · exact hw.spinUp (hknows agentDto r rfl) hup
  · exact hw.shrink hshrinks

theorem cached_credentials_fit_started : ∃ ms w config e, (system sampleEnv).History .empty ms w ∧
    w.running sampleEnv "agent" = some config ∧ w.lookup "agent" = some e ∧ Fits e config := by
  have hplay : ((machine sampleEnv).play ((Call.spinUpAgent sampleAgent).body sampleEnv) .empty
      [fine, fine, fine, fine]).bind (fun rw => (rw.2.running sampleEnv "agent").bind fun config =>
        (rw.2.lookup "agent").map fun e => (config.adminApiKey, e.adminApiKey)) = some ("key", "key") := by
    decide_cbv
  obtain ⟨⟨r, w⟩, hplay, he⟩ := Option.bind_eq_some_iff.mp hplay
  obtain ⟨config, hrunning, he⟩ := Option.bind_eq_some_iff.mp he
  obtain ⟨e, hlookup, -⟩ := Option.map_eq_some_iff.mp he
  have hhistory : (system sampleEnv).History .empty
      [{ turn := .call (.spinUpAgent sampleAgent) r, before := .empty, after := w }] w :=
    .snoc .nil (.call (.of_play hplay))
  refine ⟨_, w, config, e, hhistory, hrunning, hlookup, ?_⟩
  refine cached_credentials_fit hhistory (fun m hm => ?_) (fun m hm agentDto r' hturn => ?_) _ _ _ hrunning hlookup
  · rw [List.mem_singleton.mp hm]
    rfl
  · rw [List.mem_singleton.mp hm] at hturn ⊢
    cases hturn
    exact fun _ e he => by cases he

/-- The entry of a running agent is lost, and a caller with another key spins the agent up. -/
def otherKeySpunUp : List (System.Script Choice Call Event) :=
  [.call (.spinUpAgent sampleAgent) [fine, fine, fine, fine], .env (.evict "agent") [],
    .call (.spinUpAgent { sampleAgent with adminApiKey := "other" })
      [.failed (Json.typeError "pod exists"), fine, fine, fine, fine, fine]]

/-- The live entry of a running agent can have a key that the agent was not started with. -/
theorem not_forall_consistent : ¬∀ ms w, (system sampleEnv).History .empty ms w →
    (∀ m ∈ ms, ofManager m.turn = true) → Consistent sampleEnv w := by
  intro h
  have hreplay : ((system sampleEnv).replay [] .empty otherKeySpunUp).bind (fun msw =>
      (msw.2.running sampleEnv "agent").bind fun config => (msw.2.lookup "agent").map fun e =>
        (msw.1.all fun m => ofManager m.turn, config.adminApiKey, e.adminApiKey)) = some (true, "key", "other") := by
    decide_cbv
  obtain ⟨⟨ms, w⟩, hreplay, he⟩ := Option.bind_eq_some_iff.mp hreplay
  obtain ⟨config, hrunning, he⟩ := Option.bind_eq_some_iff.mp he
  obtain ⟨e, hlookup, he⟩ := Option.map_eq_some_iff.mp he
  simp only [Prod.mk.injEq, List.all_eq_true] at he
  obtain ⟨hturns, hkey, hother⟩ := he
  have hfits := h ms w (.of_replay .nil hreplay) hturns "agent" config e hrunning hlookup
  rw [Fits, hkey, hother] at hfits
  exact absurd hfits.1 (by decide)

/-! ## Cleaning up -/

/-- If stopping and deleting can be relied on, a spin-down leaves nothing of its agent behind, whatever was called
before, unless a `startAgent` has failed between its two steps. -/
theorem spinDown_clears_iff {ms : Moments} {w : World} (h : (tidySystem env).History .empty ms w)
    {m : Moment JsError World Call Event Reply} (hm : m ∈ ms) {id : String} {r : Except JsError Reply}
    (hturn : m.turn = .call (.spinDownAgent id) r) :
    Cleared env id m.after ↔ ¬HalfStarted env id m.before := by
  have htakes := h.takes hm
  rw [hturn] at htakes
  obtain ⟨r', hdown⟩ := takes_spinDownAgent htakes
  exact spinDownAgent_cleared_iff hdown

theorem spinDown_clears_started : ∃ ms w m r, (tidySystem sampleEnv).History .empty ms w ∧ m ∈ ms ∧
    m.turn = .call (.spinDownAgent "agent") r ∧ Cleared sampleEnv "agent" m.after := by
  have hplay : ((tidyMachine sampleEnv).play ((Call.spinUpAgent sampleAgent).body sampleEnv) .empty
      [fine, fine, fine, fine]).bind (fun rw =>
        ((tidyMachine sampleEnv).play ((Call.spinDownAgent "agent").body sampleEnv) rw.2 [fine, fine, fine]).map
          fun _ => (rw.2.runtime.services "agent").isSome) = some true := by decide_cbv
  obtain ⟨⟨r₁, w₁⟩, hup, he⟩ := Option.bind_eq_some_iff.mp hplay
  obtain ⟨⟨r₂, w₂⟩, hdown, hservice⟩ := Option.map_eq_some_iff.mp he
  have hhistory : (tidySystem sampleEnv).History .empty
      ([] ++ [{ turn := .call (.spinUpAgent sampleAgent) r₁, before := .empty, after := w₁ }] ++
        [{ turn := .call (.spinDownAgent "agent") r₂, before := w₁, after := w₂ }]) w₂ :=
    .snoc (.snoc .nil (.call (.of_play hup))) (.call (.of_play hdown))
  refine ⟨_, w₂, _, r₂, hhistory, List.mem_append_right _ (List.mem_singleton_self _), rfl, ?_⟩
  have hwhole : ¬HalfStarted sampleEnv "agent" w₁ := fun hhalf => by
    rw [hhalf.2] at hservice
    cases hservice
  exact (spinDown_clears_iff hhistory (List.mem_append_right _ (List.mem_singleton_self _)) rfl).mpr hwhole

/-- A pod is created and its service is not. Then the agent is stopped. -/
def startedHalfway : List (System.Script Choice Call Event) :=
  [.call (.spinUpAgent sampleAgent) [fine, .failed (Json.typeError "no service"), fine, fine, fine, fine, fine],
    .call (.spinDownAgent "agent") [fine, .failed (Json.typeError "no service")]]

/-- A pod can outlive the spin-down of its agent. -/
theorem not_forall_cleared : ¬∀ ms w, (tidySystem sampleEnv).History .empty ms w → ∀ m ∈ ms, ∀ id r,
    m.turn = .call (.spinDownAgent id) r → Cleared sampleEnv id m.after := by
  intro h
  have hreplay : ((tidySystem sampleEnv).replay [] .empty startedHalfway).map (fun msw =>
      msw.1.any fun m => spinsDown "agent" m.turn && (m.after.runtime.pods "agent").isSome) = some true := by
    decide_cbv
  obtain ⟨⟨ms, w⟩, hreplay, he⟩ := Option.map_eq_some_iff.mp hreplay
  simp only [List.any_eq_true, Bool.and_eq_true] at he
  obtain ⟨m, hm, hturn, hpod⟩ := he
  obtain ⟨r, hturn⟩ := spinsDown_iff.mp hturn
  have hcleared := h ms w (.of_replay .nil hreplay) m hm "agent" r hturn
  rw [hcleared.1] at hpod
  cases hpod

/-! ## Removed wallets -/

/-- After every turn the live entries of wallets refer to wallets that the server has if and only if the server carries
out no removal for a live entry. -/
theorem current_iff_not_removes {ms : Moments} {w : World} (h : (system env).History .empty ms w)
    (hturns : ∀ m ∈ ms, ofWallets m.turn = true) :
    (∀ m ∈ ms, Current m.after) ↔ ∀ m ∈ ms, ¬Removes m := by
  constructor
  · intro hcurrent m hm hremoves
    exact not_current_of_removes (h.takes hm) hremoves (hcurrent m hm)
  · intro hkept
    have hall : Current w ∧ ∀ m ∈ ms, Current m.after := by
      refine System.History.invariant _ (fun ms w => Current w ∧ ∀ m ∈ ms, Current m.after)
        ⟨fun name e walletId he _ => (by cases he), fun m hm => (by cases hm)⟩ ?_ h
        ((throughout_of_mem hturns).and (throughout_of_mem hkept))
      intro ms turn w w' hw hm htakes
      have hcurrent := current_takes hm.1 hm.2 hw.1 htakes
      refine ⟨hcurrent, fun m hmem => ?_⟩
      rcases List.mem_append.mp hmem with hmem | hmem
      · exact hw.2 m hmem
      · rw [List.mem_singleton.mp hmem]
        exact hcurrent
    exact hall.2

theorem current_created : ∃ ms w e, (system sampleEnv).History .empty ms w ∧ w.lookup "wallet" = some e ∧
    ∀ m ∈ ms, Current m.after := by
  have hplay : ((machine sampleEnv).play ((Call.createWallet sampleWallet).body sampleEnv) .empty
      [created, fine, invited]).bind (fun rw => rw.2.lookup "wallet") =
        some (.wallet "adminApiKey" "token" "id" "key" (3600 : ℚ)) := by decide_cbv
  obtain ⟨⟨r, w⟩, hplay, hlookup⟩ := Option.bind_eq_some_iff.mp hplay
  have hhistory : (system sampleEnv).History .empty
      [{ turn := .call (.createWallet sampleWallet) r, before := .empty, after := w }] w :=
    .snoc .nil (.call (.of_play hplay))
  refine ⟨_, w, _, hhistory, hlookup, (current_iff_not_removes hhistory fun m hm => ?_).mpr fun m hm => ?_⟩
  · rw [List.mem_singleton.mp hm]
    rfl
  · rw [List.mem_singleton.mp hm]
    rintro ⟨name, key, r', e, walletId, hturn, -⟩
    cases hturn

def createdAndRemoved : List (System.Script Choice Call Event) :=
  [.call (.createWallet sampleWallet) [created, fine, invited],
    .call (.removeWallet "wallet" "key") [fine, .done (.data none) .answered]]

/-- The cache keeps the entry of a wallet that is removed. -/
theorem not_forall_current : ¬∀ ms w, (system sampleEnv).History .empty ms w →
    (∀ m ∈ ms, ofWallets m.turn = true) → Current w := by
  intro h
  have hreplay : ((system sampleEnv).replay [] .empty createdAndRemoved).bind (fun msw =>
      (msw.2.lookup "wallet").map fun e =>
        (msw.1.all fun m => ofWallets m.turn, e.walletId, msw.2.server.wallets)) = some (true, some "id", []) := by
    decide_cbv
  obtain ⟨⟨ms, w⟩, hreplay, he⟩ := Option.bind_eq_some_iff.mp hreplay
  obtain ⟨e, hlookup, he⟩ := Option.map_eq_some_iff.mp he
  simp only [Prod.mk.injEq, List.all_eq_true] at he
  obtain ⟨hturns, hid, hwallets⟩ := he
  obtain ⟨wallet, hwallet, -⟩ := h ms w (.of_replay .nil hreplay) hturns "wallet" e "id" hlookup hid
  rw [hwallets] at hwallet
  cases hwallet

/-! ## Spin-down timers -/

/-- In every history of spin-ups that renew in time, of spin-downs, timers and expiry, a timer goes off only when
the life has ended that the last successful spin-up of its agent has asked for; never, if that is unlimited. -/
theorem timer_fires_after_life {ms : Moments} {w w' : World} (h : (system env).History .empty ms w)
    (hturns : ∀ m ∈ ms, ofManager m.turn = true) (hrenews : Throughout (RenewsInTime env) ms) {t : Timer}
    (hfire : (system env).Takes (.env (.fire t)) w w') {d : WithTop ℚ}
    (hlast : lifeEnd? env t.agentId ms = some d) : d ≤ (w.now : WithTop ℚ) := by
  have htimers : TimersInTime env ms w := by
    refine System.History.invariant _ (TimersInTime env) (fun t ht => (by cases ht)) ?_ h
      ((throughout_of_mem hturns).and hrenews)
    intro ms turn w w' hw hm htakes
    obtain ⟨hturn, hrenews⟩ := hm
    rcases takes_cases hturn htakes with ⟨agentDto, r, r', rfl, hup⟩ | ⟨hother, hshrinks⟩
    · exact hw.spinUp hrenews hup
    · exact hw.shrink hother hshrinks
  cases hfire with
  | env hevent hserial =>
      obtain ⟨ht, hdue⟩ := event_fire hevent
      exact (htimers t ht d hlast).trans (WithTop.coe_le_coe.mpr hdue)

def shortLived : AgentCreateDto := { sampleAgent with ttl := some 10 }

theorem timer_fires_after_life_shortLived : ∃ ms w w' d, (system sampleEnv).History .empty ms w ∧
    (system sampleEnv).Takes (.env (.fire { agentId := "agent", due := 10000 })) w w' ∧
    lifeEnd? sampleEnv "agent" ms = some d ∧ d ≤ (w.now : WithTop ℚ) := by
  have hplay : ((machine sampleEnv).play ((Call.spinUpAgent shortLived).body sampleEnv) .empty
      [fine, fine, fine, fine]).bind (fun rw =>
        ((system sampleEnv).replayTurn { rw.2 with now := rw.2.now + 10000 }
          (.env (.fire { agentId := "agent", due := 10000 }) [[fine, fine, fine]])).map fun _ =>
            lifeEnd? sampleEnv "agent"
              [{ turn := .call (.spinUpAgent shortLived) rw.1, before := .empty, after := rw.2 },
                { turn := .env (.pass 10000), before := rw.2, after := { rw.2 with now := rw.2.now + 10000 } }]) =
      some (some ((10000 : ℚ) : WithTop ℚ)) := by decide_cbv
  obtain ⟨⟨r, w₁⟩, hplay, he⟩ := Option.bind_eq_some_iff.mp hplay
  obtain ⟨tw, hturn, hlast⟩ := Option.map_eq_some_iff.mp he
  have hpass : event (.pass 10000) w₁ = some ({ w₁ with now := w₁.now + 10000 }, []) := by
    simp [event]
  have hhistory : (system sampleEnv).History .empty
      [{ turn := .call (.spinUpAgent shortLived) r, before := .empty, after := w₁ },
        { turn := .env (.pass 10000), before := w₁, after := { w₁ with now := w₁.now + 10000 } }]
      { w₁ with now := w₁.now + 10000 } :=
    .snoc (.snoc .nil (.call (.of_play hplay))) (.env hpass .nil)
  obtain ⟨-, hfire⟩ := System.Takes.env_of_replay hturn
  refine ⟨_, _, tw.2, _, hhistory, hfire, hlast, timer_fires_after_life hhistory ?_ ?_ hfire hlast⟩
  · intro m hm
    simp only [List.mem_cons, List.not_mem_nil, or_false] at hm
    rcases hm with rfl | rfl <;> rfl
  · change Throughout _ (([] ++ [_]) ++ [_])
    refine throughout_snoc.mpr ⟨throughout_snoc.mpr ⟨throughout_nil, ?_⟩, trivial⟩
    have hown : lifeEnd sampleEnv .empty shortLived ≤ ownDue sampleEnv .empty shortLived := by decide +kernel
    cases r with
    | ok reply => exact ⟨hown, fun t ht => by cases ht⟩
    | error e => exact fun _ d hd => by cases hd

/-- An agent that was started for ten seconds is stopped and started again for ever. -/
def startedForEver : List (System.Script Choice Call Event) :=
  [.call (.spinUpAgent shortLived) [fine, fine, fine, fine], .env (.pass 1000) [],
    .call (.spinDownAgent "agent") [fine, fine, fine], .env (.pass 1000) [],
    .call (.spinUpAgent { sampleAgent with ttl := some 0 }) [fine, fine, fine], .env (.pass 8000) []]

/-- A timer can stop an agent whose last successful spin-up has asked for an unlimited life. -/
theorem timer_stops_startedForEver : ∃ ms w w', (system sampleEnv).History .empty ms w ∧
    (∀ m ∈ ms, ofManager m.turn = true) ∧
    (system sampleEnv).Takes (.env (.fire { agentId := "agent", due := 10000 })) w w' ∧ w.now = 10000 ∧
    (w.running sampleEnv "agent").isSome ∧ w'.running sampleEnv "agent" = none ∧
    lifeEnd? sampleEnv "agent" ms = some ⊤ := by
  have hreplay : ((system sampleEnv).replay [] .empty startedForEver).bind (fun msw =>
      ((system sampleEnv).replayTurn msw.2 (.env (.fire { agentId := "agent", due := 10000 }) [[fine, fine, fine]])).map
        fun tw => ((msw.1.all fun m => ofManager m.turn) && decide (msw.2.now = 10000) &&
            (msw.2.running sampleEnv "agent").isSome && (tw.2.running sampleEnv "agent").isNone,
          lifeEnd? sampleEnv "agent" msw.1)) = some (true, some ⊤) := by decide_cbv
  obtain ⟨⟨ms, w⟩, hreplay, he⟩ := Option.bind_eq_some_iff.mp hreplay
  obtain ⟨tw, hturn, he⟩ := Option.map_eq_some_iff.mp he
  simp only [Prod.mk.injEq, Bool.and_eq_true, List.all_eq_true, decide_eq_true_eq, Option.isNone_iff_eq_none] at he
  obtain ⟨⟨⟨⟨hturns, hnow⟩, hrunning⟩, hstopped⟩, hlast⟩ := he
  obtain ⟨-, hfire⟩ := System.Takes.env_of_replay hturn
  exact ⟨ms, w, tw.2, .of_replay .nil hreplay, hturns, hfire, hnow, hrunning, hstopped, hlast⟩

end GuardianshipAgency.Lifecycle
