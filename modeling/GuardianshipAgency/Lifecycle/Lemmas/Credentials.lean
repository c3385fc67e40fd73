import GuardianshipAgency.Lifecycle.Lemmas.Turns

/-!
# Cached credentials and running agents
-/

namespace GuardianshipAgency.Lifecycle

open Js Async Expiring Agency

variable {env : Env}

def Fits (e : CacheEntry) (config : AgentConfig) : Prop :=
  e.adminApiKey = config.adminApiKey ∧ e.adminApiPort = .number config.adminPort

/-- The live entry of a running agent has the key and the port with which the agent was started. -/
def Consistent (env : Env) (w : World) : Prop :=
  ∀ id config e, w.running env id = some config → w.lookup id = some e → Fits e config

/-- A caller that the running agent refuses writes no entry that can be read: the store drops an entry with its ttl, or
it wants to connect to an agent that has an entry, or there is none in a store that reports this as `null`. -/
def WritesNothing (env : Env) (w : World) (agentDto : AgentCreateDto) : Prop :=
  env.Drops (AgentConfig.new env agentDto).ttl ∨ (w.lookup agentDto.agentId = none ∧ env.redisEnabled = true) ∨
    ((w.lookup agentDto.agentId).isSome ∧ agentDto.autoConnect = some true)

/-- The caller knows the key and the port of an agent that runs, or writes nothing. Where an agent can be started, an
entry left behind has the key and the port of the caller. -/
def KnowsCredentials (env : Env) (w : World) (agentDto : AgentCreateDto) : Prop :=
  match w.running env agentDto.agentId with
  | some config => Fits (AgentManagerService.cacheEntry (AgentConfig.new env agentDto)) config ∨
      WritesNothing env w agentDto
  | none => w.startable env agentDto.agentId → ∀ e, w.lookup agentDto.agentId = some e →
      Fits e (AgentConfig.new env agentDto)

/-! ## Lookups after a spin-up -/

theorem fits_cacheEntry (config : AgentConfig) : Fits (AgentManagerService.cacheEntry config) config := ⟨rfl, rfl⟩

theorem managed_running {config : AgentConfig} {w w' : World} (h : Managed env config w w') (id : String) :
    w'.running env id = w.running env id := by
  rw [World.running, World.running, h.runtime]

theorem managed_lookup_of_ne {config : AgentConfig} {w w' : World} (h : Managed env config w w') {id : String}
    {e : CacheEntry} (hid : id ≠ config.agentId) (he : w'.lookup id = some e) : w.lookup id = some e := by
  rw [World.lookup, Store.lookup_congr (h.others id hid)] at he
  exact Store.lookup_of_le (WithTop.coe_le_coe.mpr h.now) he

theorem managed_lookup_own {config : AgentConfig} {w w' : World} (h : Managed env config w w') {e : CacheEntry}
    (he : w'.lookup config.agentId = some e) :
    w.lookup config.agentId = some e ∨ (e = AgentManagerService.cacheEntry config ∧ ¬env.Drops config.ttl) := by
  rcases h.own with hown | ⟨deadline, hown, hdeadline⟩
  · rw [World.lookup, Store.lookup_congr hown] at he
    exact .inl (Store.lookup_of_le (WithTop.coe_le_coe.mpr h.now) he)
  · obtain ⟨entry, hentry, hlt, rfl⟩ := Store.lookup_eq_some.mp he
    rw [hown] at hentry
    cases hentry
    exact .inr ⟨rfl, fun hdrops => absurd hlt (not_lt.mpr (hdeadline hdrops))⟩

theorem startResult_lookup {config : AgentConfig} {w w' : World} {r : Except JsError Unit}
    (h : StartResult env config w r w') (id : String) : w'.lookup id = w.lookup id := by
  rw [h.frame]
  rfl

/-! ## Refused callers -/

theorem accepts_eq_false_of_not_fits {w : World} {config config' : AgentConfig}
    (hrunning : w.running env config.agentId = some config')
    (hfits : ¬Fits (AgentManagerService.cacheEntry config) config') :
    w.accepts env { host := .agent config.agentId (.number config.adminPort), apiKey := config.adminApiKey } =
      false := by
  rw [Bool.eq_false_iff]
  intro haccepts
  simp only [World.accepts, hrunning, AdminPort.reaches, Bool.and_eq_true, beq_iff_eq] at haccepts
  exact hfits ⟨haccepts.2, congrArg AdminPort.number haccepts.1⟩

/-- A caller with other credentials than those of the agent that runs changes nothing in a world where it writes
nothing, unless the store drops what it writes. -/
theorem afterStart_refused {agentDto : AgentCreateDto} {config : AgentConfig} {e : JsError} {w w' : World}
    {r : Except JsError AgentManagerService.AgentReply} (hrunning : w.running env agentDto.agentId = some config)
    (hfits : ¬Fits (AgentManagerService.cacheEntry (AgentConfig.new env agentDto)) config)
    (hnothing : WritesNothing env w agentDto) (hkept : ¬env.Drops (AgentConfig.new env agentDto).ttl)
    (h : (machine env).Exec (AgentManagerService.afterStart env agentDto (.error e)) w r w') : w' = w := by
  obtain ⟨r₁, w₁, hhandle, hrest⟩ := Machine.Exec.bind_inv h
  have hrefused := accepts_eq_false_of_not_fits hrunning hfits
  obtain ⟨rfl, e', rfl⟩ : w₁ = w ∧ ∃ e', r₁ = .error e' := by
    refine handleAlreadyRunning_refused ?_ hhandle
    rcases hnothing with hdrops | ⟨hnone, hredis⟩ | ⟨hsome, hconnect⟩
    · exact absurd hdrops hkept
    · exact .inl ⟨hnone, hredis⟩
    · exact .inr ⟨hsome, hconnect, hrefused⟩
  rcases hrest with ⟨_, -, -, rfl⟩ | ⟨_, hok, -⟩
  · rfl
  · cases hok

/-! ## Turns -/

theorem consistent_empty (env : Env) : Consistent env .empty := fun _ _ _ _ he => by cases he

theorem Consistent.shrink {w w' : World} (hw : Consistent env w) (h : Shrinks env w w') : Consistent env w' :=
  fun id config e hrunning he => hw id config e (h.running id config hrunning) (h.lookup id e he)

theorem Consistent.spinUp {agentDto : AgentCreateDto} {w w' : World}
    {r : Except JsError AgentManagerService.AgentReply} (hw : Consistent env w)
    (hknows : KnowsCredentials env w agentDto)
    (h : (machine env).Exec (AgentManagerService.spinUpAgent env agentDto) w r w') : Consistent env w' := by
  obtain ⟨r₁, w₁, hstart, hrest⟩ := spinUpAgent_inv h
  have hstart := startAgent_result hstart
  have hmanaged := afterStart_managed hrest
  intro id config e hrunning he
  rw [managed_running hmanaged] at hrunning
  by_cases hid : id = agentDto.agentId
  · subst hid
    have hown := managed_lookup_own hmanaged he
    rw [AgentConfig.new_agentId, startResult_lookup hstart] at hown
    unfold KnowsCredentials at hknows
    cases hbefore : w.running env agentDto.agentId with
    | some config' =>
        obtain ⟨hkept, e₁, rfl⟩ := hstart.kept config' hbefore
        cases hkept.symm.trans hrunning
        rw [hbefore] at hknows
        rcases hown with hold | ⟨rfl, hreadable⟩
        · exact hw _ _ _ hbefore hold
        by_cases hfits : Fits (AgentManagerService.cacheEntry (AgentConfig.new env agentDto)) config
        · exact hfits
        · have hnothing : WritesNothing env w₁ agentDto := by
            rw [WritesNothing, startResult_lookup hstart]
            exact hknows.resolve_left hfits
          obtain rfl := afterStart_refused hrunning hfits hnothing hreadable hrest
          rw [startResult_lookup hstart] at he
          exact hw _ _ _ hbefore he
    | none =>
        rw [hbefore] at hknows
        rcases hstart.started hbefore with hnone | ⟨hnew, hstartable⟩
        · rw [AgentConfig.new_agentId, hrunning] at hnone
          cases hnone
        · cases hnew.symm.trans hrunning
          rcases hown with hold | ⟨rfl, -⟩
          · exact hknows hstartable e hold
          · exact fits_cacheEntry _
  · rw [hstart.others id hid] at hrunning
    have hother := managed_lookup_of_ne hmanaged hid he
    rw [startResult_lookup hstart] at hother
    exact hw id config e hrunning hother

end GuardianshipAgency.Lifecycle
