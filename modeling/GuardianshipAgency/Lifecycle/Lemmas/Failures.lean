import GuardianshipAgency.Lifecycle.Lemmas.Turns

/-!
# Spin-ups whose `startAgent` fails

The machine in which cache operations succeed, and what a spin-up reports in it when no agent runs.
-/

namespace GuardianshipAgency.Lifecycle

open Js Async Expiring Agency

variable {env : Env}

/-! ## A cache that does not fail -/

def ofCache : Op → Bool
  | .cacheGet _ | .cacheSet _ _ _ | .cacheDel _ => true
  | _ => false

def succeeds : Choice → Bool
  | .done _ .answered => true
  | _ => false

/-- The machine whose cache operations succeed. -/
def steadyMachine (env : Env) : Machine JsError Op.Val World Choice where
  answer op ch w := if ofCache op && !succeeds ch then none else answer env op ch w

theorem steady_answer {op : Op} {ch : Choice} {w w' : World} {a}
    (h : (steadyMachine env).answer op ch w = some (a, w')) :
    answer env op ch w = some (a, w') ∧
      (ofCache op = true → ∃ d v, a = some (.ok v) ∧ effect env op d w = some (v, w')) := by
  simp only [steadyMachine] at h
  split at h
  · cases h
  · rename_i hsteady
    refine ⟨h, fun hcache => ?_⟩
    simp only [hcache, Bool.true_and, Bool.not_eq_true, Bool.not_eq_false'] at hsteady
    rcases answer_cases h with ⟨rfl, e, rfl, rfl, -⟩ | ⟨d, o, v, rfl, he, ⟨rfl, -⟩ | ⟨e, -, rfl, -⟩ | ⟨-, rfl, -⟩⟩
    · cases hsteady
    · exact ⟨d, v, rfl, he⟩
    · cases hsteady
    · cases hsteady

theorem exec_of_steady {α : Type} {p : Prog JsError Op.Val α} {w w' : World} {r : Except JsError α}
    (h : (steadyMachine env).Exec p w r w') : (machine env).Exec p w r w' := by
  induction h with
  | settled => exact .settled
  | answered ha _ ih => exact .answered (steady_answer ha).1 ih
  | retried ha _ ih => exact .retried (steady_answer ha).1 ih

theorem steady_call {op : Op} (hcache : ofCache op = true) {w w' : World} {r : Except JsError op.Val}
    (h : (steadyMachine env).Exec (Prog.call op) w r w') : ∃ d v, r = .ok v ∧ effect env op d w = some (v, w') := by
  obtain ⟨ch, a, w₁, ha, hnext⟩ := Machine.Exec.call_inv h
  obtain ⟨d, v, rfl, he⟩ := (steady_answer ha).2 hcache
  rcases hnext with ⟨hnone, -⟩ | ⟨hr, rfl⟩
  · cases hnone
  · cases hr
    exact ⟨d, v, rfl, he⟩

theorem steady_cacheGet {key : String} {w w' : World} {r : Except JsError Lookup}
    (h : (steadyMachine env).Exec (Prog.call (Op.cacheGet key)) w r w') : r = .ok (w.get env key) ∧ w' = w := by
  obtain ⟨d, v, rfl, he⟩ := steady_call rfl h
  obtain ⟨-, rfl, rfl⟩ := effect_cacheGet he
  exact ⟨rfl, rfl⟩

def cached (env : Env) (w : World) (config : AgentConfig) : World :=
  w.set env config.agentId (AgentManagerService.cacheEntry config) (AgentManagerService.cacheTtl config)

theorem steady_setAgentCache {config : AgentConfig} {w w' : World} {r : Except JsError Unit}
    (h : (steadyMachine env).Exec (AgentManagerService.setAgentCache config) w r w') :
    r = .ok () ∧ w' = cached env w config := by
  obtain ⟨d, v, rfl, he⟩ := steady_call rfl h
  cases d with
  | plain => cases he; exact ⟨rfl, rfl⟩
  | _ => cases he

theorem cached_lookup_of_drops {config : AgentConfig} (h : env.Drops config.ttl) (w : World) :
    (cached env w config).lookup config.agentId = none := by
  simp only [World.lookup, cached, World.set, Store.lookup_write_self, ite_eq_right_iff]
  exact fun hlt => absurd hlt (not_lt.mpr (deadline_le_now h w.now))

theorem cached_lookup_of_kept {config : AgentConfig} (h : ¬env.Drops config.ttl) (w : World) :
    (cached env w config).lookup config.agentId = some (AgentManagerService.cacheEntry config) := by
  simp only [World.lookup, cached, World.set, Store.lookup_write_self]
  exact if_pos (now_lt_deadline h w.now)

/-- The world in which `handleAlreadyRunningContainer` looks at the entry. -/
def withEntry (env : Env) (w : World) (config : AgentConfig) : World :=
  if w.get env config.agentId = .undefined then cached env w config else w

theorem withEntry_lookup {config : AgentConfig} (w : World) :
    (withEntry env w config).lookup config.agentId =
      if w.lookup config.agentId = none ∧ env.redisEnabled = false ∧ ¬env.Drops config.ttl then
        some (AgentManagerService.cacheEntry config)
      else w.lookup config.agentId := by
  unfold withEntry
  cases hlookup : w.lookup config.agentId with
  | some e => simp [get_of_some hlookup, hlookup]
  | none =>
      cases hredis : env.redisEnabled with
      | true => simp [get_of_none hlookup, Lookup.missing, hredis, hlookup]
      | false =>
          rw [get_of_none hlookup, Lookup.missing, hredis]
          by_cases hdrops : env.Drops config.ttl
          · simp [hdrops, cached_lookup_of_drops hdrops]
          · simp [hdrops, cached_lookup_of_kept hdrops]

theorem withEntry_running {config : AgentConfig} (w : World) (id : String) :
    (withEntry env w config).running env id = w.running env id := by
  unfold withEntry
  split <;> rfl

theorem steady_agentDataOrAdded {config : AgentConfig} {w w' : World} {r : Except JsError Lookup}
    (h : (steadyMachine env).Exec (AgentManagerService.agentDataOrAdded config) w r w') :
    r = .ok (w'.get env config.agentId) ∧ w' = withEntry env w config := by
  obtain ⟨r₁, w₁, hget, hrest⟩ := Machine.Exec.bind_inv h
  obtain ⟨rfl, rfl⟩ := steady_cacheGet hget
  rcases hrest with ⟨e, he, -⟩ | ⟨found, hfound, hrest⟩
  · cases he
  cases hfound
  unfold withEntry
  split at hrest
  · rename_i hundefined
    rw [if_pos hundefined]
    obtain ⟨r₂, w₂, hset, hrest⟩ := Machine.Exec.bind_inv hrest
    obtain ⟨rfl, rfl⟩ := steady_setAgentCache hset
    rcases hrest with ⟨e, he, -⟩ | ⟨_, -, hrest⟩
    · cases he
    · obtain ⟨rfl, rfl⟩ := steady_cacheGet hrest
      exact ⟨rfl, rfl⟩
  · rename_i hundefined
    rw [if_neg hundefined]
    obtain ⟨rfl, rfl⟩ := Machine.Exec.settled_inv hrest
    exact ⟨rfl, rfl⟩

/-- Where no agent runs, `handleAlreadyRunningContainer` resolves if it finds or adds an entry and the caller wants
no connection. -/
theorem steady_handleAlreadyRunning {config : AgentConfig} {autoConnect : Option Bool} {e : JsError} {w w' : World}
    {r : Except JsError Unit} (hrunning : w.running env config.agentId = none)
    (h : (steadyMachine env).Exec (AgentManagerService.handleAlreadyRunningContainer config autoConnect e) w r w') :
    w' = withEntry env w config ∧
      (((w'.lookup config.agentId).isSome ∧ autoConnect ≠ some true ∧ r = .ok ()) ∨
        (((w'.lookup config.agentId).isSome → autoConnect = some true) ∧ ∃ e', r = .error e')) := by
  obtain ⟨r₁, w₁, hdata, hrest⟩ := Machine.Exec.bind_inv h
  obtain ⟨rfl, hw₁⟩ := steady_agentDataOrAdded hdata
  rcases hrest with ⟨e', he', -⟩ | ⟨found, hfound, hrest⟩
  · cases he'
  cases hfound
  cases hlookup : w₁.lookup config.agentId with
  | none =>
      have hmissing : (w₁.get env config.agentId) = Lookup.missing env := get_of_none hlookup
      rw [hmissing, Lookup.missing] at hrest
      cases hredis : env.redisEnabled <;>
      · rw [hredis] at hrest
        obtain ⟨rfl, rfl⟩ := Machine.Exec.settled_inv hrest
        exact ⟨hw₁, .inr ⟨fun hsome => by simp [hlookup] at hsome, e, rfl⟩⟩
  | some entry =>
      rw [get_of_some hlookup] at hrest
      dsimp only at hrest
      split at hrest
      · rename_i hconnect
        obtain ⟨r₂, w₂, hcall, hrest⟩ := Machine.Exec.bind_inv hrest
        have hrunning₁ : w₁.running env config.agentId = none := by rw [hw₁, withEntry_running, hrunning]
        have hrefused := accepts_eq_false_of_not_running hrunning₁ (.number config.adminPort) config.adminApiKey
        obtain ⟨rfl, e₂, rfl⟩ := exec_refused hrefused (exec_of_steady hcall)
        rcases hrest with ⟨e', -, rfl, rfl⟩ | ⟨_, hok, -⟩
        · exact ⟨hw₁, .inr ⟨fun _ => hconnect, e', rfl⟩⟩
        · cases hok
      · rename_i hconnect
        obtain ⟨rfl, rfl⟩ := Machine.Exec.settled_inv hrest
        exact ⟨hw₁, .inl ⟨by simp [hlookup], hconnect, rfl⟩⟩

theorem steady_finishSpinUp {agentDto : AgentCreateDto} {w w' : World}
    {r : Except JsError AgentManagerService.AgentReply} (hconnect : agentDto.autoConnect ≠ some true)
    (h : (steadyMachine env).Exec (AgentManagerService.finishSpinUp env agentDto) w r w') :
    ∃ reply, r = .ok reply := by
  obtain ⟨r₁, w₁, hset, hrest⟩ := Machine.Exec.bind_inv h
  obtain ⟨rfl, -⟩ := steady_setAgentCache hset
  rcases hrest with ⟨e, he, -⟩ | ⟨_, -, hrest⟩
  · cases he
  obtain ⟨r₂, w₂, hjob, hrest⟩ := Machine.Exec.bind_inv hrest
  obtain rfl := exec_setSpinDownJob (exec_of_steady hjob)
  rcases hrest with ⟨e, he, -⟩ | ⟨_, -, hrest⟩
  · cases he
  rw [if_neg hconnect] at hrest
  obtain ⟨rfl, -⟩ := Machine.Exec.settled_inv hrest
  exact ⟨_, rfl⟩

/-! ## What a spin-up reports -/

/-- What a spin-up reports is so: after one that resolves the agent runs, and after one that rejects while no such
agent runs there is no live entry of the agent that was not there before. -/
def Real (env : Env) (id : String) (w : World) (r : Except JsError AgentManagerService.AgentReply) (w' : World) :
    Prop :=
  match r with
  | .ok _ => (w'.running env id).isSome
  | .error _ => w'.running env id = none → ∀ e, w'.lookup id = some e → w.lookup id = some e

/-- The failure of `startAgent` reaches the caller and leaves no entry behind: the agent has a live entry and the
caller wants to connect to it, or it has none and none is added, or the one that is added cannot be found. -/
def Contained (env : Env) (w : World) (agentDto : AgentCreateDto) : Prop :=
  match w.lookup agentDto.agentId with
  | some _ => agentDto.autoConnect = some true
  | none => env.redisEnabled = true ∨ env.Drops (AgentConfig.new env agentDto).ttl

theorem failed_real_iff {agentDto : AgentCreateDto} {e : JsError} {w w' : World}
    {r : Except JsError AgentManagerService.AgentReply} (hrunning : w.running env agentDto.agentId = none)
    (h : (steadyMachine env).Exec (AgentManagerService.afterStart env agentDto (.error e)) w r w') :
    Real env agentDto.agentId w r w' ↔ Contained env w agentDto := by
  have hrunning' : w'.running env agentDto.agentId = none := by
    rw [World.running, (afterStart_managed (exec_of_steady h)).runtime]
    exact hrunning
  obtain ⟨r₁, w₁, hhandle, hrest⟩ := Machine.Exec.bind_inv h
  obtain ⟨rfl, hcase⟩ := steady_handleAlreadyRunning hrunning hhandle
  have hlookup : (withEntry env w (AgentConfig.new env agentDto)).lookup agentDto.agentId =
      if w.lookup agentDto.agentId = none ∧ env.redisEnabled = false ∧
          ¬env.Drops (AgentConfig.new env agentDto).ttl then
        some (AgentManagerService.cacheEntry (AgentConfig.new env agentDto))
      else w.lookup agentDto.agentId := withEntry_lookup w
  rw [AgentConfig.new_agentId, hlookup] at hcase
  unfold Contained
  rcases hcase with ⟨hsome, hconnect, rfl⟩ | ⟨hconnect, e', rfl⟩
  · rcases hrest with ⟨e', he', -⟩ | ⟨_, -, hfinish⟩
    · cases he'
    obtain ⟨reply, rfl⟩ := steady_finishSpinUp hconnect hfinish
    simp only [Real, hrunning', Option.isSome_none, Bool.false_eq_true, false_iff]
    cases hbefore : w.lookup agentDto.agentId with
    | some entry => exact hconnect
    | none =>
        rintro (hredis | hdrops)
        · simp [hbefore, hredis] at hsome
        · simp [hbefore, hdrops] at hsome
  · rcases hrest with ⟨e'', -, rfl, rfl⟩ | ⟨_, hok, -⟩
    · simp only [Real, hrunning', forall_const, hlookup]
      cases hbefore : w.lookup agentDto.agentId with
      | some entry =>
          have hconnect : agentDto.autoConnect = some true := hconnect (by simp [hbefore])
          simp [hconnect]
      | none =>
          cases hredis : env.redisEnabled with
          | true => simp
          | false => by_cases hdrops : env.Drops (AgentConfig.new env agentDto).ttl <;> simp [hdrops]
    · cases hok

end GuardianshipAgency.Lifecycle
