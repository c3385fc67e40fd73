import GuardianshipAgency.Agency.Lemmas.Calls
import GuardianshipAgency.Agency.Lemmas.Steps
import GuardianshipAgency.Async.Lemmas.Exec

/-!
# `spinUpAgent` run alone

What `startAgent` does to the runtime, and what the rest of `spinUpAgent` does to cache and timers.
-/

namespace GuardianshipAgency.Agency

open Js Async Expiring

variable {env : Env}

/-! ## Single calls -/

/-- A call that is not sent again gets one answer. -/
theorem exec_once {op : Op} (hop : op.retried = false) {w w' : World} {r : Except JsError op.Val}
    (h : (machine env).Exec (Prog.call op) w r w') : ∃ ch, answer env op ch w = some (some r, w') := by
  have honce : ∀ ch w w₁, (machine env).answer op ch w ≠ some (none, w₁) := fun ch w w₁ ha => by
    rcases answer_cases ha with ⟨-, e, he, -⟩ | ⟨d, o, v, -, -, ⟨he, -⟩ | ⟨e, he, -⟩ | ⟨-, -, hretried⟩⟩
    · cases he
    · cases he
    · cases he
    · rw [hop] at hretried
      cases hretried
  obtain ⟨ch, res, w₁, ha, hnext⟩ := Machine.Exec.await_once honce h
  obtain ⟨rfl, rfl⟩ := Machine.Exec.settled_inv hnext
  exact ⟨ch, ha⟩

/-- It fails without effect, or takes effect. -/
theorem exec_call {op : Op} (hop : op.retried = false) {w w' : World} {r : Except JsError op.Val}
    (h : (machine env).Exec (Prog.call op) w r w') :
    (w' = w ∧ ∃ e, r = .error e) ∨
      ∃ d v, effect env op d w = some (v, w') ∧ (r = .ok v ∨ ∃ e, r = .error e) := by
  obtain ⟨ch, ha⟩ := exec_once hop h
  rcases answer_cases ha with ⟨rfl, e, he, -⟩ | ⟨d, o, v, -, heff, ⟨hv, -⟩ | ⟨e, he, -⟩ | ⟨hnone, -⟩⟩
  · cases he
    exact .inl ⟨rfl, e, rfl⟩
  · cases hv
    exact .inr ⟨d, v, heff, .inl rfl⟩
  · cases he
    exact .inr ⟨d, v, heff, .inr ⟨e, rfl⟩⟩
  · cases hnone

theorem exec_cacheGet {key : String} {w w' : World} {r : Except JsError Lookup}
    (h : (machine env).Exec (Prog.call (Op.cacheGet key)) w r w') :
    w' = w ∧ (r = .ok (w.get env key) ∨ ∃ e, r = .error e) := by
  rcases exec_call rfl h with ⟨rfl, e, rfl⟩ | ⟨d, v, he, hr⟩
  · exact ⟨rfl, .inr ⟨e, rfl⟩⟩
  · obtain ⟨-, rfl, rfl⟩ := effect_cacheGet he
    exact ⟨rfl, hr⟩

theorem exec_two {op op' : Op} (hop : op.retried = false) (hop' : op'.retried = false) {w w' : World}
    {r : Except JsError op'.Val} (h : (machine env).Exec (Prog.call op >>= fun _ => Prog.call op') w r w') :
    (w' = w ∧ ∃ e, r = .error e) ∨ ∃ d v w₁, effect env op d w = some (v, w₁) ∧
      ((w' = w₁ ∧ ∃ e, r = .error e) ∨ ∃ d' v', effect env op' d' w₁ = some (v', w')) := by
  obtain ⟨r₁, w₁, h₁, h₂⟩ := Machine.Exec.bind_inv h
  rcases exec_call hop h₁ with ⟨rfl, e, rfl⟩ | ⟨d, v, he, hr₁⟩
  · rcases h₂ with ⟨e', -, rfl, rfl⟩ | ⟨a, ha, -⟩
    · exact .inl ⟨rfl, e', rfl⟩
    · cases ha
  · refine .inr ⟨d, v, w₁, he, ?_⟩
    rcases h₂ with ⟨e', -, rfl, rfl⟩ | ⟨a, -, h₂⟩
    · exact .inl ⟨rfl, e', rfl⟩
    · rcases exec_call hop' h₂ with ⟨rfl, e', rfl⟩ | ⟨d', v', he', -⟩
      · exact .inl ⟨rfl, e', rfl⟩
      · exact .inr ⟨d', v', he'⟩

/-! ## `startAgent` -/

/-- No object is in the way of a new agent named `id`. -/
def World.startable (w : World) (env : Env) (id : String) : Prop :=
  match env.managerType with
  | .docker => w.runtime.containers id = none
  | .k8s => w.runtime.pods id = none

/-- What `startAgent` does: nothing but the objects of its agent changes, a running agent stays as it is and makes
the call fail, and where no agent was running one may be now, even if the call fails. -/
structure StartResult (env : Env) (config : AgentConfig) (w : World) (r : Except JsError Unit) (w' : World) :
    Prop where
  frame : w' = { w with runtime := w'.runtime }
  others : ∀ id, id ≠ config.agentId → w'.running env id = w.running env id
  kept : ∀ config', w.running env config.agentId = some config' →
    w'.running env config.agentId = some config' ∧ ∃ e, r = .error e
  started : w.running env config.agentId = none → w'.running env config.agentId = none ∨
    (w'.running env config.agentId = some config ∧ w.startable env config.agentId)
  ok : r = .ok () → w'.running env config.agentId = some config

theorem running_docker (hm : env.managerType = .docker) (w : World) (id : String) :
    w.running env id = (w.runtime.containers id).bind fun c => if c.started then some c.config else none := by
  simp [World.running, Runtime.running, hm]

theorem running_k8s (hm : env.managerType = .k8s) (w : World) (id : String) :
    w.running env id = if (w.runtime.services id).isSome then w.runtime.pods id else none := by
  simp [World.running, Runtime.running, hm]

theorem StartResult.failed {config : AgentConfig} {w : World} {e : JsError} :
    StartResult env config w (.error e) w where
  frame := rfl
  others _ _ := rfl
  kept _ h := ⟨h, e, rfl⟩
  started h := .inl h
  ok h := by cases h

theorem startAgent_docker {config : AgentConfig} {w w' : World} {r : Except JsError Unit}
    (hm : env.managerType = .docker) (h : (machine env).Exec (DockerService.startAgent config) w r w') :
    StartResult env config w r w' := by
  rcases exec_two rfl rfl h with ⟨rfl, e, rfl⟩ | ⟨d, v, w₁, hcreate, hstart⟩
  · exact .failed
  obtain ⟨hfree, rfl⟩ := effect_createContainer hcreate
  have hnone : w.running env config.agentId = none := by simp [running_docker hm, hfree]
  rcases hstart with ⟨rfl, e, rfl⟩ | ⟨d', v', hstart⟩
  · exact
      { frame := rfl
        others := fun id hid => by simp [running_docker hm, World.setContainer, Function.update_of_ne hid]
        kept := fun config' h => by simp [hnone] at h
        started := fun _ => .inl (by simp [running_docker hm, World.setContainer])
        ok := fun h => by cases h }
  · obtain ⟨c, hc, rfl⟩ := effect_startContainer hstart
    simp only [World.setContainer, Function.update_self, Option.some.injEq] at hc
    subst hc
    exact
      { frame := rfl
        others := fun id hid => by simp [running_docker hm, World.setContainer, Function.update_of_ne hid]
        kept := fun config' h => by simp [hnone] at h
        started := fun _ => .inr ⟨by simp [running_docker hm, World.setContainer], by simp [World.startable, hm, hfree]⟩
        ok := fun _ => by simp [running_docker hm, World.setContainer] }

theorem startAgent_k8s {config : AgentConfig} {w w' : World} {r : Except JsError Unit}
    (hm : env.managerType = .k8s) (h : (machine env).Exec (K8sService.startAgent config) w r w') :
    StartResult env config w r w' := by
  rcases exec_two rfl rfl h with ⟨rfl, e, rfl⟩ | ⟨d, v, w₁, hpod, hservice⟩
  · exact .failed
  obtain ⟨hfree, rfl⟩ := effect_createNamespacedPod hpod
  have hnone : w.running env config.agentId = none := by simp [running_k8s hm, hfree]
  have hstartable : w.startable env config.agentId := by simp [World.startable, hm, hfree]
  rcases hservice with ⟨rfl, e, rfl⟩ | ⟨d', v', hservice⟩
  · exact
      { frame := rfl
        others := fun id hid => by simp [running_k8s hm, World.setPod, Function.update_of_ne hid]
        kept := fun config' h => by simp [hnone] at h
        -- a service left behind makes the new pod reachable
        started := fun _ => by
          cases hs : w.runtime.services config.agentId with
          | none => exact .inl (by simp [running_k8s hm, World.setPod, hs])
          | some _ => exact .inr ⟨by simp [running_k8s hm, World.setPod, hs], hstartable⟩
        ok := fun h => by cases h }
  · obtain ⟨-, rfl⟩ := effect_createNamespacedService hservice
    exact
      { frame := rfl
        others := fun id hid => by
          simp [running_k8s hm, World.setPod, World.setService, Function.update_of_ne hid]
        kept := fun config' h => by simp [hnone] at h
        started := fun _ => .inr ⟨by simp [running_k8s hm, World.setPod, World.setService], hstartable⟩
        ok := fun _ => by simp [running_k8s hm, World.setPod, World.setService] }

theorem startAgent_result {config : AgentConfig} {w w' : World} {r : Except JsError Unit}
    (h : (machine env).Exec (AgentManagerService.startAgent env config) w r w') :
    StartResult env config w r w' := by
  unfold AgentManagerService.startAgent at h
  cases hm : env.managerType with
  | docker => exact startAgent_docker hm (by simpa [hm] using h)
  | k8s => exact startAgent_k8s hm (by simpa [hm] using h)

/-! ## After `startAgent` -/

/-- What the calls after `startAgent` do: the runtime stays as it is, the only key written is that of the agent,
with the entry of the configuration, and timers are added only for the agent, due after the delay of its ttl. -/
structure Managed (env : Env) (config : AgentConfig) (w w' : World) : Prop where
  runtime : w'.runtime = w.runtime
  now : w.now ≤ w'.now
  others : ∀ key, key ≠ config.agentId → w'.cache key = w.cache key
  own : w'.cache config.agentId = w.cache config.agentId ∨
    ∃ deadline, w'.cache config.agentId =
      some { value := AgentManagerService.cacheEntry config, deadline } ∧ (env.Drops config.ttl → deadline ≤ w'.now)
  timers : ∀ t ∈ w'.timers, t ∈ w.timers ∨
    (t.agentId = config.agentId ∧ ∃ ttl : ℚ, config.ttl = ttl ∧ 0 < ttl ∧ w.now + timerDelay (ttl * 1000) ≤ t.due)

theorem Managed.refl (env : Env) (config : AgentConfig) (w : World) : Managed env config w w :=
  ⟨rfl, le_refl _, fun _ _ => rfl, .inl rfl, fun _ ht => .inl ht⟩

theorem Managed.trans {config : AgentConfig} {w₁ w₂ w₃ : World} (h : Managed env config w₁ w₂)
    (h' : Managed env config w₂ w₃) : Managed env config w₁ w₃ where
  runtime := h'.runtime.trans h.runtime
  now := h.now.trans h'.now
  others key hkey := (h'.others key hkey).trans (h.others key hkey)
  own := by
    rcases h'.own with hown' | hown'
    · rcases h.own with hown | ⟨deadline, hown, hdeadline⟩
      · exact .inl (hown'.trans hown)
      · refine .inr ⟨deadline, hown'.trans hown, fun httl => (hdeadline httl).trans ?_⟩
        exact WithTop.coe_le_coe.mpr h'.now
    · exact .inr hown'
  timers t ht := by
    rcases h'.timers t ht with ht | ⟨hid, ttl, httl, hpos, hdue⟩
    · exact h.timers t ht
    · exact .inr ⟨hid, ttl, httl, hpos, by linarith [h.now]⟩

theorem cacheTtl_neg {config : AgentConfig} (h : config.ttl < 0) :
    env.kept (AgentManagerService.cacheTtl config) = env.negativeTtl := by
  simp [Env.kept, AgentManagerService.cacheTtl, h]

theorem cacheTtl_nonneg {config : AgentConfig} (h : 0 ≤ config.ttl) :
    env.kept (AgentManagerService.cacheTtl config) = config.ttl + 1 := by
  have hnonneg : 0 ≤ config.ttl + 1 := add_nonneg h zero_le_one
  simp [Env.kept, AgentManagerService.cacheTtl, not_lt.mpr h, not_lt.mpr hnonneg]

/-- An entry that is kept for no time has expired when it is written. -/
theorem add_le_now {ttl : WithTop ℚ} (h : ttl ≤ 0) (now : ℚ) :
    (now : WithTop ℚ) + ttl.map (· * 1000) ≤ (now : WithTop ℚ) := by
  obtain ⟨q, rfl⟩ := WithTop.ne_top_iff_exists.mp (ne_top_of_le_ne_top WithTop.zero_ne_top h)
  have hneg : q ≤ 0 := WithTop.coe_le_coe.mp h
  rw [WithTop.map_coe, ← WithTop.coe_add, WithTop.coe_le_coe]
  linarith

theorem now_lt_add {ttl : WithTop ℚ} (h : 0 < ttl) (now : ℚ) :
    (now : WithTop ℚ) < (now : WithTop ℚ) + ttl.map (· * 1000) := by
  cases ttl using WithTop.recTopCoe with
  | top => simp
  | coe q =>
      have hpos : 0 < q := WithTop.coe_lt_coe.mp h
      rw [WithTop.map_coe, ← WithTop.coe_add, WithTop.coe_lt_coe]
      linarith

theorem deadline_le_now {config : AgentConfig} (h : env.Drops config.ttl) (now : ℚ) :
    (now : WithTop ℚ) + (env.kept (AgentManagerService.cacheTtl config)).map (· * 1000) ≤ (now : WithTop ℚ) := by
  rw [cacheTtl_neg h.1]
  exact add_le_now h.2 now

theorem now_lt_deadline {config : AgentConfig} (h : ¬env.Drops config.ttl) (now : ℚ) :
    (now : WithTop ℚ) < (now : WithTop ℚ) + (env.kept (AgentManagerService.cacheTtl config)).map (· * 1000) := by
  refine now_lt_add ?_ now
  rcases lt_or_ge config.ttl 0 with hneg | hnonneg
  · rw [cacheTtl_neg hneg]
    exact not_le.mp fun hle => h ⟨hneg, hle⟩
  · rw [cacheTtl_nonneg hnonneg]
    exact lt_of_lt_of_le zero_lt_one (le_add_of_nonneg_left hnonneg)

theorem managed_answer {config : AgentConfig} {op : Op} (hop : ManageOp config op) {ch : Choice} {w w' : World} {a}
    (h : answer env op ch w = some (a, w')) : Managed env config w w' := by
  refine answer_world (Managed env config) (.refl _ _ _) (fun d v w' he => ?_) h
  rcases effect_cases he with rfl | ⟨hruntime, -⟩ | ⟨key, entry, ttl, rfl, rfl⟩ | ⟨key, rfl, -⟩ | hserver |
    ⟨ms, ms', rfl, hms, rfl⟩ | ⟨agentId, ms, rfl, rfl⟩
  · exact .refl _ _ _
  · cases op <;> first | exact absurd hop id | exact absurd hruntime id
  · obtain ⟨rfl, rfl, rfl⟩ := hop
    exact
      { runtime := rfl
        now := le_refl _
        others := fun key hkey => Store.write_of_ne _ _ _ hkey
        own := .inr ⟨_, Store.write_self _ _ _, fun hdrops => deadline_le_now hdrops w.now⟩
        timers := fun t ht => .inl ht }
  · exact absurd hop id
  · cases hserver <;> exact absurd hop id
  · have hms : (1000 : ℚ) ≤ ms' := hop ▸ hms
    have hnow : w.now ≤ w.now + ms' := by linarith
    exact ⟨rfl, hnow, fun _ _ => rfl, .inl rfl, fun t ht => .inl ht⟩
  · obtain ⟨rfl, ttl, httl, hpos, rfl⟩ := hop
    refine ⟨rfl, le_refl _, fun _ _ => rfl, .inl rfl, fun t ht => ?_⟩
    rcases List.mem_append.mp ht with ht | ht
    · exact .inl ht
    · rw [List.mem_singleton.mp ht]
      exact .inr ⟨rfl, ttl, httl, hpos, le_refl _⟩

theorem managed_of_calls {α : Type} {config : AgentConfig} {p : Prog JsError Op.Val α}
    (hp : p.Calls (ManageOp config)) {w w' : World} {r : Except JsError α}
    (h : (machine env).Exec p w r w') : Managed env config w w' :=
  Machine.Exec.of_calls (Managed env config) hp (.refl env config) (fun h h' => h.trans h')
    (fun _ _ _ _ _ hop ha => managed_answer hop ha) h

/-! ## The course of `spinUpAgent` -/

/-- What `spinUpAgent` goes on with once `startAgent` has settled. -/
def AgentManagerService.afterStart (env : Env) (agentDto : AgentCreateDto) :
    Except JsError Unit → Prog JsError Op.Val AgentManagerService.AgentReply
  | .ok _ => finishSpinUp env agentDto
  | .error e => do
      handleAlreadyRunningContainer (AgentConfig.new env agentDto) agentDto.autoConnect e
      finishSpinUp env agentDto

theorem AgentManagerService.afterStart_calls (agentDto : AgentCreateDto) (r : Except JsError Unit) :
    (afterStart env agentDto r).Calls (ManageOp (AgentConfig.new env agentDto)) := by
  cases r with
  | ok _ => exact finishSpinUp_calls env agentDto
  | error e => exact .bind (handleAlreadyRunningContainer_calls _ _ e) fun _ => finishSpinUp_calls env agentDto

theorem AgentManagerService.spinUpAgent_eq (agentDto : AgentCreateDto) :
    spinUpAgent env agentDto = (startAgent env (AgentConfig.new env agentDto)).andThen (afterStart env agentDto) := by
  refine (Prog.tryCatch_bind _ _ _).trans ?_
  congr 1
  funext r
  cases r <;> rfl

theorem spinUpAgent_inv {M : Machine JsError Op.Val World Choice} {agentDto : AgentCreateDto} {w w' : World}
    {r : Except JsError AgentManagerService.AgentReply}
    (h : M.Exec (AgentManagerService.spinUpAgent env agentDto) w r w') :
    ∃ r₁ w₁, M.Exec (AgentManagerService.startAgent env (AgentConfig.new env agentDto)) w r₁ w₁ ∧
      M.Exec (AgentManagerService.afterStart env agentDto r₁) w₁ r w' := by
  rw [AgentManagerService.spinUpAgent_eq] at h
  exact Machine.Exec.andThen_inv h

theorem afterStart_managed {agentDto : AgentCreateDto} {w w' : World} {r₁ : Except JsError Unit}
    {r : Except JsError AgentManagerService.AgentReply}
    (h : (machine env).Exec (AgentManagerService.afterStart env agentDto r₁) w r w') :
    Managed env (AgentConfig.new env agentDto) w w' :=
  managed_of_calls (AgentManagerService.afterStart_calls agentDto r₁) h

/-- `setTimeout` does not fail. -/
theorem exec_setSpinDownJob {config : AgentConfig} {w w' : World} {r : Except JsError Unit}
    (h : (machine env).Exec (AgentManagerService.setSpinDownJob config) w r w') : r = .ok () := by
  unfold AgentManagerService.setSpinDownJob at h
  split at h
  · exact (Machine.Exec.settled_inv h).1
  · split at h
    · obtain ⟨ch, ha⟩ := exec_once rfl h
      rcases answer_cases ha with ⟨-, -, -, -, hremote⟩ | ⟨d, o, v, -, -, ⟨hv, -⟩ | ⟨-, -, -, hremote⟩ | ⟨hnone, -⟩⟩
      · cases hremote
      · cases hv
        rfl
      · cases hremote
      · cases hnone
    · exact (Machine.Exec.settled_inv h).1

/-! ## When the agent does not take requests -/

theorem accepts_eq_false_of_not_running {w : World} {id : String} (h : w.running env id = none) (port : AdminPort)
    (key : String) : w.accepts env { host := .agent id port, apiKey := key } = false := by
  simp [World.accepts, h]

theorem exec_refused {target : AdminTarget} {w w' : World} {r : Except JsError (Option Json)}
    (hrefused : w.accepts env target = false)
    (h : (machine env).Exec (Prog.call (Op.createInvitation target)) w r w') : w' = w ∧ ∃ e, r = .error e := by
  obtain ⟨ch, a, w₁, ha, hnext⟩ := Machine.Exec.call_inv h
  rcases answer_cases ha with ⟨rfl, e, rfl, -⟩ | ⟨d, o, v, -, he, -⟩
  · rcases hnext with ⟨hnone, -⟩ | ⟨hr, rfl⟩
    · cases hnone
    · cases hr
      exact ⟨rfl, e, rfl⟩
  · cases d with
    | invitation invitation =>
        obtain ⟨haccepts, -⟩ := Option.ite_none_right_eq_some.mp he
        rw [hrefused] at haccepts
        cases haccepts
    | _ => cases he

theorem get_of_some {w : World} {key : String} {e : CacheEntry} (h : w.lookup key = some e) :
    w.get env key = .entry e := by
  simp [World.get, h]

theorem get_of_none {w : World} {key : String} (h : w.lookup key = none) : w.get env key = Lookup.missing env := by
  simp [World.get, h]

theorem agentDataOrAdded_found {config : AgentConfig} {w w' : World} {r : Except JsError Lookup}
    (hget : w.get env config.agentId ≠ .undefined)
    (h : (machine env).Exec (AgentManagerService.agentDataOrAdded config) w r w') :
    w' = w ∧ (r = .ok (w.get env config.agentId) ∨ ∃ e, r = .error e) := by
  obtain ⟨r₁, w₁, hcache, hrest⟩ := Machine.Exec.bind_inv h
  obtain ⟨rfl, hr₁⟩ := exec_cacheGet hcache
  rcases hrest with ⟨e, -, rfl, rfl⟩ | ⟨found, rfl, hrest⟩
  · exact ⟨rfl, .inr ⟨e, rfl⟩⟩
  · rcases hr₁ with hfound | ⟨e, he⟩
    · cases hfound
      rw [if_neg hget] at hrest
      obtain ⟨rfl, rfl⟩ := Machine.Exec.settled_inv hrest
      exact ⟨rfl, .inl rfl⟩
    · cases he

/-- `handleAlreadyRunningContainer` rejects and writes nothing if the agent has a live entry and refuses the
connection that the caller wants, or if the store reports a missing entry as `null`. -/
theorem handleAlreadyRunning_refused {config : AgentConfig} {autoConnect : Option Bool} {e : JsError} {w w' : World}
    {r : Except JsError Unit}
    (hcase : (w.lookup config.agentId = none ∧ env.redisEnabled = true) ∨
      ((w.lookup config.agentId).isSome ∧ autoConnect = some true ∧
        w.accepts env { host := .agent config.agentId (.number config.adminPort), apiKey := config.adminApiKey } =
          false))
    (h : (machine env).Exec (AgentManagerService.handleAlreadyRunningContainer config autoConnect e) w r w') :
    w' = w ∧ ∃ e', r = .error e' := by
  obtain ⟨r₁, w₁, hdata, hrest⟩ := Machine.Exec.bind_inv h
  rcases hcase with ⟨hnone, hredis⟩ | ⟨hsome, hconnect, hrefused⟩
  · have hget : w.get env config.agentId = .null := by simp [get_of_none hnone, Lookup.missing, hredis]
    obtain ⟨rfl, hr₁⟩ := agentDataOrAdded_found (by simp [hget]) hdata
    rw [hget] at hr₁
    rcases hrest with ⟨e', -, rfl, rfl⟩ | ⟨found, rfl, hrest⟩
    · exact ⟨rfl, e', rfl⟩
    · rcases hr₁ with hfound | ⟨_, he⟩
      · cases hfound
        obtain ⟨rfl, rfl⟩ := Machine.Exec.settled_inv hrest
        exact ⟨rfl, e, rfl⟩
      · cases he
  · obtain ⟨entry, hentry⟩ := Option.isSome_iff_exists.mp hsome
    have hget : w.get env config.agentId = .entry entry := get_of_some hentry
    obtain ⟨rfl, hr₁⟩ := agentDataOrAdded_found (by simp [hget]) hdata
    rw [hget] at hr₁
    rcases hrest with ⟨e', -, rfl, rfl⟩ | ⟨found, rfl, hrest⟩
    · exact ⟨rfl, e', rfl⟩
    · rcases hr₁ with hfound | ⟨_, he⟩
      · cases hfound
        dsimp only at hrest
        rw [if_pos hconnect] at hrest
        obtain ⟨r₂, w₂, hcall, hrest⟩ := Machine.Exec.bind_inv hrest
        obtain ⟨rfl, e₂, rfl⟩ := exec_refused hrefused hcall
        rcases hrest with ⟨e', -, rfl, rfl⟩ | ⟨_, hok, -⟩
        · exact ⟨rfl, e', rfl⟩
        · cases hok
      · cases he

end GuardianshipAgency.Agency
