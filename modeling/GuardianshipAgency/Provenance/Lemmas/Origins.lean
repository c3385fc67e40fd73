import GuardianshipAgency.Agency.Lemmas.Calls
import GuardianshipAgency.Ownership.Lemmas.Objects

/-!
# Where configurations and entries come from

Nothing is in the world that no caller has asked for.
-/

namespace GuardianshipAgency.Agency

open Js Async Expiring

variable (env : Env) (asked : Call → Prop)

/-- A spin-up of the agent was asked for that has this configuration. -/
def ConfigFrom (id : String) (config : AgentConfig) : Prop :=
  ∃ agentDto, asked (.spinUpAgent agentDto) ∧ agentDto.agentId = id ∧ config = AgentConfig.new env agentDto

/-- The entry has the key, the port and the ttl of a spin-up of the agent, or the key and the ttl with which the wallet
was to be created. Wallet id and token are the server's. -/
inductive EntryFrom (key : String) : CacheEntry → Prop where
  | agent {config : AgentConfig} (hconfig : ConfigFrom env asked key config) :
      EntryFrom key (AgentManagerService.cacheEntry config)
  | wallet {body : WalletCreateDto} {token walletId : String} (hasked : asked (.createWallet body))
      (hname : body.walletName = key) :
      EntryFrom key (.wallet env.acapyAdminApiKey token walletId body.walletKey (walletTtl body))

def ObjectsFrom (id : String) (o : Objects) : Prop :=
  (∀ c, o.container = some c → ConfigFrom env asked id c.config) ∧
    (∀ config, o.pod = some config → ConfigFrom env asked id config) ∧
    ∀ config, o.service = some config → ConfigFrom env asked id config

/-- A spin-up of the agent was asked for that limits its lifetime, and the timer has been set by the time `now`, with the
delay of this lifetime. -/
def TimerFrom (now : ℚ) (t : Timer) : Prop :=
  ∃ config, ConfigFrom env asked t.agentId config ∧ ∃ ttl : ℚ, config.ttl = ttl ∧ 0 < ttl ∧
    ∃ set ≤ now, t.due = set + timerDelay (ttl * 1000)

structure Origins (w : World) : Prop where
  objects : ∀ id, ObjectsFrom env asked id (w.runtime.objects id)
  cache : w.cache.Forall (EntryFrom env asked)
  timers : ∀ t ∈ w.timers, TimerFrom env asked w.now t

/-- The calls asked for, and the spin-downs that timers begin. -/
def Allowed (k : Call) : Prop := asked k ∨ ∃ now t, k = .spinDownAgent t.agentId ∧ TimerFrom env asked now t

/-- The call was asked for, or it is the spin-down of a timer that was due when it began. -/
def Begun (k : Call) (began : World) : Prop :=
  asked k ∨ ∃ t, k = .spinDownAgent t.agentId ∧ TimerFrom env asked began.now t ∧ t.due ≤ began.now

variable {env asked} {w w' : World}

theorem Begun.allowed {k : Call} (h : Begun env asked k w) : Allowed env asked k :=
  h.imp_right fun ⟨t, hk, ht, _⟩ => ⟨w.now, t, hk, ht⟩

theorem Origins.empty : Origins env asked World.empty where
  objects id := ⟨fun c h => (by cases h), fun config h => (by cases h), fun config h => (by cases h)⟩
  cache := .empty
  timers t ht := by cases ht

/-! ## Single calls -/

theorem configFrom_of_makes {k : Call} (hk : Allowed env asked k) {config : AgentConfig}
    (hop : k.Makes env (.createContainer config) ∨ k.Makes env (.createNamespacedPod config) ∨
      k.Makes env (.createNamespacedService config)) : ConfigFrom env asked config.agentId config := by
  cases k with
  | spinUpAgent agentDto =>
      have hconfig : config = AgentConfig.new env agentDto := by
        rcases hop with (hop | hop) | (hop | hop) | (hop | hop)
        · exact hop
        · exact hop.elim
        · exact hop
        · exact hop.elim
        · exact hop
        · exact hop.elim
      subst hconfig
      rcases hk with hk | ⟨now, t, hk, -⟩
      · exact ⟨agentDto, hk, rfl, rfl⟩
      · cases hk
  | _ => rcases hop with hop | hop | hop <;> exact hop.elim

theorem ObjectsFrom.touches {k : Call} (hk : Allowed env asked k) {op : Op} (hop : k.Makes env op) {id : String}
    {o o' : Objects} (ho : ObjectsFrom env asked id o) (h : Touches id op o o') : ObjectsFrom env asked id o' := by
  obtain ⟨hcontainer, hpod, hservice⟩ := ho
  cases h with
  | createContainer hid _ =>
      refine ⟨fun c hc => ?_, hpod, hservice⟩
      cases hc
      exact hid ▸ configFrom_of_makes hk (.inl hop)
  | startContainer hcreated =>
      refine ⟨fun c hc => ?_, hpod, hservice⟩
      cases hc
      have hconfig := hcontainer _ hcreated
      exact hconfig
  | stopContainer _ => exact ⟨fun c hc => (by cases hc), hpod, hservice⟩
  | createPod hid _ =>
      refine ⟨hcontainer, fun config hc => ?_, hservice⟩
      cases hc
      exact hid ▸ configFrom_of_makes hk (.inr (.inl hop))
  | createService hid _ =>
      refine ⟨hcontainer, hpod, fun config hc => ?_⟩
      cases hc
      exact hid ▸ configFrom_of_makes hk (.inr (.inr hop))
  | deleteService _ => exact ⟨hcontainer, hpod, fun config hc => by cases hc⟩
  | deletePod _ => exact ⟨hcontainer, fun config hc => (by cases hc), hservice⟩
  | apart _ => exact ⟨hcontainer, hpod, hservice⟩

theorem entryFrom_of_makes {k : Call} (hk : Allowed env asked k) {key : String} {entry : CacheEntry} {ttl : WithTop ℚ}
    (hop : k.Makes env (.cacheSet key entry ttl)) : EntryFrom env asked key entry := by
  cases k with
  | spinUpAgent agentDto =>
      rcases hk with hk | ⟨now, t, hk, -⟩
      · rcases hop with hop | ⟨rfl, rfl, -⟩
        · exact hop.elim
        · exact .agent ⟨agentDto, hk, rfl, rfl⟩
      · cases hk
  | createWallet body =>
      rcases hk with hk | ⟨now, t, hk, -⟩
      · obtain ⟨rfl, -, token, walletId, rfl⟩ := hop
        exact .wallet hk rfl
      · cases hk
  | _ => exact hop.elim

theorem timerFrom_of_makes {k : Call} (hk : Allowed env asked k) {agentId : String} {ms : ℚ}
    (hop : k.Makes env (.setTimeout agentId ms)) (now : ℚ) :
    TimerFrom env asked now { agentId, due := now + timerDelay ms } := by
  cases k with
  | spinUpAgent agentDto =>
      rcases hk with hk | ⟨_, t, hk, -⟩
      · rcases hop with hop | ⟨rfl, ttl, httl, hpos, rfl⟩
        · exact hop.elim
        · exact ⟨_, ⟨agentDto, hk, rfl, rfl⟩, ttl, httl, hpos, now, le_refl _, rfl⟩
      · cases hk
  | _ => exact hop.elim

theorem TimerFrom.later {now now' : ℚ} {t : Timer} (h : TimerFrom env asked now t) (hnow : now ≤ now') :
    TimerFrom env asked now' t := by
  obtain ⟨config, hconfig, ttl, httl, hpos, set, hset, hdue⟩ := h
  exact ⟨config, hconfig, ttl, httl, hpos, set, hset.trans hnow, hdue⟩

theorem delay_of_makes {k : Call} {ms : ℚ} (hop : k.Makes env (.delay ms)) : ms = 1000 := by
  cases k with
  | spinUpAgent agentDto =>
      rcases hop with hop | hop
      · exact hop.elim
      · exact hop
  | spinDownAgent | createWallet => exact hop.elim
  | _ => exact hop

theorem Origins.answer {k : Call} (hk : Allowed env asked k) {op : Op} (hop : k.Makes env op) (hw : Origins env asked w)
    {ch : Choice} {a} (h : answer env op ch w = some (a, w')) : Origins env asked w' := by
  refine answer_world (fun w w' => Origins env asked w → Origins env asked w') id (fun d v w' heffect hw => ?_) h hw
  have hobjects (id : String) : ObjectsFrom env asked id (w'.runtime.objects id) :=
    (hw.objects id).touches hk hop (effect_touches id heffect)
  have hcache : w'.cache.Forall (EntryFrom env asked) := by
    rcases effect_cache heffect with hc | ⟨key, entry, ttl, rfl, rfl⟩ | ⟨key, rfl, rfl⟩
    · rw [hc]
      exact hw.cache
    · exact hw.cache.write (entryFrom_of_makes hk hop) _
    · exact hw.cache.erase key
  refine ⟨hobjects, hcache, ?_⟩
  rcases effect_cases heffect with rfl | ⟨-, hruntime⟩ | ⟨_, _, _, -, rfl⟩ | ⟨_, -, rfl⟩ | hserver |
    ⟨ms, ms', rfl, hms, rfl⟩ | ⟨agentId, ms, rfl, rfl⟩
  · exact hw.timers
  · rw [hruntime]
    exact hw.timers
  · exact hw.timers
  · exact hw.timers
  · rw [hserver.frame]
    exact hw.timers
  · have hdelay : (1000 : ℚ) ≤ ms' := delay_of_makes hop ▸ hms
    exact fun t ht => (hw.timers t ht).later (by linarith)
  · intro t ht
    rcases List.mem_append.mp ht with ht | ht
    · exact hw.timers t ht
    · rw [List.mem_singleton.mp ht]
      exact timerFrom_of_makes hk hop w.now

theorem Origins.event {e : Event} {ks : List Call} (hw : Origins env asked w) (h : event e w = some (w', ks)) :
    Origins env asked w' ∧ ∀ k ∈ ks, Begun env asked k w' := by
  rcases event_cases h with ⟨ms, hms, rfl, rfl⟩ | ⟨key, rfl, rfl⟩ | ⟨t, ht, hdue, rfl, rfl⟩
  · have hnow : w.now ≤ w.now + ms := le_add_of_nonneg_right hms
    exact ⟨⟨hw.objects, hw.cache, fun t ht => (hw.timers t ht).later hnow⟩, fun k hk => by cases hk⟩
  · exact ⟨⟨hw.objects, hw.cache.erase key, hw.timers⟩, fun k hk => by cases hk⟩
  · refine ⟨⟨hw.objects, hw.cache, fun t' ht' => hw.timers t' (List.mem_of_mem_erase ht')⟩, fun k hk => ?_⟩
    rw [List.mem_singleton.mp hk]
    exact .inr ⟨t, rfl, hw.timers t ht, hdue⟩

end GuardianshipAgency.Agency
