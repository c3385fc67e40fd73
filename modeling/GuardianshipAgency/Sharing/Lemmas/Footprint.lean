import GuardianshipAgency.Agency.Lemmas.Calls
import GuardianshipAgency.Agency.Lemmas.Steps

/-!
# What the calls of each service touch

Agents live in the runtime and have timers, wallets live on the multitenant server. Both have entries in one cache.
-/

namespace GuardianshipAgency.Sharing

open Js Async Expiring Agency

variable {env : Env}

/-! ## Three kinds of awaited calls -/

/-- Calls that touch one key of the cache. -/
def OnKey (key : String) : Op → Prop
  | .cacheGet k | .cacheSet k _ _ | .cacheDel k => k = key
  | _ => False

/-- Calls to the runtime and to agents, and calls that have to do with time. -/
def ToAgents (id : String) : Op → Prop
  | .createContainer _ | .startContainer _ | .stopContainer _ | .createNamespacedPod _ | .createNamespacedService _
  | .deleteNamespacedService _ | .deleteNamespacedPod _ | .getTime => True
  | .status t | .createInvitation t => ∃ port, t.host = .agent id port
  | .delay ms => 0 ≤ ms
  | .setTimeout agentId _ => agentId = id
  | _ => False

/-- Calls to the multitenant server. -/
def ToServer : Op → Prop
  | .createWallet _ _ | .getAllWallets _ | .getToken _ _ _ | .removeWallet _ _ _ => True
  | .createInvitation t => t.host = .multitenant
  | _ => False

theorem effect_toAgents {agentId : String} {op : Op} (hop : ToAgents agentId op) (d : Detail) (w : World)
    (c : Store (WithTop ℚ) String CacheEntry) (s : Server) :
    effect env op d { w with cache := c, server := s } =
      (effect env op d w).map fun vw => (vw.1, { vw.2 with cache := c, server := s }) := by
  cases op with
  | createContainer config | createNamespacedPod config | createNamespacedService config
  | deleteNamespacedService id | deleteNamespacedPod id =>
      cases d with
      | plain =>
          simp only [effect]
          split <;> rfl
      | _ => rfl
  | startContainer name | stopContainer name =>
      cases d with
      | plain =>
          simp only [effect]
          cases w.runtime.containers name with
          | none => rfl
          | some container =>
              dsimp only
              split <;> rfl
      | _ => rfl
  | status target =>
      obtain ⟨port, hhost⟩ := hop
      cases d with
      | status code =>
          have haccepts : World.accepts { w with cache := c, server := s } env target = w.accepts env target := by
            simp only [World.accepts, hhost]
            rfl
          simp only [effect, haccepts]
          split <;> rfl
      | _ => rfl
  | createInvitation target =>
      obtain ⟨port, hhost⟩ := hop
      cases d with
      | invitation invitation =>
          have haccepts : World.accepts { w with cache := c, server := s } env target = w.accepts env target := by
            simp only [World.accepts, hhost]
            rfl
          simp only [effect, haccepts]
          split <;> rfl
      | _ => rfl
  | getTime | setTimeout agentId ms => cases d <;> rfl
  | delay ms =>
      cases d with
      | elapsed d =>
          simp only [effect]
          split <;> rfl
      | _ => rfl
  | _ => exact absurd hop id

theorem effect_toServer {op : Op} (hop : ToServer op) (d : Detail) (w : World)
    (c : Store (WithTop ℚ) String CacheEntry) (rt : Runtime) (ts : List Timer) :
    effect env op d { w with cache := c, runtime := rt, timers := ts } =
      (effect env op d w).map fun vw => (vw.1, { vw.2 with cache := c, runtime := rt, timers := ts }) := by
  cases op with
  | createInvitation target =>
      have hhost : target.host = .multitenant := hop
      cases d with
      | invitation invitation =>
          have haccepts : World.accepts { w with cache := c, runtime := rt, timers := ts } env target =
              w.accepts env target := by
            simp only [World.accepts, hhost]
          simp only [effect, haccepts]
          split <;> rfl
      | _ => rfl
  | createWallet target data =>
      cases d with
      | wallet id token =>
          simp only [effect]
          split <;> rfl
      | _ => rfl
  | getAllWallets target =>
      cases d with
      | listed wallets =>
          simp only [effect]
          split <;> rfl
      | _ => rfl
  | getToken target walletId walletKey =>
      cases d with
      | token token =>
          simp only [effect]
          cases w.server.wallets.find? fun wallet => wallet.id == walletId && wallet.key == walletKey with
          | none => rfl
          | some wallet =>
              dsimp only
              split <;> rfl
      | _ => rfl
  | removeWallet target walletId walletKey =>
      cases walletId with
      | none => cases d <;> rfl
      | some walletId =>
          cases d with
          | data data =>
              simp only [effect]
              split <;> rfl
          | _ => rfl
  | _ => exact absurd hop id

theorem toAgents_frame {agentId : String} {op : Op} (hop : ToAgents agentId op) {d : Detail} {w w' : World} {x}
    (h : effect env op d w = some (x, w')) : w' = { w' with cache := w.cache, server := w.server } := by
  have hself : effect env op d w = _ := effect_toAgents hop d w w.cache w.server
  rw [h] at hself
  exact (Prod.mk.inj (Option.some.inj hself)).2

theorem toServer_frame {op : Op} (hop : ToServer op) {d : Detail} {w w' : World} {x}
    (h : effect env op d w = some (x, w')) :
    w' = { w' with cache := w.cache, runtime := w.runtime, timers := w.timers } := by
  have hself : effect env op d w = _ := effect_toServer hop d w w.cache w.runtime w.timers
  rw [h] at hself
  exact (Prod.mk.inj (Option.some.inj hself)).2

/-- A call on a key of the cache does the same in every world with the same time and the same entry, and touches no
other key. -/
theorem effect_onKey {key : String} {op : Op} (hop : OnKey key op) {d : Detail} {w w' v : World} {x}
    (h : effect env op d w = some (x, w')) (hnow : v.now = w.now) (hkey : v.cache key = w.cache key) :
    ∃ cw cv, w' = { w with cache := cw } ∧ effect env op d v = some (x, { v with cache := cv }) ∧ cv key = cw key ∧
      ∀ k, k ≠ key → cw k = w.cache k ∧ cv k = v.cache k := by
  cases op with
  | cacheGet k =>
      obtain rfl : k = key := hop
      obtain ⟨rfl, rfl, rfl⟩ := effect_cacheGet h
      have hget : v.get env k = w'.get env k := by
        simp only [World.get, World.lookup, hnow, Store.lookup_congr hkey]
      refine ⟨w'.cache, v.cache, rfl, ?_, hkey, fun _ _ => ⟨rfl, rfl⟩⟩
      simp only [effect, hget]
  | cacheSet k entry ttl =>
      obtain rfl : k = key := hop
      cases d with
      | plain =>
          cases h
          refine ⟨_, _, rfl, rfl, ?_, fun k' hk' => ⟨Store.write_of_ne _ _ _ hk', Store.write_of_ne _ _ _ hk'⟩⟩
          rw [Store.write_self, Store.write_self, hnow]
      | _ => cases h
  | cacheDel k =>
      obtain rfl : k = key := hop
      cases d with
      | plain =>
          cases h
          refine ⟨_, _, rfl, rfl, ?_, fun k' hk' => ⟨Store.erase_of_ne _ hk', Store.erase_of_ne _ hk'⟩⟩
          rw [Store.erase_self, Store.erase_self]
      | _ => cases h
  | _ => exact absurd hop id

/-- In worlds that agree on the entries of `names`, a call on one of them does the same and leaves them in agreement. -/
theorem effect_onKeys {names : String → Prop} {w w' v : World} (hnow : v.now = w.now)
    (hcache : ∀ name, names name → v.cache name = w.cache name) {name : String} (hname : names name) {op : Op}
    (hop : OnKey name op) {d : Detail} {x} (h : effect env op d w = some (x, w')) :
    ∃ cw cv, w' = { w with cache := cw } ∧ effect env op d v = some (x, { v with cache := cv }) ∧
      ∀ name, names name → cv name = cw name := by
  obtain ⟨cw, cv, hw, hv, hkey, hothers⟩ := effect_onKey hop h hnow (hcache name hname)
  refine ⟨cw, cv, hw, hv, fun name' hname' => ?_⟩
  by_cases hne : name' = name
  · rw [hne]
    exact hkey
  · obtain ⟨hw, hv⟩ := hothers name' hne
    exact hv.trans ((hcache name' hname').trans hw.symm)

/-! ## Time -/

/-- Only waiting takes time. -/
theorem effect_now {op : Op} (hop : ∀ ms, op ≠ .delay ms) {d : Detail} {w w' : World} {v}
    (h : effect env op d w = some (v, w')) : w'.now = w.now := by
  rcases effect_cases h with rfl | ⟨-, hw⟩ | ⟨_, _, _, -, rfl⟩ | ⟨_, -, rfl⟩ | hserver | ⟨ms, _, rfl, -⟩ |
    ⟨_, _, -, rfl⟩
  · rfl
  · rw [hw]
  · rfl
  · rfl
  · rw [hserver.frame]
  · exact absurd rfl (hop ms)
  · rfl

/-! ## What each call may await -/

def AgentOp (id : String) (op : Op) : Prop := ToAgents id op ∨ OnKey id op

def WalletOp (name : String) (op : Op) : Prop := ToServer op ∨ OnKey name op

theorem effect_timers {agentId : String} {op : Op} (hop : AgentOp agentId op) {d : Detail} {w w' : World} {v}
    (h : effect env op d w = some (v, w')) : ∀ t ∈ w'.timers, t ∈ w.timers ∨ t.agentId = agentId := by
  intro t ht
  rcases effect_cases h with rfl | ⟨-, hw⟩ | ⟨_, _, _, -, rfl⟩ | ⟨_, -, rfl⟩ | hserver | ⟨_, _, -, -, rfl⟩ |
    ⟨_, _, rfl, rfl⟩
  · exact .inl ht
  · rw [hw] at ht
    exact .inl ht
  · exact .inl ht
  · exact .inl ht
  · rw [hserver.frame] at ht
    exact .inl ht
  · exact .inl ht
  · rcases List.mem_append.mp ht with ht | ht
    · exact .inl ht
    · rcases hop with hop | hop
      · rw [List.mem_singleton.mp ht]
        exact .inr hop
      · exact absurd hop id

/-- The manager leaves the server and all other entries alone. -/
theorem agentOp_frame {id : String} {op : Op} (hop : AgentOp id op) {d : Detail} {w w' : World} {v}
    (h : effect env op d w = some (v, w')) : w'.server = w.server ∧ ∀ k, k ≠ id → w'.cache k = w.cache k := by
  rcases hop with hop | hop
  · rw [toAgents_frame hop h]
    exact ⟨rfl, fun _ _ => rfl⟩
  · obtain ⟨cw, cv, rfl, -, -, hothers⟩ := effect_onKey hop h rfl rfl
    exact ⟨rfl, fun k hk => (hothers k hk).1⟩

/-- `MultitenantService` leaves runtime, timers and all other entries alone, and takes no time. -/
theorem walletOp_frame {name : String} {op : Op} (hop : WalletOp name op) {d : Detail} {w w' : World} {v}
    (h : effect env op d w = some (v, w')) :
    w'.now = w.now ∧ w'.runtime = w.runtime ∧ w'.timers = w.timers ∧ ∀ k, k ≠ name → w'.cache k = w.cache k := by
  rcases hop with hop | hop
  · have hnow : w'.now = w.now := effect_now (fun ms hms => by subst hms; exact hop) h
    rw [toServer_frame hop h]
    exact ⟨hnow, rfl, rfl, fun _ _ => rfl⟩
  · obtain ⟨cw, cv, rfl, -, -, hothers⟩ := effect_onKey hop h rfl rfl
    exact ⟨rfl, rfl, rfl, fun k hk => (hothers k hk).1⟩

theorem agentOp_of_spinUp {config : AgentConfig} {op : Op} (h : SpinUpOp config op) : AgentOp config.agentId op := by
  rcases h with h | h
  · cases op with
    | createContainer | startContainer | createNamespacedPod | createNamespacedService => exact .inl trivial
    | _ => exact absurd h id
  · cases op with
    | cacheGet key => exact .inr h
    | cacheSet key entry ttl => exact .inr h.1
    | status target | createInvitation target => exact .inl ⟨_, by rw [show target = _ from h]⟩
    | getTime => exact .inl trivial
    | delay ms =>
        refine .inl ?_
        rw [show ms = 1000 from h]
        exact (by norm_num : (0 : ℚ) ≤ 1000)
    | setTimeout agentId ms => exact .inl h.1
    | _ => exact absurd h id

theorem agentOp_of_spinDown {id : String} {op : Op} (h : SpinDownOp id op) : AgentOp id op := by
  cases op with
  | cacheDel key => exact .inr h
  | stopContainer | deleteNamespacedService | deleteNamespacedPod => exact .inl trivial
  | _ => cases h

theorem walletOp_of_createWallet {body : WalletCreateDto} {op : Op} (h : CreateWalletOp env body op) :
    WalletOp body.walletName op := by
  cases op with
  | createWallet | getAllWallets | getToken => exact .inl trivial
  | cacheGet key => exact .inr h
  | cacheSet key entry ttl => exact .inr h.1
  | createInvitation target => exact .inl h
  | _ => exact absurd h id

theorem connectAgent_agentOp (agentId adminApiKey : String) :
    (AgentManagerService.connectAgent env agentId adminApiKey).Calls (AgentOp agentId) := by
  refine .bind (.call (.inr rfl)) fun agentCache => .bind ?_ fun _ => .bind (.call (.inl ⟨_, rfl⟩)) fun _ => trivial
  refine AgentManagerService.pingConnectionWithRetry_calls _ (.inl ⟨_, rfl⟩) (.inl trivial) (.inl ?_) _
  exact (by norm_num : (0 : ℚ) ≤ 1000)

theorem removeWallet_walletOp (walletName walletKey : String) :
    (MultitenantService.removeWallet env walletName walletKey).Calls (WalletOp walletName) := by
  refine .bind (.call (.inr rfl)) fun agent => ?_
  split
  · exact .call (.inl trivial)
  · trivial

/-! ## The calls of the two services -/

def ofManager : Call → Bool
  | .spinUpAgent _ | .spinDownAgent _ | .connectAgent _ _ => true
  | _ => false

def ofTenants : Call → Bool
  | .createWallet _ | .removeWallet _ _ => true
  | _ => false

/-- The id or name under which the service looks up and writes entries. -/
def nameOf : Call → String
  | .spinUpAgent agentDto => agentDto.agentId
  | .spinDownAgent agentId | .connectAgent agentId _ | .handleRequest agentId _ _ _ | .createAgentConnection agentId
  | .registerWithTDC agentId _ => agentId
  | .createWallet body => body.walletName
  | .removeWallet walletName _ => walletName

theorem ofTenants_eq_false {k : Call} (h : ofManager k = true) : ofTenants k = false := by
  cases k with
  | spinUpAgent | spinDownAgent | connectAgent => rfl
  | _ => cases h

theorem body_agentOp {k : Call} (h : ofManager k = true) : (k.body env).Calls (AgentOp (nameOf k)) := by
  cases k with
  | spinUpAgent agentDto =>
      exact .bind ((AgentManagerService.spinUpAgent_calls env agentDto).mono fun _ => agentOp_of_spinUp)
        fun _ => trivial
  | spinDownAgent agentId =>
      exact .bind ((AgentManagerService.spinDownAgent_calls env agentId).mono fun _ => agentOp_of_spinDown)
        fun _ => trivial
  | connectAgent agentId adminApiKey => exact .bind (connectAgent_agentOp agentId adminApiKey) fun _ => trivial
  | _ => cases h

theorem body_walletOp {k : Call} (h : ofTenants k = true) : (k.body env).Calls (WalletOp (nameOf k)) := by
  cases k with
  | createWallet body =>
      exact .bind ((MultitenantService.createWallet_calls env body).mono fun _ => walletOp_of_createWallet)
        fun _ => trivial
  | removeWallet walletName walletKey => exact .bind (removeWallet_walletOp walletName walletKey) fun _ => trivial
  | _ => cases h

end GuardianshipAgency.Sharing
