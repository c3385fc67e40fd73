import GuardianshipAgency.Caching.Stores

/-!
# What the calls do with the same content
-/

namespace GuardianshipAgency.Caching

open Js Async Expiring Agency Lifecycle

variable {env : Env}

/-! ## Calls past the cache -/

/-- Calls past the cache do not see it. -/
theorem effect_pastCache {op : Op} (hop : ofCache op = false) (d : Detail) (w : World)
    (c : Store (WithTop ℚ) String CacheEntry) :
    effect env op d { w with cache := c } =
      (effect env op d w).map fun x => (x.1, { x.2 with cache := c }) := by
  cases op with
  | cacheGet key | cacheSet key entry ttl | cacheDel key => cases hop
  | startContainer name | stopContainer name =>
      cases d with
      | plain =>
          simp only [effect]
          cases w.runtime.containers name with
          | none => rfl
          | some container =>
              dsimp only
              split <;> rfl
      | _ => rfl
  | status target | createInvitation target =>
      have haccepts : World.accepts { w with cache := c } env target = w.accepts env target := rfl
      cases d with
      | status code | invitation invitation =>
          simp only [effect, haccepts]
          first | rfl | split <;> rfl
      | _ => rfl
  | getToken target walletId walletKey =>
      cases d with
      | token token =>
          simp only [effect]
          cases w.server.wallets.find? fun wallet => wallet.id == walletId && wallet.key == walletKey with
          | none => rfl
          | some wallet =>
              dsimp only
              split <;> rfl
      | _ => rfl
  | removeWallet target walletId walletKey =>
      cases walletId with
      | none => cases d <;> rfl
      | some walletId =>
          cases d with
          | data data =>
              simp only [effect]
              split <;> rfl
          | _ => rfl
  | handleAcapyWebhookMsg msg | register url data | getTime | setTimeout agentId ms => cases d <;> rfl
  | createContainer config | createNamespacedPod config | createNamespacedService config
  | deleteNamespacedService id | deleteNamespacedPod id | createWallet target data | getAllWallets target | delay ms =>
      cases d with
      | plain | wallet id token | listed wallets | elapsed d =>
          simp only [effect]
          first | rfl | split <;> rfl
      | _ => rfl

theorem answer_pastCache {op : Op} (hop : ofCache op = false) (ch : Choice) (w : World)
    (c : Store (WithTop ℚ) String CacheEntry) :
    answer env op ch { w with cache := c } =
      (answer env op ch w).map fun x => (x.1, { x.2 with cache := c }) := by
  cases ch with
  | failed e =>
      simp only [answer]
      split <;> rfl
  | done d o =>
      have heffect : effect env op d _ = _ := effect_pastCache hop d w c
      simp only [answer]
      rw [heffect]
      cases effect env op d w with
      | none => rfl
      | some x =>
          cases o with
          | answered => rfl
          | rejected e | unanswered =>
              simp only [Option.map_some]
              split <;> rfl

/-- Which store it is shows only in what a lookup gives. -/
theorem effect_stores {op : Op} (hop : ∀ key, op ≠ .cacheGet key) (d : Detail) (w : World) :
    effect (redisStore env) op d w = effect (fsStore env) op d w := by
  cases op with
  | cacheGet key => exact absurd rfl (hop key)
  | removeWallet target walletId walletKey => cases walletId <;> cases d <;> rfl
  | _ => cases d <;> rfl

theorem answer_stores {op : Op} (hop : ofCache op = false) (ch : Choice) (w : World) :
    answer (redisStore env) op ch w = answer (fsStore env) op ch w := by
  have hget : ∀ key, op ≠ .cacheGet key := fun key hkey => by
    rw [hkey] at hop
    cases hop
  cases ch with
  | failed e => rfl
  | done d o => simp only [answer, effect_stores hget]

theorem pastCache_frame {op : Op} (hop : ofCache op = false) {ch : Choice} {w w' : World} {a}
    (h : answer env op ch w = some (a, w')) : w' = { w' with cache := w.cache } := by
  have hself : answer env op ch w = _ := answer_pastCache hop ch w w.cache
  rw [h] at hself
  exact (Prod.mk.inj (Option.some.inj hself)).2

/-! ## The same content -/

namespace SameContent

variable {w v : World}

theorem refl (w : World) : SameContent w w := ⟨rfl, fun _ _ _ => rfl⟩

theorem now (h : SameContent w v) : v.now = w.now := by rw [h.frame]

theorem lookup_now (h : SameContent w v) (key : String) : v.lookup key = w.lookup key := by
  rw [World.lookup, World.lookup, h.now]
  exact h.lookup _ (le_refl _) key

theorem set (h : SameContent w v) (key : String) (entry : CacheEntry) (ttl : WithTop ℚ) :
    SameContent (w.set (fsStore env) key entry ttl) (v.set (redisStore env) key entry ttl) where
  frame := by
    rw [h.frame]
    rfl
  lookup t ht key' := by
    have hkept : (redisStore env).kept ttl = (fsStore env).kept ttl := rfl
    simp only [World.set, Store.lookup_write, hkept, h.now, h.lookup t ht]

theorem del (h : SameContent w v) (key : String) : SameContent (w.del key) (v.del key) where
  frame := by
    rw [h.frame]
    rfl
  lookup t ht key' := by
    simp only [World.del, Store.lookup_erase, h.lookup t ht]

/-- An entry that has expired when it is written makes no difference where there was none. -/
theorem set_expired (h : SameContent w v) {key : String} (hkey : w.lookup key = none) {entry : CacheEntry}
    {ttl : WithTop ℚ} (hexpired : (w.now : WithTop ℚ) + (env.kept ttl).map (· * 1000) ≤ (w.now : WithTop ℚ)) :
    SameContent (w.set env key entry ttl) v where
  frame := h.frame
  lookup t ht key' := by
    simp only [World.set, Store.lookup_write, h.lookup t ht]
    split
    · rename_i heq
      rw [heq, if_neg (not_lt.mpr (hexpired.trans ht))]
      cases he : w.cache.lookup t key with
      | none => rfl
      | some e =>
          have hnow : w.lookup key = some e := Store.lookup_of_le ht he
          rw [hkey] at hnow
          cases hnow
    · rfl

end SameContent

end GuardianshipAgency.Caching
