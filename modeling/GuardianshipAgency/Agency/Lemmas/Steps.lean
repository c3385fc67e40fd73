import GuardianshipAgency.Agency.World

/-!
# What one call does to the world
-/

namespace GuardianshipAgency.Agency

open Js Async Expiring

variable {env : Env}

/-! ## Answers -/

/-- A call fails without effect, or it takes effect; then it is answered, rejected or sent again. -/
theorem answer_cases {op : Op} {ch : Choice} {w w' : World} {a}
    (h : answer env op ch w = some (a, w')) :
    (w' = w ∧ ∃ e, a = some (.error e) ∧ ch = .failed e ∧ op.remote = true) ∨
      ∃ d o v, ch = .done d o ∧ effect env op d w = some (v, w') ∧
        ((a = some (.ok v) ∧ o = .answered) ∨ (∃ e, a = some (.error e) ∧ o = .rejected e ∧ op.remote = true) ∨
          (a = none ∧ o = .unanswered ∧ op.retried = true)) := by
  cases ch with
  | failed e =>
      simp only [answer] at h
      split at h
      · cases h
        exact .inl ⟨rfl, e, rfl, rfl, ‹_›⟩
      · cases h
  | done d o =>
      simp only [answer] at h
      split at h
      · cases h
      · rename_i v w'' he
        refine .inr ⟨d, o, v, rfl, ?_⟩
        cases o with
        | answered =>
            cases h
            exact ⟨he, .inl ⟨rfl, rfl⟩⟩
        | rejected e =>
            dsimp only at h
            split at h
            · cases h
              exact ⟨he, .inr (.inl ⟨e, rfl, rfl, ‹_›⟩)⟩
            · cases h
        | unanswered =>
            dsimp only at h
            split at h
            · cases h
              exact ⟨he, .inr (.inr ⟨rfl, rfl, ‹_›⟩)⟩
            · cases h

theorem answer_ok {op : Op} {ch : Choice} {w w' : World} {v : op.Val}
    (h : answer env op ch w = some (some (.ok v), w')) :
    ∃ d, ch = .done d .answered ∧ effect env op d w = some (v, w') := by
  rcases answer_cases h with ⟨-, e, he, -⟩ | ⟨d, o, v', hch, heff, ⟨hv, rfl⟩ | ⟨e, he, -⟩ | ⟨he, -⟩⟩
  · cases he
  · cases hv
    exact ⟨d, hch, heff⟩
  · cases he
  · cases he

theorem answer_world {op : Op} {ch : Choice} {w w' : World} {a} (R : World → World → Prop) (hrefl : R w w)
    (heffect : ∀ d v w', effect env op d w = some (v, w') → R w w')
    (h : answer env op ch w = some (a, w')) : R w w' := by
  rcases answer_cases h with ⟨rfl, -⟩ | ⟨d, o, v, -, he, -⟩
  · exact hrefl
  · exact heffect d v w' he

/-! ## Effects -/

def Op.ofRuntime : Op → Prop
  | .createContainer _ | .startContainer _ | .stopContainer _ | .createNamespacedPod _
  | .createNamespacedService _ | .deleteNamespacedService _ | .deleteNamespacedPod _ => True
  | _ => False

inductive ServerEffect : Op → Detail → World → World → Prop where
  | createWallet {target data id token w} : w.server.wallets.any (·.name == data.walletName) = false →
      w.server.registered.any (·.id == id) = false → w.server.issued.any (·.1 == token) = false →
      ServerEffect (.createWallet target data) (.wallet id token) w
        (w.register { id, name := data.walletName, key := data.walletKey } token)
  | getToken {target walletId walletKey token wallet w} : wallet ∈ w.server.wallets → wallet.id = walletId →
      wallet.key = walletKey → (∀ x, (token, x) ∈ w.server.issued → x = wallet) →
      ServerEffect (.getToken target walletId walletKey) (.token token) w (w.issue wallet token)
  | removeWallet {target walletId walletKey d w} :
      ServerEffect (.removeWallet target (some walletId) walletKey) d w (w.unregister walletId)

/-- Everything a call can do to the world. -/
theorem effect_cases {op : Op} {d : Detail} {w w' : World} {v} (h : effect env op d w = some (v, w')) :
    w' = w ∨ (op.ofRuntime ∧ w' = { w with runtime := w'.runtime }) ∨
      (∃ key entry ttl, op = .cacheSet key entry ttl ∧ w' = w.set env key entry ttl) ∨
      (∃ key, op = .cacheDel key ∧ w' = w.del key) ∨
      ServerEffect op d w w' ∨
      (∃ ms d', op = .delay ms ∧ ms ≤ d' ∧ w' = { w with now := w.now + d' }) ∨
      ∃ agentId ms, op = .setTimeout agentId ms ∧
        w' = { w with timers := w.timers ++ [{ agentId, due := w.now + timerDelay ms }] } := by
  unfold effect at h
  split at h
  case h_1 | h_2 | h_3 | h_4 | h_5 | h_6 | h_7 =>
      refine .inr (.inl ⟨trivial, ?_⟩)
      repeat' split at h
      all_goals first | (cases h; rfl) | cases h
  case h_9 => cases h; exact .inr (.inr (.inl ⟨_, _, _, rfl, rfl⟩))
  case h_10 => cases h; exact .inr (.inr (.inr (.inl ⟨_, rfl, rfl⟩)))
  case h_13 =>
      split at h
      · cases h
      · rename_i hnew
        cases h
        simp only [Bool.or_eq_true, not_or, Bool.not_eq_true] at hnew
        exact .inr (.inr (.inr (.inr (.inl (.createWallet hnew.1.1 hnew.1.2 hnew.2)))))
  case h_15 =>
      split at h
      · rename_i token _ wallet hfind
        split at h
        · rename_i hissued
          cases h
          have hmem := List.mem_of_find?_eq_some hfind
          have hkey := List.find?_some hfind
          simp only [Bool.and_eq_true, beq_iff_eq] at hkey
          have hall : ∀ x, (token, x) ∈ w.server.issued → x = wallet :=
            fun x hx => by simpa using List.all_eq_true.mp hissued _ hx
          exact .inr (.inr (.inr (.inr (.inl (.getToken hmem hkey.1 hkey.2 hall)))))
        · cases h
      · cases h
  case h_16 =>
      split at h
      · cases h
        exact .inr (.inr (.inr (.inr (.inl .removeWallet))))
      · cases h
  case h_19 =>
      split at h
      · rename_i hms
        cases h
        exact .inr (.inr (.inr (.inr (.inr (.inl ⟨_, _, rfl, hms, rfl⟩)))))
      · cases h
  case h_20 => cases h; exact .inr (.inr (.inr (.inr (.inr (.inr ⟨_, _, rfl, rfl⟩)))))
  all_goals
    refine .inl ?_
    repeat' split at h
    all_goals first | (cases h; rfl) | cases h

theorem ServerEffect.frame {op : Op} {d : Detail} {w w' : World} (h : ServerEffect op d w w') :
    w' = { w with server := w'.server } := by
  cases h <;> rfl

/-- Only `cacheSet` and `cacheDel` change the cache. -/
theorem effect_cache {op : Op} {d : Detail} {w w' : World} {v} (h : effect env op d w = some (v, w')) :
    w'.cache = w.cache ∨ (∃ key entry ttl, op = .cacheSet key entry ttl ∧ w' = w.set env key entry ttl) ∨
      ∃ key, op = .cacheDel key ∧ w' = w.del key := by
  rcases effect_cases h with rfl | ⟨-, hw⟩ | hset | hdel | hserver | ⟨_, _, -, -, rfl⟩ | ⟨_, _, -, rfl⟩
  · exact .inl rfl
  · exact .inl (by rw [hw])
  · exact .inr (.inl hset)
  · exact .inr (.inr hdel)
  · exact .inl (by rw [hserver.frame])
  · exact .inl rfl
  · exact .inl rfl

/-- Only the requests that create and remove wallets and fetch tokens change the server. -/
theorem effect_server {op : Op} {d : Detail} {w w' : World} {v} (h : effect env op d w = some (v, w')) :
    w'.server = w.server ∨ ServerEffect op d w w' := by
  rcases effect_cases h with rfl | ⟨-, hw⟩ | ⟨_, _, _, -, rfl⟩ | ⟨_, -, rfl⟩ | hserver |
    ⟨_, _, -, -, rfl⟩ | ⟨_, _, -, rfl⟩
  · exact .inl rfl
  · exact .inl (by rw [hw])
  · exact .inl rfl
  · exact .inl rfl
  · exact .inr hserver
  · exact .inl rfl
  · exact .inl rfl

/-! ## The runtime -/

theorem effect_createContainer {config : AgentConfig} {d : Detail} {w w' : World} {v}
    (h : effect env (.createContainer config) d w = some (v, w')) :
    w.runtime.containers config.agentId = none ∧
      w' = w.setContainer config.agentId (some { config, started := false }) := by
  cases d with
  | plain =>
      obtain ⟨hfree, he⟩ := Option.ite_none_right_eq_some.mp h
      cases he
      exact ⟨Option.isNone_iff_eq_none.mp hfree, rfl⟩
  | _ => cases h

theorem effect_startContainer {name : String} {d : Detail} {w w' : World} {v}
    (h : effect env (.startContainer name) d w = some (v, w')) :
    ∃ c, w.runtime.containers name = some c ∧ w' = w.setContainer name (some { c with started := true }) := by
  cases d with
  | plain =>
      delta effect at h
      dsimp only at h
      cases hc : w.runtime.containers name with
      | none =>
          rw [hc] at h
          cases h
      | some c =>
          rw [hc] at h
          obtain ⟨-, he⟩ := Option.ite_none_left_eq_some.mp h
          cases he
          exact ⟨c, rfl, rfl⟩
  | _ => cases h

theorem effect_stopContainer {name : String} {d : Detail} {w w' : World} {v}
    (h : effect env (.stopContainer name) d w = some (v, w')) : w' = w.setContainer name none := by
  cases d with
  | plain =>
      delta effect at h
      dsimp only at h
      cases hc : w.runtime.containers name with
      | none =>
          rw [hc] at h
          cases h
      | some c =>
          rw [hc] at h
          obtain ⟨-, he⟩ := Option.ite_none_right_eq_some.mp h
          cases he
          rfl
  | _ => cases h

theorem effect_createNamespacedPod {config : AgentConfig} {d : Detail} {w w' : World} {v}
    (h : effect env (.createNamespacedPod config) d w = some (v, w')) :
    w.runtime.pods config.agentId = none ∧ w' = w.setPod config.agentId (some config) := by
  cases d with
  | plain =>
      obtain ⟨hfree, he⟩ := Option.ite_none_right_eq_some.mp h
      cases he
      exact ⟨Option.isNone_iff_eq_none.mp hfree, rfl⟩
  | _ => cases h

theorem effect_createNamespacedService {config : AgentConfig} {d : Detail} {w w' : World} {v}
    (h : effect env (.createNamespacedService config) d w = some (v, w')) :
    w.runtime.services config.agentId = none ∧ w' = w.setService config.agentId (some config) := by
  cases d with
  | plain =>
      obtain ⟨hfree, he⟩ := Option.ite_none_right_eq_some.mp h
      cases he
      exact ⟨Option.isNone_iff_eq_none.mp hfree, rfl⟩
  | _ => cases h

theorem effect_deleteNamespacedService {id : String} {d : Detail} {w w' : World} {v}
    (h : effect env (.deleteNamespacedService id) d w = some (v, w')) : w' = w.setService id none := by
  cases d with
  | plain =>
      obtain ⟨-, he⟩ := Option.ite_none_right_eq_some.mp h
      cases he
      rfl
  | _ => cases h

theorem effect_deleteNamespacedPod {id : String} {d : Detail} {w w' : World} {v}
    (h : effect env (.deleteNamespacedPod id) d w = some (v, w')) : w' = w.setPod id none := by
  cases d with
  | plain =>
      obtain ⟨-, he⟩ := Option.ite_none_right_eq_some.mp h
      cases he
      rfl
  | _ => cases h

/-! ## The cache -/

theorem effect_cacheGet {key : String} {d : Detail} {w w' : World} {v : Lookup}
    (h : effect env (.cacheGet key) d w = some (v, w')) : d = .plain ∧ v = w.get env key ∧ w' = w := by
  cases d with
  | plain => cases h; exact ⟨rfl, rfl, rfl⟩
  | _ => cases h

theorem effect_cacheDel {key : String} {d : Detail} {w w' : World} {v}
    (h : effect env (.cacheDel key) d w = some (v, w')) : w' = w.del key := by
  cases d with
  | plain => cases h; rfl
  | _ => cases h

/-! ## The multitenant server -/

theorem effect_createWallet {target : AdminTarget} {data : WalletData} {d : Detail} {w w' : World}
    {v : String × String} (h : effect env (.createWallet target data) d w = some (v, w')) :
    ∃ wallet : Wallet, wallet.name = data.walletName ∧ wallet.key = data.walletKey ∧ wallet.id = v.1 ∧
      (∀ x ∈ w.server.registered, x.id ≠ wallet.id) ∧ w' = w.register wallet v.2 := by
  cases d with
  | wallet id token =>
      obtain ⟨hnew, he⟩ := Option.ite_none_left_eq_some.mp h
      cases he
      simp only [Bool.or_eq_true, not_or, List.any_eq_true, beq_iff_eq, not_exists, not_and] at hnew
      exact ⟨_, rfl, rfl, rfl, hnew.1.2, rfl⟩
  | _ => cases h

theorem effect_getAllWallets {target : AdminTarget} {d : Detail} {w w' : World} {v : List WalletRecord}
    (h : effect env (.getAllWallets target) d w = some (v, w')) :
    w' = w ∧ ∀ record ∈ v, ∃ wallet ∈ w.server.wallets,
      wallet.id = record.walletId ∧ wallet.name = record.walletName := by
  cases d with
  | listed wallets =>
      obtain ⟨hperm, he⟩ := Option.ite_none_right_eq_some.mp h
      cases he
      refine ⟨rfl, fun record hrecord => ?_⟩
      obtain ⟨wallet, hwallet, rfl⟩ := List.mem_map.mp hrecord
      exact ⟨wallet, hperm.mem_iff.mp hwallet, rfl, rfl⟩
  | _ => cases h

theorem effect_getToken {target : AdminTarget} {walletId walletKey : String} {d : Detail} {w w' : World}
    {v : String} (h : effect env (.getToken target walletId walletKey) d w = some (v, w')) :
    ∃ wallet ∈ w.server.wallets, wallet.id = walletId ∧ wallet.key = walletKey ∧ w' = w.issue wallet v := by
  cases d with
  | token token =>
      delta effect at h
      dsimp only at h
      cases hfind : w.server.wallets.find? fun wallet => wallet.id == walletId && wallet.key == walletKey with
      | none =>
          rw [hfind] at h
          cases h
      | some wallet =>
          rw [hfind] at h
          obtain ⟨-, he⟩ := Option.ite_none_right_eq_some.mp h
          cases he
          have hkey := List.find?_some hfind
          simp only [Bool.and_eq_true, beq_iff_eq] at hkey
          exact ⟨wallet, List.mem_of_find?_eq_some hfind, hkey.1, hkey.2, rfl⟩
  | _ => cases h

/-! ## Events -/

theorem event_cases {e : Event} {w w' : World} {ks : List Call} (h : event e w = some (w', ks)) :
    (∃ ms, 0 ≤ ms ∧ w' = { w with now := w.now + ms } ∧ ks = []) ∨ (∃ key, w' = w.del key ∧ ks = []) ∨
      ∃ t, t ∈ w.timers ∧ t.due ≤ w.now ∧ w' = { w with timers := w.timers.erase t } ∧
        ks = [.spinDownAgent t.agentId] := by
  cases e with
  | pass ms =>
      simp only [event] at h
      split at h
      · cases h
        exact .inl ⟨ms, ‹_›, rfl, rfl⟩
      · cases h
  | evict key =>
      cases h
      exact .inr (.inl ⟨key, rfl, rfl⟩)
  | fire t =>
      simp only [event] at h
      split at h
      · rename_i ht
        cases h
        exact .inr (.inr ⟨t, ht.1, ht.2, rfl, rfl⟩)
      · cases h

theorem event_fire {t : Timer} {w w' : World} {ks : List Call} (h : event (.fire t) w = some (w', ks)) :
    t ∈ w.timers ∧ t.due ≤ w.now := by
  simp only [event] at h
  split at h
  · rename_i ht
    exact ht
  · cases h

theorem event_server {e : Event} {w w' : World} {ks : List Call} (h : event e w = some (w', ks)) :
    w'.server = w.server := by
  rcases event_cases h with ⟨ms, -, rfl, -⟩ | ⟨key, rfl, -⟩ | ⟨t, -, -, rfl, -⟩ <;> rfl

end GuardianshipAgency.Agency
