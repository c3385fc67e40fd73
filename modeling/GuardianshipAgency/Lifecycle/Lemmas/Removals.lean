import GuardianshipAgency.Agency.Lemmas.SpinUp
import GuardianshipAgency.Async.Lemmas.Serial

/-!
# Wallets that the cache refers to

Only a removal takes a wallet away from the multitenant server, and it leaves the cache as it is.
-/

namespace GuardianshipAgency.Lifecycle

open Js Async Expiring Agency

variable {env : Env}

/-! ## Entries and wallets -/

def HasWallet (s : Server) (walletId : String) : Prop := ∃ wallet ∈ s.wallets, wallet.id = walletId

/-- Every live entry of a wallet refers to a wallet that the server has. -/
def Current (w : World) : Prop :=
  ∀ name e walletId, w.lookup name = some e → e.walletId = some walletId → HasWallet w.server walletId

/-- The server keeps its wallets, and no live entry of a wallet is new. -/
structure Preserves (w w' : World) : Prop where
  entries : ∀ name e, w'.lookup name = some e → e.walletId = none ∨ w.lookup name = some e
  wallets : ∀ wallet ∈ w.server.wallets, wallet ∈ w'.server.wallets

theorem Preserves.refl (w : World) : Preserves w w := ⟨fun _ _ h => .inr h, fun _ h => h⟩

theorem Preserves.trans {w₁ w₂ w₃ : World} (h : Preserves w₁ w₂) (h' : Preserves w₂ w₃) : Preserves w₁ w₃ where
  entries name e he := by
    rcases h'.entries name e he with hnone | hlookup
    · exact .inl hnone
    · exact h.entries name e hlookup
  wallets wallet hwallet := h'.wallets wallet (h.wallets wallet hwallet)

theorem Preserves.has {w w' : World} (h : Preserves w w') {walletId : String} (hid : HasWallet w.server walletId) :
    HasWallet w'.server walletId := by
  obtain ⟨wallet, hwallet, hid⟩ := hid
  exact ⟨wallet, h.wallets wallet hwallet, hid⟩

theorem Current.preserve {w w' : World} (hw : Current w) (h : Preserves w w') : Current w' := by
  intro name e walletId he hid
  rcases h.entries name e he with hnone | hlookup
  · rw [hnone] at hid
    cases hid
  · exact h.has (hw name e walletId hlookup hid)

/-! ## Single steps -/

/-- Everything but writing to the cache, removing a wallet and waiting. -/
def Harmless : Op → Prop
  | .cacheSet _ _ _ | .removeWallet _ _ _ | .delay _ => False
  | _ => True

theorem preserves_cache {w w' : World} (hnow : w.now ≤ w'.now) (hcache : w'.cache = w.cache)
    (hwallets : ∀ wallet ∈ w.server.wallets, wallet ∈ w'.server.wallets) : Preserves w w' where
  entries name e he := by
    rw [World.lookup, hcache] at he
    exact .inr (Store.lookup_of_le (WithTop.coe_le_coe.mpr hnow) he)
  wallets := hwallets

theorem preserves_del (w : World) (key : String) : Preserves w (w.del key) where
  entries name e he := by
    by_cases hname : name = key
    · subst hname
      simp [World.lookup, World.del, Store.lookup] at he
    · rw [World.lookup, World.del, Store.lookup_congr (Store.erase_of_ne _ hname)] at he
      exact .inr he
  wallets _ h := h

theorem preserves_effect {op : Op} (hop : Harmless op) {d : Detail} {w w' : World} {v}
    (h : effect env op d w = some (v, w')) : Preserves w w' := by
  rcases effect_cases h with rfl | ⟨-, hw⟩ | ⟨_, _, _, rfl, -⟩ | ⟨key, -, rfl⟩ | hserver | ⟨_, _, rfl, -⟩ |
    ⟨_, _, -, rfl⟩
  · exact .refl _
  · rw [hw]
    exact preserves_cache (le_refl _) rfl fun _ h => h
  · exact absurd hop id
  · exact preserves_del w key
  · cases hserver with
    | createWallet => exact preserves_cache (le_refl _) rfl fun _ h => List.mem_append_left _ h
    | getToken => exact preserves_cache (le_refl _) rfl fun _ h => h
    | removeWallet => exact absurd hop id
  · exact absurd hop id
  · exact preserves_cache (le_refl _) rfl fun _ h => h

theorem preserves_of_calls {α : Type} {p : Prog JsError Op.Val α} {w w' : World} {r : Except JsError α}
    (hp : p.Calls Harmless) (h : (machine env).Exec p w r w') : Preserves w w' :=
  Machine.Exec.of_calls Preserves hp .refl (fun h h' => h.trans h')
    (fun _ _ w _ _ hop ha => answer_world Preserves (.refl w) (fun _ _ _ he => preserves_effect hop he) ha) h

/-- The answer to a call is given where it takes effect the last time. -/
theorem exec_ok {op : Op} {w w' : World} {v : op.Val} (h : (machine env).Exec (Prog.call op) w (.ok v) w') :
    ∃ d w₁, effect env op d w₁ = some (v, w') := by
  generalize hp : (Prog.call op : Prog JsError Op.Val op.Val) = p at h
  generalize hr : (Except.ok v : Except JsError op.Val) = r at h
  induction h with
  | settled => cases hp
  | answered ha hnext ih =>
      cases hp
      cases hr
      obtain ⟨hr, rfl⟩ := Machine.Exec.settled_inv hnext
      cases hr
      obtain ⟨d, -, he⟩ := answer_ok ha
      exact ⟨d, _, he⟩
  | retried ha hnext ih => exact ih hp hr

/-! ## `createWallet` -/

theorem callCreateWallet_has {body : WalletCreateDto} {v : String × String} {w w' : World}
    (h : (machine env).Exec (MultitenantService.callCreateWallet env body) w (.ok v) w') :
    HasWallet w'.server v.1 := by
  obtain ⟨d, w₁, he⟩ := exec_ok h
  obtain ⟨wallet, -, -, hid, -, rfl⟩ := effect_createWallet he
  exact ⟨wallet, List.mem_append_right _ (List.mem_singleton_self _), hid⟩

/-- A token is fetched for a listed wallet of that name. -/
theorem handleCacheMiss_inv {name key : String} {v : String × String} {w w' : World}
    (h : (machine env).Exec (MultitenantService.handleCacheMiss env name key) w (.ok v) w') :
    ∃ w₁, ∃ wallet ∈ w₁.server.wallets, wallet.name = name ∧ wallet.id = v.1 ∧
      (machine env).Exec (Prog.call (Op.getToken (MultitenantService.target env) wallet.id key)) w₁ (.ok v.2) w' := by
  obtain ⟨r₁, w₁, hall, hrest⟩ := Machine.Exec.bind_inv h
  rcases hrest with ⟨e, -, he, -⟩ | ⟨allWallets, rfl, hrest⟩
  · cases he
  obtain ⟨d, w₂, he⟩ := exec_ok hall
  obtain ⟨rfl, hknown⟩ := effect_getAllWallets he
  split at hrest
  · cases (Machine.Exec.settled_inv hrest).1
  rename_i record hfind
  split at hrest
  · cases (Machine.Exec.settled_inv hrest).1
  obtain ⟨wallet, hwallet, hid, hname⟩ := hknown record (List.mem_of_find?_eq_some hfind)
  have hrecord := List.find?_some hfind
  rw [beq_iff_eq] at hrecord
  rw [← hid] at hrest
  obtain ⟨r₂, w₃, htoken, hrest⟩ := Machine.Exec.bind_inv hrest
  rcases hrest with ⟨e, -, he, -⟩ | ⟨token, rfl, hrest⟩
  · cases he
  obtain ⟨hv, rfl⟩ := Machine.Exec.settled_inv hrest
  cases hv
  exact ⟨w₁, wallet, hwallet, hname.trans hrecord, rfl, htoken⟩

theorem handleCacheMiss_has {name key : String} {v : String × String} {w w' : World}
    (h : (machine env).Exec (MultitenantService.handleCacheMiss env name key) w (.ok v) w') :
    HasWallet w'.server v.1 := by
  obtain ⟨w₁, wallet, -, -, hid, htoken⟩ := handleCacheMiss_inv h
  obtain ⟨d, w₂, he⟩ := exec_ok htoken
  obtain ⟨wallet', hwallet', hid', -, rfl⟩ := effect_getToken he
  exact ⟨wallet', hwallet', hid'.trans hid⟩

/-- Id and token are those of the live entry with that key, or there is no live entry. -/
theorem getTokenAndWalletId_inv {name key : String} {v : String × String} {w w' : World}
    (h : (machine env).Exec (MultitenantService.getTokenAndWalletId env name key) w (.ok v) w') :
    (∃ apiKey ttl, w.lookup name = some (.wallet apiKey v.2 v.1 key ttl) ∧ w' = w) ∨
      (machine env).Exec (MultitenantService.handleCacheMiss env name key) w (.ok v) w' := by
  obtain ⟨r₁, w₁, hget, hrest⟩ := Machine.Exec.bind_inv h
  obtain ⟨rfl, hr₁⟩ := exec_cacheGet hget
  rcases hrest with ⟨e, -, he, -⟩ | ⟨agent, rfl, hrest⟩
  · cases he
  rcases hr₁ with hagent | ⟨e, he⟩
  · cases hagent
    cases hlookup : w₁.lookup name with
    | none =>
        rw [get_of_none hlookup, Lookup.missing] at hrest
        cases hredis : env.redisEnabled <;>
        · rw [hredis] at hrest
          exact .inr hrest
    | some e =>
        rw [get_of_some hlookup] at hrest
        cases e with
        | agent => cases (Machine.Exec.settled_inv hrest).1
        | wallet adminApiKey token walletId walletKey ttl =>
            dsimp only at hrest
            split at hrest
            · rename_i hkey
              obtain ⟨hv, rfl⟩ := Machine.Exec.settled_inv hrest
              cases hv
              exact .inl ⟨adminApiKey, ttl, by rw [hkey], rfl⟩
            · cases (Machine.Exec.settled_inv hrest).1
  · cases he

theorem getTokenAndWalletId_has {name key : String} {v : String × String} {w w' : World} (hw : Current w)
    (h : (machine env).Exec (MultitenantService.getTokenAndWalletId env name key) w (.ok v) w') :
    HasWallet w'.server v.1 := by
  rcases getTokenAndWalletId_inv h with ⟨apiKey, ttl, hlookup, rfl⟩ | hmiss
  · exact hw name _ v.1 hlookup rfl
  · exact handleCacheMiss_has hmiss

theorem createOrFindWallet_harmless (body : WalletCreateDto) :
    (MultitenantService.createOrFindWallet env body).Calls Harmless := by
  refine .tryCatch (.call trivial) fun e => ?_
  split
  · refine .bind (.call trivial) fun agent => ?_
    split
    · split <;> trivial
    · trivial
    · refine .bind (.call trivial) fun allWallets => ?_
      split
      · trivial
      · split
        · trivial
        · exact .bind (.call trivial) fun _ => trivial
  · trivial

theorem createOrFindWallet_inv {body : WalletCreateDto} {v : String × String} {w w' : World}
    (h : (machine env).Exec (MultitenantService.createOrFindWallet env body) w (.ok v) w') :
    (machine env).Exec (MultitenantService.callCreateWallet env body) w (.ok v) w' ∨
      ∃ e w₁, (machine env).Exec (MultitenantService.callCreateWallet env body) w (.error e) w₁ ∧
        (machine env).Exec (MultitenantService.getTokenAndWalletId env body.walletName body.walletKey) w₁ (.ok v)
          w' := by
  obtain ⟨r₁, w₁, hcreate, hrest⟩ := Machine.Exec.andThen_inv h
  cases r₁ with
  | ok v' =>
      obtain ⟨hv, rfl⟩ := Machine.Exec.settled_inv hrest
      cases hv
      exact .inl hcreate
  | error e =>
      dsimp only at hrest
      split at hrest
      · exact .inr ⟨e, w₁, hcreate, hrest⟩
      · cases (Machine.Exec.settled_inv hrest).1

theorem createOrFindWallet_has {body : WalletCreateDto} {v : String × String} {w w' : World} (hw : Current w)
    (h : (machine env).Exec (MultitenantService.createOrFindWallet env body) w (.ok v) w') :
    HasWallet w'.server v.1 := by
  rcases createOrFindWallet_inv h with hcreate | ⟨e, w₁, hcreate, hfind⟩
  · exact callCreateWallet_has hcreate
  · have hharmless : (MultitenantService.callCreateWallet env body).Calls Harmless := .call trivial
    exact getTokenAndWalletId_has (hw.preserve (preserves_of_calls hharmless hcreate)) hfind

theorem Current.set {w : World} (hw : Current w) {entry : CacheEntry}
    (hentry : ∀ walletId, entry.walletId = some walletId → HasWallet w.server walletId) (name : String)
    (ttl : WithTop ℚ) : Current (w.set env name entry ttl) := by
  intro name' e walletId he hid
  by_cases hname : name' = name
  · subst hname
    simp only [World.lookup, World.set, Store.lookup_write_self, Option.ite_none_right_eq_some] at he
    obtain ⟨-, he⟩ := he
    cases he
    exact hentry walletId hid
  · rw [World.lookup, World.set, Store.lookup_congr (Store.write_of_ne _ _ _ hname)] at he
    exact hw name' e walletId he hid

theorem addWalletToCache_inv {name key walletId token : String} {ttl : ℚ} {w w' : World} {r : Except JsError Unit}
    (h : (machine env).Exec (MultitenantService.addWalletToCache env name key walletId token ttl) w r w') :
    w' = w ∨ ∃ ttl', w' = w.set env name (.wallet env.acapyAdminApiKey token walletId key ttl') ttl' := by
  rcases exec_call rfl h with ⟨rfl, -⟩ | ⟨d, v, he, -⟩
  · exact .inl rfl
  · cases d with
    | plain =>
        cases he
        exact .inr ⟨_, rfl⟩
    | _ => cases he

theorem addWalletToCache_current {name key walletId token : String} {ttl : ℚ} {w w' : World} {r : Except JsError Unit}
    (hw : Current w) (hid : HasWallet w.server walletId)
    (h : (machine env).Exec (MultitenantService.addWalletToCache env name key walletId token ttl) w r w') :
    Current w' := by
  rcases addWalletToCache_inv h with rfl | ⟨ttl', rfl⟩
  · exact hw
  · refine hw.set (fun walletId' h => ?_) name ttl'
    cases h
    exact hid

theorem invitationFor_harmless (body : WalletCreateDto) (token : String) :
    (MultitenantService.invitationFor env body token).Calls Harmless := by
  unfold MultitenantService.invitationFor
  split
  · exact .call trivial
  · trivial

theorem createWallet_current {body : WalletCreateDto} {w w' : World} {r : Except JsError MultitenantService.WalletReply}
    (hw : Current w) (h : (machine env).Exec (MultitenantService.createWallet env body) w r w') : Current w' := by
  obtain ⟨r₁, w₁, hfind, hrest⟩ := Machine.Exec.bind_inv h
  have hcurrent := hw.preserve (preserves_of_calls (createOrFindWallet_harmless body) hfind)
  rcases hrest with ⟨e, -, -, rfl⟩ | ⟨idAndToken, rfl, hrest⟩
  · exact hcurrent
  obtain ⟨r₂, w₂, hset, hrest⟩ := Machine.Exec.bind_inv hrest
  have hset := addWalletToCache_current hcurrent (createOrFindWallet_has hw hfind) hset
  rcases hrest with ⟨e, -, -, rfl⟩ | ⟨_, -, hrest⟩
  · exact hset
  refine hset.preserve (preserves_of_calls ?_ hrest)
  exact .bind (invitationFor_harmless body _) fun _ => trivial

/-! ## `removeWallet` -/

theorem unregister_unregister (w : World) (walletId : String) :
    (w.unregister walletId).unregister walletId = w.unregister walletId := by
  simp [World.unregister, List.filter_filter]

/-- The world, or the world without the wallet, if there is an id. -/
def Unregisters (walletId : Option String) (w w' : World) : Prop :=
  w' = w ∨ ∃ id, walletId = some id ∧ w' = w.unregister id

theorem Unregisters.trans {walletId : Option String} {w₁ w₂ w₃ : World} (h : Unregisters walletId w₁ w₂)
    (h' : Unregisters walletId w₂ w₃) : Unregisters walletId w₁ w₃ := by
  rcases h with rfl | ⟨id, hid, rfl⟩
  · exact h'
  · rcases h' with rfl | ⟨id', hid', rfl⟩
    · exact .inr ⟨id, hid, rfl⟩
    · rw [hid] at hid'
      cases hid'
      exact .inr ⟨id, hid, unregister_unregister w₁ id⟩

theorem unregisters_effect {target : AdminTarget} {walletId : Option String} {key : String} {d : Detail}
    {w w' : World} {v} (h : effect env (.removeWallet target walletId key) d w = some (v, w')) :
    Unregisters walletId w w' := by
  rcases effect_cases h with rfl | ⟨hop, -⟩ | ⟨_, _, _, hop, -⟩ | ⟨_, hop, -⟩ | hserver | ⟨_, _, hop, -⟩ |
    ⟨_, _, hop, -⟩
  · exact .inl rfl
  · exact absurd hop id
  · cases hop
  · cases hop
  · cases hserver
    exact .inr ⟨_, rfl, rfl⟩
  · cases hop
  · cases hop

theorem callRemoveWallet_cases {target : AdminTarget} {walletId : Option String} {key : String} {w w' : World}
    {r : Except JsError (Option Json)}
    (h : (machine env).Exec (Prog.call (Op.removeWallet target walletId key)) w r w') : Unregisters walletId w w' := by
  refine Machine.Exec.of_calls (Unregisters walletId) (.call rfl) (fun _ => .inl rfl) (fun h h' => h.trans h') ?_ h
  rintro op ch w a w' rfl ha
  exact answer_world (Unregisters walletId) (.inl rfl) (fun _ _ _ he => unregisters_effect he) ha

/-- A removal changes nothing, or the server loses the wallet of the live entry, and the entry stays. -/
theorem removeWallet_cases {name key : String} {w w' : World} {r : Except JsError (Option Json)}
    (h : (machine env).Exec (MultitenantService.removeWallet env name key) w r w') :
    w' = w ∨ ∃ e walletId, w.lookup name = some e ∧ e.walletId = some walletId ∧ w' = w.unregister walletId := by
  obtain ⟨r₁, w₁, hget, hrest⟩ := Machine.Exec.bind_inv h
  obtain ⟨rfl, hr₁⟩ := exec_cacheGet hget
  rcases hrest with ⟨e, -, -, rfl⟩ | ⟨agent, rfl, hrest⟩
  · exact .inl rfl
  rcases hr₁ with hagent | ⟨e, he⟩
  · cases hagent
    cases hlookup : w₁.lookup name with
    | none =>
        rw [get_of_none hlookup, Lookup.missing] at hrest
        cases hredis : env.redisEnabled <;>
        · rw [hredis] at hrest
          exact .inl (Machine.Exec.settled_inv hrest).2
    | some e =>
        rw [get_of_some hlookup] at hrest
        rcases callRemoveWallet_cases hrest with rfl | ⟨walletId, hid, rfl⟩
        · exact .inl rfl
        · exact .inr ⟨e, walletId, rfl, hid, rfl⟩
  · cases he

theorem not_hasWallet_unregister (w : World) (walletId : String) :
    ¬HasWallet (w.unregister walletId).server walletId := by
  rintro ⟨wallet, hwallet, hid⟩
  have hne := List.of_mem_filter hwallet
  simp [hid] at hne

/-! ## Turns -/

/-- The turn of a call that makes use of wallets, or of time and the cache. -/
def ofWallets : Turn JsError Call Event Reply → Bool
  | .call (.createWallet _) _ | .call (.removeWallet _ _) _ | .call (.handleRequest _ _ _ _) _ => true
  | .env (.pass _) | .env (.evict _) => true
  | _ => false

/-- A removal that finds a live entry of a wallet that the server has, and that the server carries out. -/
def Removes (m : Moment JsError World Call Event Reply) : Prop :=
  ∃ name key r e walletId, m.turn = .call (.removeWallet name key) r ∧ m.before.lookup name = some e ∧
    e.walletId = some walletId ∧ HasWallet m.before.server walletId ∧ ¬HasWallet m.after.server walletId

/-- What the body of a call does before its reply is wrapped. -/
theorem exec_reply {α : Type} {p : Prog JsError Op.Val α} {f : α → Reply} {w w' : World} {r : Except JsError Reply}
    (h : (machine env).Exec (p >>= fun a => pure (f a)) w r w') : ∃ r', (machine env).Exec p w r' w' := by
  obtain ⟨r₁, w₁, hp, hrest⟩ := Machine.Exec.bind_inv h
  rcases hrest with ⟨e, -, -, rfl⟩ | ⟨a, -, hrest⟩
  · exact ⟨r₁, hp⟩
  · obtain ⟨-, rfl⟩ := Machine.Exec.settled_inv hrest
    exact ⟨r₁, hp⟩

theorem handleRequest_harmless (agentId route topic : String) (body : Json) :
    (AgentControllerService.handleRequest env agentId route topic body).Calls Harmless :=
  .bind (.call trivial) fun _ => .bind trivial fun _ => .bind trivial fun _ => .call trivial

theorem current_takes {turn : Turn JsError Call Event Reply} (hturn : ofWallets turn = true) {w w' : World}
    (hremoves : ¬Removes { turn, before := w, after := w' }) (hw : Current w) (h : (system env).Takes turn w w') :
    Current w' := by
  cases h with
  | @env e w w₁ ks w' hevent hserial =>
      cases e with
      | fire t => cases hturn
      | pass ms =>
          obtain ⟨hms, he⟩ := Option.ite_none_right_eq_some.mp hevent
          cases he
          cases hserial
          exact hw.preserve (preserves_cache (le_add_of_nonneg_right hms) rfl fun _ h => h)
      | evict key =>
          cases hevent
          cases hserial
          exact hw.preserve (preserves_del w key)
  | @call k r w w' hbody =>
      cases k with
      | createWallet body =>
          obtain ⟨r', hcreate⟩ := exec_reply hbody
          exact createWallet_current hw hcreate
      | removeWallet name key =>
          obtain ⟨r', hremove⟩ := exec_reply hbody
          rcases removeWallet_cases hremove with rfl | ⟨e, walletId, he, hid, rfl⟩
          · exact hw
          · have hgone := not_hasWallet_unregister w walletId
            exact absurd ⟨name, key, r, e, walletId, rfl, he, hid, hw name e walletId he hid, hgone⟩ hremoves
      | handleRequest agentId route topic body =>
          obtain ⟨r', hrequest⟩ := exec_reply hbody
          exact hw.preserve (preserves_of_calls (handleRequest_harmless agentId route topic body) hrequest)
      | _ => cases hturn

theorem not_current_of_removes {m : Moment JsError World Call Event Reply}
    (h : (system env).Takes m.turn m.before m.after) (hremoves : Removes m) : ¬Current m.after := by
  obtain ⟨name, key, r, e, walletId, hturn, he, hid, -, hgone⟩ := hremoves
  rw [hturn] at h
  intro hcurrent
  cases h with
  | call hbody =>
      obtain ⟨r', hremove⟩ := exec_reply hbody
      have he' : m.after.lookup name = some e := by
        rcases removeWallet_cases hremove with hw | ⟨_, _, -, -, hw⟩
        · rw [hw]
          exact he
        · rw [hw]
          exact he
      exact hgone (hcurrent name e walletId he' hid)

end GuardianshipAgency.Lifecycle
