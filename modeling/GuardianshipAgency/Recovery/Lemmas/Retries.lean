import GuardianshipAgency.Agency.Lemmas.Wallets
import GuardianshipAgency.Lifecycle.Lemmas.Removals

/-!
# Calls of `createWallet` that are made again

Wherever a `createWallet` fails, the wallet of that name and its cache entry are such that another call succeeds.
-/

namespace GuardianshipAgency.Recovery

open Js Async Expiring Agency Lifecycle

variable {env : Env} {body : WalletCreateDto} {w w' : World}

/-! ## Wallets by name -/

/-- A server whose wallets have different names. -/
structure Sound (s : Server) : Prop extends s.Ok where
  names : (s.wallets.map (·.name)).Nodup

/-- Id and token are those of the wallet of that name. -/
def Holds (s : Server) (name walletId token : String) : Prop :=
  ∃ wallet ∈ s.wallets, wallet.name = name ∧ wallet.id = walletId ∧ (token, wallet) ∈ s.issued

/-- The wallet of that name keeps its place and its tokens. -/
structure Keeps (name : String) (s s' : Server) : Prop where
  wallets : ∀ wallet, wallet.name = name → wallet ∈ s.wallets → wallet ∈ s'.wallets
  issued : ∀ token wallet, wallet.name = name → wallet ∈ s.wallets → (token, wallet) ∈ s.issued →
    (token, wallet) ∈ s'.issued

theorem Holds.keep {s s' : Server} {name walletId token : String} (h : Holds s name walletId token)
    (hs : Keeps name s s') : Holds s' name walletId token := by
  obtain ⟨wallet, hwallet, hname, hid, hissued⟩ := h
  exact ⟨wallet, hs.wallets wallet hname hwallet, hname, hid, hs.issued token wallet hname hwallet hissued⟩

/-- If there is a wallet of that name, it has the caller's key. If there is a live entry, it is an entry of that
wallet. -/
structure Ready (body : WalletCreateDto) (w : World) : Prop where
  server : Sound w.server
  keys : ∀ wallet ∈ w.server.wallets, wallet.name = body.walletName → wallet.key = body.walletKey
  entry : ∀ e, w.lookup body.walletName = some e → ∃ apiKey token walletId ttl,
    e = .wallet apiKey token walletId body.walletKey ttl ∧ Holds w.server body.walletName walletId token

/-- Nobody else uses the name: its wallet and the tokens of that are still there, and so is its entry unless it has
expired. -/
structure Undisturbed (name : String) (w w' : World) : Prop where
  server : Sound w'.server
  keeps : Keeps name w.server w'.server
  wallets : ∀ wallet ∈ w'.server.wallets, wallet.name = name → wallet ∈ w.server.wallets
  entry : ∀ e, w'.lookup name = some e → w.lookup name = some e

theorem Ready.undisturbed (hw : Ready body w) (h : Undisturbed body.walletName w w') : Ready body w' where
  server := h.server
  keys wallet hwallet hname := hw.keys wallet (h.wallets wallet hwallet hname) hname
  entry e he := by
    obtain ⟨apiKey, token, walletId, ttl, rfl, hholds⟩ := hw.entry e (h.entry e he)
    exact ⟨apiKey, token, walletId, ttl, rfl, hholds.keep h.keeps⟩

/-! ## Single steps -/

theorem sound_effect {op : Op} {d : Detail} {v} (hw : Sound w.server) (h : effect env op d w = some (v, w')) :
    Sound w'.server := by
  refine { (server_effect hw.toOk h).1 with names := ?_ }
  rcases effect_server h with he | hserver
  · rw [he]
    exact hw.names
  cases hserver with
  | createWallet hname _ _ =>
      simp only [World.register, List.map_append, List.map_cons, List.map_nil]
      refine List.nodup_append.mpr ⟨hw.names, List.nodup_singleton _, ?_⟩
      simpa [List.any_eq_false] using hname
  | getToken => exact hw.names
  | removeWallet => exact hw.names.sublist (List.filter_sublist.map _)

theorem keeps_effect {op : Op} (hop : ∀ target walletId key, op ≠ .removeWallet target walletId key) (name : String)
    {d : Detail} {v} (hw : Sound w.server) (h : effect env op d w = some (v, w')) : Keeps name w.server w'.server where
  wallets wallet _ hwallet := by
    rcases effect_server h with he | hserver
    · rw [he]
      exact hwallet
    cases hserver with
    | createWallet => exact List.mem_append_left _ hwallet
    | getToken => exact hwallet
    | removeWallet => exact absurd rfl (hop _ _ _)
  issued _ _ _ _ hissued := (server_effect hw.toOk h).2.issued hissued

/-- A call of `createWallet` that does not write to the cache. -/
def Looks (env : Env) (body : WalletCreateDto) (op : Op) : Prop := CreateWalletOp env body op ∧ Harmless op

theorem Looks.not_removes {op : Op} (hop : Looks env body op) (target : AdminTarget) (walletId : Option String)
    (key : String) : op ≠ .removeWallet target walletId key := by
  rintro rfl
  exact hop.1

theorem Looks.lookup {op : Op} (hop : Looks env body op) {d : Detail} {v}
    (h : effect env op d w = some (v, w')) : w'.lookup = w.lookup := by
  rcases effect_cases h with rfl | ⟨-, hw⟩ | ⟨_, _, _, rfl, -⟩ | ⟨_, rfl, -⟩ | hserver | ⟨_, _, rfl, -⟩ | ⟨_, _, rfl, -⟩
  · rfl
  · rw [hw]
    rfl
  · exact absurd hop.2 id
  · exact absurd hop.1 id
  · rw [hserver.frame]
    rfl
  · exact absurd hop.1 id
  · exact absurd hop.1 id

theorem Ready.effect {op : Op} (hop : Looks env body op) {d : Detail} {v} (hw : Ready body w)
    (h : effect env op d w = some (v, w')) : Ready body w' where
  server := sound_effect hw.server h
  keys wallet hwallet hname := by
    rcases effect_server h with he | hserver
    · rw [he] at hwallet
      exact hw.keys wallet hwallet hname
    cases hserver with
    | createWallet =>
        rcases List.mem_append.mp hwallet with hwallet | hwallet
        · exact hw.keys wallet hwallet hname
        · rw [List.mem_singleton] at hwallet
          subst hwallet
          exact hop.1.2
    | getToken => exact hw.keys wallet hwallet hname
    | removeWallet => exact absurd hop.1 id
  entry e he := by
    rw [hop.lookup h] at he
    obtain ⟨apiKey, token, walletId, ttl, rfl, hholds⟩ := hw.entry e he
    exact ⟨apiKey, token, walletId, ttl, rfl, hholds.keep (keeps_effect hop.not_removes _ hw.server h)⟩

theorem Ready.exec {α : Type} {p : Prog JsError Op.Val α} {r : Except JsError α} (hp : p.Calls (Looks env body))
    (hw : Ready body w) (h : (machine env).Exec p w r w') : Ready body w' :=
  Machine.Exec.of_calls (fun w w' => Ready body w → Ready body w') hp (fun _ hw => hw) (fun h h' hw => h' (h hw))
    (fun _ _ _ _ _ hop ha hw => answer_world (fun _ w' => Ready body w') hw (fun _ _ _ he => hw.effect hop he) ha) h hw

theorem Ready.set {apiKey token walletId : String} {ttl ttl' : WithTop ℚ} (hw : Ready body w)
    (hholds : Holds w.server body.walletName walletId token) :
    Ready body (w.set env body.walletName (.wallet apiKey token walletId body.walletKey ttl) ttl') where
  server := hw.server
  keys := hw.keys
  entry e he := by
    simp only [World.lookup, World.set, Store.lookup_write_self, Option.ite_none_right_eq_some] at he
    obtain ⟨-, he⟩ := he
    cases he
    exact ⟨apiKey, token, walletId, ttl, rfl, hholds⟩

/-! ## The first call -/

theorem createOrFindWallet_looks (body : WalletCreateDto) :
    (MultitenantService.createOrFindWallet env body).Calls (Looks env body) :=
  Prog.Calls.and (MultitenantService.createOrFindWallet_calls env body) (createOrFindWallet_harmless body)

theorem invitationFor_looks (body : WalletCreateDto) (token : String) :
    (MultitenantService.invitationFor env body token).Calls (Looks env body) :=
  Prog.Calls.and (MultitenantService.invitationFor_calls env body token) (invitationFor_harmless body token)

theorem callCreateWallet_looks (body : WalletCreateDto) :
    (MultitenantService.callCreateWallet env body).Calls (Looks env body) := .call ⟨⟨rfl, rfl⟩, trivial⟩

theorem effect_createWallet_holds {target : AdminTarget} {data : WalletData} {d : Detail} {v : String × String}
    (he : effect env (.createWallet target data) d w = some (v, w')) : Holds w'.server data.walletName v.1 v.2 := by
  obtain ⟨wallet, hname, -, hid, -, rfl⟩ := effect_createWallet he
  exact ⟨wallet, List.mem_append_right _ (List.mem_singleton_self _), hname, hid,
    List.mem_append_right _ (List.mem_singleton_self _)⟩

/-- Ids are unique, so that the token is issued for the wallet of that name. -/
theorem effect_getToken_holds {target : AdminTarget} {walletKey : String} {d : Detail} {v : String} {wallet : Wallet}
    (hok : w'.server.Ok) (hwallet : wallet ∈ w'.server.wallets) (hname : wallet.name = body.walletName)
    (he : effect env (.getToken target wallet.id walletKey) d w = some (v, w')) :
    Holds w'.server body.walletName wallet.id v := by
  obtain ⟨wallet', hwallet', hid, -, rfl⟩ := effect_getToken he
  obtain rfl := hok.ids _ (hok.known hwallet') _ (hok.known hwallet) hid
  exact ⟨wallet', hwallet, hname, rfl, List.mem_append_right _ (List.mem_singleton_self _)⟩

theorem handleCacheMiss_holds {v : String × String} (hw' : Ready body w')
    (h : (machine env).Exec (MultitenantService.handleCacheMiss env body.walletName body.walletKey) w (.ok v) w') :
    Holds w'.server body.walletName v.1 v.2 := by
  obtain ⟨w₁, wallet, hwallet, hname, hid, htoken⟩ := handleCacheMiss_inv h
  have hharmless : (Prog.call (Op.getToken (MultitenantService.target env) wallet.id body.walletKey) :
      Prog JsError Op.Val _).Calls Harmless := .call trivial
  have hwallet' := (preserves_of_calls hharmless htoken).wallets wallet hwallet
  obtain ⟨d, w₂, he⟩ := exec_ok htoken
  rw [← hid]
  exact effect_getToken_holds hw'.server.toOk hwallet' hname he

theorem getTokenAndWalletId_holds {v : String × String} (hw : Ready body w) (hw' : Ready body w')
    (h : (machine env).Exec (MultitenantService.getTokenAndWalletId env body.walletName body.walletKey) w (.ok v) w') :
    Holds w'.server body.walletName v.1 v.2 := by
  rcases getTokenAndWalletId_inv h with ⟨apiKey, ttl, hlookup, rfl⟩ | hmiss
  · obtain ⟨_, _, _, _, he, hholds⟩ := hw.entry _ hlookup
    cases he
    exact hholds
  · exact handleCacheMiss_holds hw' hmiss

theorem createOrFindWallet_holds {v : String × String} (hw : Ready body w) (hw' : Ready body w')
    (h : (machine env).Exec (MultitenantService.createOrFindWallet env body) w (.ok v) w') :
    Holds w'.server body.walletName v.1 v.2 := by
  rcases createOrFindWallet_inv h with hcreate | ⟨e, w₁, hcreate, hfind⟩
  · obtain ⟨d, w₁, he⟩ := exec_ok hcreate
    exact effect_createWallet_holds he
  · exact getTokenAndWalletId_holds (hw.exec (callCreateWallet_looks body) hcreate) hw' hfind

/-- However a `createWallet` ends, another one can be made. -/
theorem createWallet_ready {r : Except JsError MultitenantService.WalletReply} (hw : Ready body w)
    (h : (machine env).Exec (MultitenantService.createWallet env body) w r w') : Ready body w' := by
  obtain ⟨r₁, w₁, hfind, hrest⟩ := Machine.Exec.bind_inv h
  have hw₁ := hw.exec (createOrFindWallet_looks body) hfind
  rcases hrest with ⟨e, -, -, rfl⟩ | ⟨idAndToken, rfl, hrest⟩
  · exact hw₁
  obtain ⟨r₂, w₂, hset, hrest⟩ := Machine.Exec.bind_inv hrest
  have hw₂ : Ready body w₂ := by
    rcases addWalletToCache_inv hset with rfl | ⟨ttl, rfl⟩
    · exact hw₁
    · exact hw₁.set (createOrFindWallet_holds hw hw₁ hfind)
  rcases hrest with ⟨e, -, -, rfl⟩ | ⟨_, -, hrest⟩
  · exact hw₂
  · refine hw₂.exec ?_ hrest
    exact .bind (invitationFor_looks body _) fun _ => trivial

end GuardianshipAgency.Recovery
