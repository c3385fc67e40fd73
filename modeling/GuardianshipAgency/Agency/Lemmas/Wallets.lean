import GuardianshipAgency.Agency.Lemmas.Calls
import GuardianshipAgency.Agency.Lemmas.Steps
import GuardianshipAgency.Async.Lemmas.Pool

/-!
# Wallets, tokens and their cache entries

Every cached wallet entry names a wallet that was registered under the key of the entry, with the wallet's own key
and a token issued for it.
-/

namespace GuardianshipAgency.Agency

open Js Async Expiring

variable {env : Env}

/-! ## The server -/

structure Server.Hands (s : Server) (name key id token : String) (wallet : Wallet) : Prop where
  registered : wallet ∈ s.registered
  name : wallet.name = name
  key : wallet.key = key
  id : wallet.id = id
  issued : (token, wallet) ∈ s.issued

structure Server.Ok (s : Server) : Prop where
  known : s.wallets ⊆ s.registered
  ids : ∀ x ∈ s.registered, ∀ y ∈ s.registered, x.id = y.id → x = y
  tokens : ∀ token x, (token, x) ∈ s.issued → ∀ y, (token, y) ∈ s.issued → x = y

/-- Nothing is forgotten, and a removed wallet does not come back. -/
structure Server.Later (s s' : Server) : Prop where
  registered : s.registered ⊆ s'.registered
  issued : s.issued ⊆ s'.issued
  current : ∀ x ∈ s'.wallets, x ∈ s.wallets ∨ x ∉ s.registered

theorem Server.Later.refl (s : Server) : s.Later s :=
  ⟨fun _ h => h, fun _ h => h, fun _ h => .inl h⟩

theorem Server.Later.trans {s₁ s₂ s₃ : Server} (h : s₁.Later s₂) (h' : s₂.Later s₃) : s₁.Later s₃ where
  registered := fun _ hx => h'.registered (h.registered hx)
  issued := fun _ hx => h'.issued (h.issued hx)
  current x hx := by
    rcases h'.current x hx with hx | hx
    · exact h.current x hx
    · exact .inr fun hx' => hx (h.registered hx')

theorem Server.Hands.later {s s' : Server} {name key id token : String} {wallet : Wallet}
    (h : s.Hands name key id token wallet) (hs : s.Later s') : s'.Hands name key id token wallet :=
  { h with registered := hs.registered h.registered, issued := hs.issued h.issued }

theorem server_effect {op : Op} {d : Detail} {w w' : World} {v} (hw : w.server.Ok)
    (h : effect env op d w = some (v, w')) : w'.server.Ok ∧ w.server.Later w'.server := by
  rcases effect_server h with he | hserver
  · rw [he]
    exact ⟨hw, .refl _⟩
  cases hserver with
  | @createWallet _ data id token _ hname hid htoken =>
      have hnew : ∀ x ∈ w.server.registered, x.id ≠ id := by simpa using hid
      have hfresh : ∀ x, (token, x) ∉ w.server.issued := fun x hx => by
        simp only [List.any_eq_false, beq_iff_eq] at htoken
        exact htoken _ hx rfl
      refine ⟨⟨fun x hx => ?_, fun x hx y hy hxy => ?_, fun t x hx y hy => ?_⟩, ⟨?_, ?_, fun x hx => ?_⟩⟩
      · rcases List.mem_append.mp hx with hx | hx
        · exact List.mem_append_left _ (hw.known hx)
        · exact List.mem_append_right _ hx
      · simp only [World.register, List.mem_append, List.mem_singleton] at hx hy
        rcases hx with hx | rfl <;> rcases hy with hy | rfl
        · exact hw.ids x hx y hy hxy
        · exact absurd hxy (hnew x hx)
        · exact absurd hxy.symm (hnew y hy)
        · rfl
      · simp only [World.register, List.mem_append, List.mem_singleton, Prod.mk.injEq] at hx hy
        rcases hx with hx | ⟨rfl, rfl⟩ <;> rcases hy with hy | ⟨hty, rfl⟩
        · exact hw.tokens t x hx y hy
        · exact absurd hx (hty ▸ hfresh x)
        · exact absurd hy (hfresh y)
        · rfl
      · exact List.subset_append_left _ _
      · exact List.subset_append_left _ _
      · simp only [World.register, List.mem_append, List.mem_singleton] at hx
        rcases hx with hx | rfl
        · exact .inl hx
        · exact .inr fun hx => hnew _ hx rfl
  | @getToken _ _ _ token wallet _ hwallet hid hkey htoken =>
      refine ⟨⟨hw.known, hw.ids, fun t x hx y hy => ?_⟩,
        ⟨fun _ h => h, List.subset_append_left _ _, fun _ h => .inl h⟩⟩
      simp only [World.issue, List.mem_append, List.mem_singleton, Prod.mk.injEq] at hx hy
      rcases hx with hx | ⟨rfl, rfl⟩ <;> rcases hy with hy | ⟨hty, rfl⟩
      · exact hw.tokens t x hx y hy
      · exact htoken x (hty ▸ hx)
      · exact (htoken y hy).symm
      · rfl
  | removeWallet =>
      exact ⟨⟨fun x hx => hw.known (List.mem_filter.mp hx).1, hw.ids, hw.tokens⟩,
        ⟨fun _ h => h, fun _ h => h, fun x hx => .inl (List.mem_filter.mp hx).1⟩⟩

/-! ## The cache -/

def EntryOk (s : Server) (key : String) : CacheEntry → Prop
  | .agent _ _ _ => True
  | .wallet _ token walletId walletKey _ => ∃ wallet, s.Hands key walletKey walletId token wallet

theorem EntryOk.later {s s' : Server} {key : String} {entry : CacheEntry} (h : EntryOk s key entry)
    (hs : s.Later s') : EntryOk s' key entry := by
  cases entry with
  | agent _ _ _ => trivial
  | wallet _ token walletId walletKey _ =>
      obtain ⟨wallet, hwallet⟩ := h
      exact ⟨wallet, hwallet.later hs⟩

structure WalletInv (w : World) : Prop where
  server : w.server.Ok
  cache : w.cache.Forall (EntryOk w.server)

def walletRely : Rely World where
  inv := WalletInv
  rel w w' := w.server.Later w'.server
  refl _ := .refl _
  trans h h' := h.trans h'

theorem walletInv_answer {op : Op} {ch : Choice} {w w' : World} {a} (hw : WalletInv w)
    (hset : ∀ key entry ttl, op = .cacheSet key entry ttl → EntryOk w.server key entry)
    (h : answer env op ch w = some (a, w')) : WalletInv w' ∧ w.server.Later w'.server := by
  refine answer_world (fun w w' => WalletInv w' ∧ w.server.Later w'.server) ⟨hw, .refl _⟩ ?_ h
  intro d v w' he
  obtain ⟨hok, hlater⟩ := server_effect hw.server he
  refine ⟨⟨hok, ?_⟩, hlater⟩
  have hcache := hw.cache.mono fun key entry hentry => hentry.later hlater
  rcases effect_cache he with hc | ⟨key, entry, ttl, hop, rfl⟩ | ⟨key, -, rfl⟩
  · rw [hc]
    exact hcache
  · exact hcache.write (hset key entry ttl hop) _
  · exact hcache.erase key

/-! ## `createWallet` -/

/-- The wallet was on the server at some moment since `s`: it is there in `s`, or was registered later. -/
def Wallet.Since (s : Server) (wallet : Wallet) : Prop := wallet ∈ s.wallets ∨ wallet ∉ s.registered

/-- Wallet id and token belong to a wallet registered as `body` says; where `strict` holds, it was on the server at
some moment since `began`. -/
def Owned (strict : Prop) (began : World) (body : WalletCreateDto) (s : Server) (walletId token : String) :
    Prop :=
  ∃ wallet, s.Hands body.walletName body.walletKey walletId token wallet ∧
    (strict → wallet.Since began.server)

theorem Owned.later {strict : Prop} {began : World} {body : WalletCreateDto} {s s' : Server}
    {walletId token : String} (h : Owned strict began body s walletId token) (hs : s.Later s') :
    Owned strict began body s' walletId token := by
  obtain ⟨wallet, hwallet, hsince⟩ := h
  exact ⟨wallet, hwallet.later hs, hsince⟩

/-- The cache answers with a live entry that has the caller's key, and a wallet with the id of that entry had been
removed before the call began. -/
def FindsRemoved (began : World) (body : WalletCreateDto) (now : World) (op : Op) (ch : Choice) : Prop :=
  op = .cacheGet body.walletName ∧ ch = .done .plain .answered ∧
    ∃ apiKey token walletId ttl wallet,
      now.lookup body.walletName = some (.wallet apiKey token walletId body.walletKey ttl) ∧
        wallet ∈ now.server.registered ∧ wallet.id = walletId ∧ ¬wallet.Since began.server

def createWalletTerms (strict : Prop) (body : WalletCreateDto) (began : World) : Terms World Op Choice where
  guard _ now op :=
    (∀ key entry ttl, op = .cacheSet key entry ttl → key = body.walletName ∧
      ∃ apiKey token walletId ttl', entry = .wallet apiKey token walletId body.walletKey ttl' ∧
        Owned strict began body now.server walletId token) ∧
    ∀ target token, op = .createInvitation target → target.token = some token →
      ∃ walletId, Owned strict began body now.server walletId token
  assume _ now op ch := strict → ¬FindsRemoved began body now op ch

section CreateWallet

variable {strict : Prop} {body : WalletCreateDto} {began w : World}

/-- What a request finds out, provided that the answers bear it out. -/
theorem createWallet_request {op : Op} {Q : Except JsError op.Val → World → Prop}
    (hset : ∀ key entry ttl, op ≠ .cacheSet key entry ttl) (hinvite : ∀ target, op ≠ .createInvitation target)
    (herror : ∀ e w', Q (.error e) w')
    (hQ : ∀ ch v w₁ w₂, WalletInv w₁ → w.server.Later w₁.server →
      (createWalletTerms strict body began).assume w w₁ op ch →
      answer env op ch w₁ = some (some (.ok v), w₂) → w₁.server.Later w₂.server →
      ∀ w₃, w₂.server.Later w₃.server → Q (.ok v) w₃) :
    (machine env).Ensures walletRely (createWalletTerms strict body began) (Prog.call op) Q w := by
  apply Machine.Ensures.call
  intro w₁ hrel hinv
  refine ⟨⟨fun key entry ttl he => absurd he (hset key entry ttl),
    fun target token he => absurd he (hinvite target)⟩, fun ch a w₂ hassume ha => ?_⟩
  have hw₂ := walletInv_answer hinv (fun key entry ttl he => absurd he (hset key entry ttl)) ha
  refine ⟨hw₂, fun r hr w₃ hw₃ _ => ?_⟩
  cases r with
  | error e => exact herror e w₃
  | ok v => exact hQ ch v w₁ w₂ hinv hrel hassume (hr ▸ ha) hw₂.2 w₃ hw₃

theorem callCreateWallet_owned (hbegan : began.server.Later w.server) :
    (machine env).Ensures walletRely (createWalletTerms strict body began)
      (MultitenantService.callCreateWallet env body)
      (fun r w' => ∀ p, r = .ok p → Owned strict began body w'.server p.1 p.2) w := by
  apply createWallet_request (fun _ _ _ he => by cases he) (fun _ he => by cases he) (fun _ _ _ hp => by cases hp)
  intro ch v w₁ w₂ hinv hw₁ _ ha _ w₃ hw₃ p hp
  cases hp
  obtain ⟨d, -, he⟩ := answer_ok ha
  obtain ⟨wallet, hname, hkey, hid, hnew, rfl⟩ := effect_createWallet he
  have hands : (w₁.register wallet v.2).server.Hands body.walletName body.walletKey v.1 v.2 wallet :=
    { registered := by simp [World.register]
      name := hname
      key := hkey
      id := hid
      issued := by simp [World.register] }
  refine ⟨wallet, hands.later hw₃, fun _ => .inr fun hbefore => ?_⟩
  exact hnew wallet (hw₁.registered (hbegan.registered hbefore)) rfl

theorem cacheGet_owned :
    (machine env).Ensures walletRely (createWalletTerms strict body began) (Prog.call (.cacheGet body.walletName))
      (fun r w' => ∀ apiKey token walletId ttl, r = .ok (Lookup.entry (.wallet apiKey token walletId body.walletKey ttl)) →
        Owned strict began body w'.server walletId token) w := by
  apply createWallet_request (fun _ _ _ he => by cases he) (fun _ he => by cases he)
    (fun _ _ _ _ _ _ hp => by cases hp)
  intro ch v w₁ w₂ hinv hw₁ hassume ha _ w₃ hw₃ apiKey token walletId ttl hv
  obtain ⟨d, hch, he⟩ := answer_ok ha
  obtain ⟨rfl, rfl, rfl⟩ := effect_cacheGet he
  cases hlookup : w₂.lookup body.walletName with
  | none =>
      simp only [World.get, hlookup, Lookup.missing] at hv
      split at hv <;> cases hv
  | some entry =>
      simp only [World.get, hlookup, Except.ok.injEq, Lookup.entry.injEq] at hv
      subst hv
      obtain ⟨wallet, hwallet⟩ := hinv.cache.lookup hlookup
      refine ⟨wallet, hwallet.later hw₃, fun hstrict => ?_⟩
      by_contra hsince
      exact hassume hstrict ⟨rfl, hch, apiKey, token, walletId, ttl, wallet, hlookup, hwallet.registered,
        hwallet.id, hsince⟩

theorem getAllWallets_known (hbegan : began.server.Later w.server) :
    (machine env).Ensures walletRely (createWalletTerms strict body began)
      (Prog.call (.getAllWallets (MultitenantService.target env)))
      (fun r w' => ∀ records : List WalletRecord, r = .ok records → ∀ record ∈ records,
        ∃ wallet ∈ w'.server.registered, wallet.id = record.walletId ∧ wallet.name = record.walletName ∧
          wallet.Since began.server) w := by
  apply createWallet_request (fun _ _ _ he => by cases he) (fun _ he => by cases he) (fun _ _ _ hp => by cases hp)
  intro ch v w₁ w₂ hinv hw₁ _ ha _ w₃ hw₃ records hp record hrecord
  cases hp
  obtain ⟨d, -, he⟩ := answer_ok ha
  obtain ⟨rfl, hall⟩ := effect_getAllWallets he
  obtain ⟨wallet, hwallet, hid, hname⟩ := hall record hrecord
  exact ⟨wallet, hw₃.registered (hinv.server.known hwallet), hid, hname,
    (hbegan.trans hw₁).current wallet hwallet⟩

theorem getToken_owned {wallet : Wallet} (hwallet : wallet ∈ w.server.registered)
    (hname : wallet.name = body.walletName) (hsince : wallet.Since began.server) :
    (machine env).Ensures walletRely (createWalletTerms strict body began)
      (Prog.call (.getToken (MultitenantService.target env) wallet.id body.walletKey))
      (fun r w' => ∀ token, r = .ok token → Owned strict began body w'.server wallet.id token) w := by
  apply createWallet_request (fun _ _ _ he => by cases he) (fun _ he => by cases he) (fun _ _ _ hp => by cases hp)
  intro ch v w₁ w₂ hinv hw₁ _ ha _ w₃ hw₃ token hp
  cases hp
  obtain ⟨d, -, he⟩ := answer_ok ha
  obtain ⟨wallet', hwallet', hid, hkey, rfl⟩ := effect_getToken he
  -- ids are unique, so that the key is checked against the key of the listed wallet
  have heq : wallet' = wallet :=
    hinv.server.ids _ (hinv.server.known hwallet') _ (hw₁.registered hwallet) hid
  subst heq
  have hands : (w₁.issue wallet' v).server.Hands body.walletName body.walletKey wallet'.id v wallet' :=
    { registered := hinv.server.known hwallet'
      name := hname
      key := hkey
      id := rfl
      issued := by simp [World.issue] }
  exact ⟨wallet', hands.later hw₃, fun _ => hsince⟩

/-! ### Where id and token come from -/

theorem error_owned {e : JsError} :
    (machine env).Ensures walletRely (createWalletTerms strict body began)
      (.settled (.error e) : Prog JsError Op.Val (String × String))
      (fun r w' => ∀ p, r = .ok p → Owned strict began body w'.server p.1 p.2) w :=
  fun _ _ _ _ hp => by cases hp

theorem ok_owned {p : String × String} (h : Owned strict began body w.server p.1 p.2) :
    (machine env).Ensures walletRely (createWalletTerms strict body began)
      (.settled (.ok p) : Prog JsError Op.Val (String × String))
      (fun r w' => ∀ p, r = .ok p → Owned strict began body w'.server p.1 p.2) w := by
  intro w' hw' _ p' hp'
  cases hp'
  exact h.later hw'

theorem handleCacheMiss_owned (hbegan : began.server.Later w.server) (hw : WalletInv w) :
    (machine env).Ensures walletRely (createWalletTerms strict body began)
      (MultitenantService.handleCacheMiss env body.walletName body.walletKey)
      (fun r w' => ∀ p, r = .ok p → Owned strict began body w'.server p.1 p.2) w := by
  refine .bind_ok hw (fun _ _ _ hp => by cases hp) (getAllWallets_known hbegan) fun allWallets w₁ hw₁ hr => ?_
  split
  · exact error_owned
  · rename_i record hfind
    split
    · exact error_owned
    · obtain ⟨wallet, hwallet, hid, hname, hsince⟩ := hr _ rfl record (List.mem_of_find?_eq_some hfind)
      have hrecord := List.find?_some hfind
      rw [beq_iff_eq] at hrecord
      rw [← hid]
      refine .bind_ok hw₁ (fun _ _ _ hp => by cases hp) (getToken_owned hwallet (hname.trans hrecord) hsince)
        fun token w₂ _ hr => ?_
      exact ok_owned (hr token rfl)

theorem getTokenAndWalletId_owned (hbegan : began.server.Later w.server) (hw : WalletInv w) :
    (machine env).Ensures walletRely (createWalletTerms strict body began)
      (MultitenantService.getTokenAndWalletId env body.walletName body.walletKey)
      (fun r w' => ∀ p, r = .ok p → Owned strict began body w'.server p.1 p.2) w := by
  refine .bind_ok hw (fun _ _ _ hp => by cases hp) (cacheGet_owned.since (Server.Later.refl w.server))
    fun agent w₁ hw₁ hr => ?_
  obtain ⟨hentry, hlater⟩ := hr
  split
  · rename_i apiKey token walletId key ttl
    split
    · rename_i hkey
      subst hkey
      exact ok_owned (hentry apiKey token walletId ttl rfl)
    · exact error_owned
  · exact error_owned
  · exact handleCacheMiss_owned (hbegan.trans hlater) hw₁

theorem createOrFindWallet_owned (hbegan : began.server.Later w.server) (hw : WalletInv w) :
    (machine env).Ensures walletRely (createWalletTerms strict body began)
      (MultitenantService.createOrFindWallet env body)
      (fun r w' => ∀ p, r = .ok p → Owned strict began body w'.server p.1 p.2) w := by
  refine .tryCatch hw (((callCreateWallet_owned hbegan).since (Server.Later.refl w.server)).mono
    fun r w₁ hw₁ hr => ?_)
  obtain ⟨hr, hlater⟩ := hr
  cases r with
  | ok p => exact ok_owned (hr p rfl)
  | error e =>
      dsimp only
      split
      · exact getTokenAndWalletId_owned (hbegan.trans hlater) hw₁
      · exact error_owned

/-! ### What happens with id and token -/

theorem addWalletToCache_owned {walletId token : String} {ttl : ℚ}
    (h : Owned strict began body w.server walletId token) :
    (machine env).Ensures walletRely (createWalletTerms strict body began)
      (MultitenantService.addWalletToCache env body.walletName body.walletKey walletId token ttl)
      (fun _ w' => Owned strict began body w'.server walletId token) w := by
  apply Machine.Ensures.call
  intro w₁ hw₁ hinv
  have howned := h.later hw₁
  refine ⟨⟨fun key entry ttl he => ?_, fun _ _ he => (by cases he)⟩, fun ch a w₂ _ ha => ?_⟩
  · cases he
    exact ⟨rfl, _, token, walletId, _, rfl, howned⟩
  · have hw₂ := walletInv_answer hinv (fun key entry ttl he => ?_) ha
    · exact ⟨hw₂, fun _ _ w₃ hw₃ _ => howned.later (hw₂.2.trans hw₃)⟩
    · cases he
      obtain ⟨wallet, hwallet, -⟩ := howned
      exact ⟨wallet, hwallet⟩

theorem invitationFor_owned {walletId token : String} (h : Owned strict began body w.server walletId token) :
    (machine env).Ensures walletRely (createWalletTerms strict body began)
      (MultitenantService.invitationFor env body token)
      (fun _ w' => Owned strict began body w'.server walletId token) w := by
  unfold MultitenantService.invitationFor
  split
  · apply Machine.Ensures.call
    intro w₁ hw₁ hinv
    refine ⟨⟨fun _ _ _ he => (by cases he), fun target token' he ht => ?_⟩, fun ch a w₂ _ ha => ?_⟩
    · cases he
      cases ht
      exact ⟨walletId, h.later hw₁⟩
    · have hw₂ := walletInv_answer hinv (fun key entry ttl he => by cases he) ha
      exact ⟨hw₂, fun _ _ w₃ hw₃ _ => h.later (hw₁.trans (hw₂.2.trans hw₃))⟩
  · exact fun w' hw' _ => h.later hw'

def ReturnsOwned (strict : Prop) (began : World) (body : WalletCreateDto) (r : Except JsError Reply) (w : World) :
    Prop :=
  ∀ reply token, r = .ok (.wallet reply) → reply.token = some token →
    ∃ walletId, Owned strict began body w.server walletId token

theorem createWallet_owned (hbegan : began.server.Later w.server) (hw : WalletInv w) :
    (machine env).Ensures walletRely (createWalletTerms strict body began)
      (MultitenantService.createWallet env body)
      (fun r w' => ∀ reply token, r = .ok reply → reply.token = some token →
        ∃ walletId, Owned strict began body w'.server walletId token) w := by
  refine .bind_ok hw (fun _ _ _ _ he => by cases he) (createOrFindWallet_owned hbegan hw) fun p w₁ hw₁ hr => ?_
  have howned := hr p rfl
  refine .bind_ok hw₁ (fun _ _ _ _ he => by cases he) (addWalletToCache_owned howned) fun _ w₂ hw₂ howned₂ => ?_
  refine .bind_ok hw₂ (fun _ _ _ _ he => by cases he) (invitationFor_owned howned₂) fun invitation w₃ _ howned₃ => ?_
  intro w₄ hw₄ _ reply token hreply htoken
  cases hreply
  dsimp only at htoken
  split at htoken
  · cases htoken
    exact ⟨p.1, howned₃.later hw₄⟩
  · cases htoken

theorem createWalletBody_owned (hbegan : began.server.Later w.server) (hw : WalletInv w) :
    (machine env).Ensures walletRely (createWalletTerms strict body began)
      ((Call.createWallet body).body env) (ReturnsOwned strict began body) w := by
  refine .bind_ok hw (fun _ _ _ _ he => by cases he) (createWallet_owned hbegan hw) fun reply w₁ _ hr => ?_
  intro w₂ hw₂ _ reply' token he htoken
  cases he
  obtain ⟨walletId, howned⟩ := hr reply token rfl htoken
  exact ⟨walletId, howned.later hw₂⟩

end CreateWallet

/-! ## All calls -/

def walletTerms (strict : Prop) : Call → World → Terms World Op Choice
  | .createWallet body, began => createWalletTerms strict body began
  | _, _ => { guard := fun _ now op => ∀ key entry ttl, op = .cacheSet key entry ttl → EntryOk now.server key entry }

def walletPost (strict : Prop) : Call → World → Except JsError Reply → World → Prop
  | .createWallet body, began => ReturnsOwned strict began body
  | _, _ => fun _ _ => True

theorem entryOk_of_makes {k : Call} (hk : ∀ body, k ≠ .createWallet body) {op : Op} (hop : k.Makes env op)
    (s : Server) : ∀ key entry ttl, op = .cacheSet key entry ttl → EntryOk s key entry := by
  intro key entry ttl he
  subst he
  cases k with
  | spinUpAgent agentDto =>
      rcases hop with hop | ⟨-, rfl, -⟩
      · exact absurd hop id
      · trivial
  | createWallet body => exact absurd rfl (hk body)
  | _ => exact absurd hop id

theorem walletSound (strict : Prop) : (system env).Sound walletRely (fun _ => True) (walletTerms strict)
    (walletPost strict) where
  arrive _ w _ hinv := ⟨hinv, .refl _⟩
  body k w _ _ hinv := by
    show (machine env).Ensures walletRely _ (k.body env) _ w
    cases k with
    | createWallet body => exact createWalletBody_owned (.refl _) hinv
    | _ =>
        refine .of_calls (Call.body_calls env _) (fun op w w' hop _ _ => entryOk_of_makes (by simp) hop _)
          (fun op c w a w' hop hw ha => ?_) fun _ _ _ => trivial
        exact walletInv_answer hw (entryOk_of_makes (by simp) hop _) ha
  env e w w' ks hinv h := by
    refine ⟨?_, ?_, fun _ _ => trivial⟩
    · rcases event_cases h with ⟨ms, -, rfl, -⟩ | ⟨key, rfl, -⟩ | ⟨t, -, -, rfl, -⟩
      · exact ⟨hinv.server, hinv.cache⟩
      · exact ⟨hinv.server, hinv.cache.erase key⟩
      · exact ⟨hinv.server, hinv.cache⟩
    · show w.server.Later w'.server
      rw [event_server h]
      exact .refl _

theorem walletsOk {strict : Prop} {ls : List (Label Choice Call Event)}
    {c : Config JsError Op.Val World Call Reply}
    (hstrict : (system env).Along (Config.StepOk (fun _ => True) (walletTerms strict)) (.init .empty) ls)
    (hrun : (system env).run (.init .empty) ls = some c) :
    c.Ok (system env) walletRely (fun _ => True) (walletTerms strict) (walletPost strict) := by
  have hinit : WalletInv World.empty :=
    { server := ⟨fun _ h => (by cases h), fun _ h => (by cases h), fun _ _ h => (by cases h)⟩
      cache := .empty }
  exact Config.Ok.run (walletSound strict) (.init hinit) hstrict hrun

end GuardianshipAgency.Agency
