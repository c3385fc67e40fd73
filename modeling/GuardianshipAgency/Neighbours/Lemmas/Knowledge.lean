import GuardianshipAgency.Agency.Lemmas.Wallets
import GuardianshipAgency.Async.Learning
import GuardianshipAgency.Neighbours.Lemmas.Locality

/-!
# What a call knows of its wallet

Wallet ids and tokens are told only to calls under the name of the wallet.
-/

namespace GuardianshipAgency.Sharing

open Js Async Expiring Agency

variable {env : Env} {name : String}

/-! ## Facts -/

/-- A wallet of a name has the id, or was issued the token. -/
inductive Fact where
  | walletId (id : String)
  | token (text : String)
deriving DecidableEq

def Fact.Holds (name : String) (s : Server) : Fact → Prop
  | .walletId id => ∃ wallet ∈ s.registered, wallet.id = id ∧ wallet.name = name
  | .token text => ∃ wallet, (text, wallet) ∈ s.issued ∧ wallet.name = name

/-- A wallet of this name has the id or the token, and no wallet of another name. -/
def Fact.Only (name : String) (s : Server) (f : Fact) : Prop := f.Holds name s ∧ ∀ name', f.Holds name' s → name' = name

theorem Fact.Holds.only {s : Server} {f : Fact} (hs : s.Ok) (h : f.Holds name s) : f.Only name s := by
  refine ⟨h, fun name' h' => ?_⟩
  cases f with
  | walletId id =>
      obtain ⟨wallet, hwallet, hid, rfl⟩ := h
      obtain ⟨wallet', hwallet', hid', rfl⟩ := h'
      rw [hs.ids _ hwallet' _ hwallet (hid'.trans hid.symm)]
  | token text =>
      obtain ⟨wallet, hwallet, rfl⟩ := h
      obtain ⟨wallet', hwallet', rfl⟩ := h'
      rw [hs.tokens _ _ hwallet' _ hwallet]

theorem Fact.Holds.later {s s' : Server} {f : Fact} (h : f.Holds name s) (hs : s.Later s') : f.Holds name s' := by
  cases f with
  | walletId id =>
      obtain ⟨wallet, hwallet, hid⟩ := h
      exact ⟨wallet, hs.registered hwallet, hid⟩
  | token text =>
      obtain ⟨wallet, hwallet, hname⟩ := h
      exact ⟨wallet, hs.issued hwallet, hname⟩

def factsOf : CacheEntry → List Fact
  | .agent _ _ _ => []
  | .wallet _ token walletId _ _ => [.walletId walletId, .token token]

/-- What a call must know to make the awaited call. -/
def needs : Op → List Fact
  | .getToken _ walletId _ | .removeWallet _ (some walletId) _ => [.walletId walletId]
  | .createInvitation target => target.token.toList.map .token
  | .handleAcapyWebhookMsg msg => msg.token.toList.map .token
  | .cacheSet _ entry _ => factsOf entry
  | _ => []

/-- What the answer tells a call under this name. -/
def gives (name : String) : (op : Op) → Except JsError op.Val → List Fact
  | .createWallet _ _, .ok (id, token) => [.walletId id, .token token]
  | .cacheGet _, .ok (.entry e) => factsOf e
  | .getAllWallets _, .ok records =>
      (records.filter fun wallet => wallet.walletName == name).map fun wallet => .walletId wallet.walletId
  | .getToken _ _ _, .ok token => [.token token]
  | _, _ => []

/-- Each entry is about a wallet of its own name. -/
structure NamesInv (w : World) : Prop where
  server : w.server.Ok
  cache : w.cache.Forall fun key entry => ∀ f ∈ factsOf entry, f.Holds key w.server

def namesRely : Rely World := { walletRely with inv := NamesInv }

theorem NamesInv.answer {op : Op} {ch : Choice} {w w' : World} {a} (hw : NamesInv w)
    (hset : ∀ key entry ttl, op = .cacheSet key entry ttl → ∀ f ∈ factsOf entry, f.Holds key w.server)
    (h : answer env op ch w = some (a, w')) : NamesInv w' ∧ w.server.Later w'.server := by
  refine answer_world (fun w w' => NamesInv w' ∧ w.server.Later w'.server) ⟨hw, .refl _⟩ ?_ h
  intro d v w' he
  obtain ⟨hok, hlater⟩ := server_effect hw.server he
  refine ⟨⟨hok, ?_⟩, hlater⟩
  have hcache := hw.cache.mono fun key entry hentry f hf => (hentry f hf).later hlater
  rcases effect_cache he with hc | ⟨key, entry, ttl, hop, rfl⟩ | ⟨key, -, rfl⟩
  · rw [hc]
    exact hcache
  · exact hcache.write (hset key entry ttl hop) _
  · exact hcache.erase key

/-! ## Truth -/

/-- A call awaits what has to do with its own name. -/
structure OwnOp (k : Call) (op : Op) : Prop where
  agent : ofTenants k = false → OfAgent (nameOf k) op
  tenant : ofTenants k = true → WalletOp (nameOf k) op
  wallet : ∀ target data, op = .createWallet target data → data.walletName = nameOf k

theorem body_ownOp (k : Call) : (k.body env).Calls (OwnOp k) := by
  cases hk : ofTenants k with
  | true =>
      refine ((body_walletOp hk).and (Call.body_calls env k)).mono fun op hop =>
        ⟨fun hk' => by simp [hk] at hk', fun _ => hop.1, ?_⟩
      rintro target data rfl
      cases k with
      | createWallet body => exact hop.2.1
      | removeWallet => exact absurd hop.2 (fun h => h)
      | _ => cases hk
  | false =>
      refine (body_ofAgent hk).mono fun op hop => ⟨fun _ => hop, fun hk' => by simp [hk] at hk', ?_⟩
      rintro target data rfl
      exact absurd hop fun h => h

theorem OwnOp.key_eq {k : Call} {op : Op} (hop : OwnOp k op) {key : String}
    (hkey : op = .cacheGet key ∨ ∃ entry ttl, op = .cacheSet key entry ttl) : key = nameOf k := by
  cases hk : ofTenants k with
  | true => rcases hkey with rfl | ⟨entry, ttl, rfl⟩ <;> exact (hop.tenant hk).resolve_left fun h => h
  | false => rcases hkey with rfl | ⟨entry, ttl, rfl⟩ <;> exact hop.agent hk

theorem OwnOp.webhook {k : Call} {msg : WebhookMsg} (hop : OwnOp k (.handleAcapyWebhookMsg msg)) :
    msg.agentId = nameOf k := by
  cases hk : ofTenants k with
  | true => exact absurd (hop.tenant hk) fun h => h.elim id id
  | false => exact hop.agent hk

theorem gives_holds {k : Call} {op : Op} {ch : Choice} {w w' : World} {a} (hw : NamesInv w) (hop : OwnOp k op)
    (hneeds : ∀ f ∈ needs op, f.Holds (nameOf k) w.server) (h : answer env op ch w = some (a, w')) :
    ∀ r, a = some r → ∀ f ∈ gives (nameOf k) op r, f.Holds (nameOf k) w'.server := by
  rintro (e | v) rfl f hf
  · cases op <;> cases hf
  obtain ⟨d, -, heffect⟩ := answer_ok h
  cases op with
  | createWallet target data =>
      obtain ⟨wallet, hname, -, hid, -, rfl⟩ := effect_createWallet heffect
      have hown : wallet.name = nameOf k := hname.trans (hop.wallet target data rfl)
      simp only [gives, List.mem_cons, List.not_mem_nil, or_false] at hf
      rcases hf with rfl | rfl
      · exact ⟨wallet, by simp [World.register], hid, hown⟩
      · exact ⟨wallet, by simp [World.register], hown⟩
  | cacheGet key =>
      obtain rfl := hop.key_eq (.inl rfl)
      obtain ⟨-, rfl, rfl⟩ := effect_cacheGet heffect
      unfold World.get Lookup.missing at hf
      split at hf
      · next entry hlookup => exact hw.cache.lookup hlookup f hf
      · split at hf <;> cases hf
  | getAllWallets target =>
      obtain ⟨rfl, hall⟩ := effect_getAllWallets heffect
      obtain ⟨record, hrecord, rfl⟩ := List.mem_map.mp hf
      obtain ⟨hmem, hname⟩ := List.mem_filter.mp hrecord
      obtain ⟨wallet, hwallet, hid, hwalletName⟩ := hall record hmem
      exact ⟨wallet, hw.server.known hwallet, hid, hwalletName.trans (beq_iff_eq.mp hname)⟩
  | getToken target walletId walletKey =>
      obtain ⟨wallet, hwallet, hid, -, rfl⟩ := effect_getToken heffect
      obtain ⟨own, hown, hownId, hownName⟩ := hneeds (.walletId walletId) (by simp [needs])
      have heq : wallet = own := hw.server.ids _ (hw.server.known hwallet) _ hown (hid.trans hownId.symm)
      rw [List.mem_singleton.mp hf]
      exact ⟨wallet, by simp [World.issue], heq ▸ hownName⟩
  | _ => cases hf

/-! ## What the programs find out -/

/-- Wallet id and token of a result are known. -/
def Told (r : Except JsError (String × String)) (known : List Fact) : Prop :=
  ∀ p, r = .ok p → .walletId p.1 ∈ known ∧ .token p.2 ∈ known

theorem told_error (e : JsError) (known : List Fact) : Told (.error e) known := fun _ hp => by cases hp

theorem told_ok {p : String × String} {known : List Fact} (hid : .walletId p.1 ∈ known) (htoken : .token p.2 ∈ known) :
    Told (.ok p) known := fun _ hp => by
  cases hp
  exact ⟨hid, htoken⟩

theorem handleCacheMiss_told (walletName walletKey : String) (known : List Fact) :
    (MultitenantService.handleCacheMiss env walletName walletKey).Learns needs (gives walletName) known Told := by
  refine .call_bind told_error (List.nil_subset _) fun allWallets => ?_
  split
  · exact told_error _ _
  · next record hfind =>
      split
      · exact told_error _ _
      · have hid : .walletId record.walletId ∈ gives walletName (.getAllWallets (MultitenantService.target env))
            (.ok allWallets) ++ known := by
          have hname := List.find?_some hfind
          exact List.mem_append_left _ (List.mem_map.mpr
            ⟨record, List.mem_filter.mpr ⟨List.mem_of_find?_eq_some hfind, hname⟩, rfl⟩)
        refine .call_bind told_error (by simpa [needs] using hid) fun token => ?_
        exact told_ok (List.mem_append_right _ hid) (List.mem_append_left _ (List.mem_singleton_self _))

theorem getTokenAndWalletId_told (walletName walletKey : String) (known : List Fact) :
    (MultitenantService.getTokenAndWalletId env walletName walletKey).Learns needs (gives walletName) known Told := by
  refine .call_bind told_error (List.nil_subset _) fun agent => ?_
  split
  · split
    · exact told_ok (by simp [gives, factsOf]) (by simp [gives, factsOf])
    · exact told_error _ _
  · exact told_error _ _
  · exact handleCacheMiss_told walletName walletKey _

theorem createOrFindWallet_told (body : WalletCreateDto) (known : List Fact) :
    (MultitenantService.createOrFindWallet env body).Learns needs (gives body.walletName) known Told := by
  refine .tryCatch (.call (List.nil_subset _) fun r => ?_) fun e known' _ => ?_
  · cases r with
    | ok p => exact told_ok (by simp [gives]) (by simp [gives])
    | error e => exact told_error _ _
  · split
    · exact getTokenAndWalletId_told _ _ _
    · exact told_error _ _

theorem createWallet_learns (body : WalletCreateDto) :
    (MultitenantService.createWallet env body).Learns needs (gives body.walletName) [] fun _ _ => True := by
  refine .bind (fun _ _ => trivial) (createOrFindWallet_told body []) fun p known _ htold => ?_
  obtain ⟨hid, htoken⟩ := htold p rfl
  refine .call_bind (fun _ _ => trivial) (by simp [needs, factsOf, hid, htoken]) fun _ => ?_
  refine .bind (fun _ _ => trivial) (Q := fun _ _ => True) ?_ fun _ _ _ _ => trivial
  unfold MultitenantService.invitationFor
  split
  · exact .call (by simp [needs, gives, htoken]) fun _ => trivial
  · trivial

theorem removeWallet_learns (walletName walletKey : String) :
    (MultitenantService.removeWallet env walletName walletKey).Learns needs (gives walletName) [] fun _ _ => True := by
  refine .call_bind (fun _ _ => trivial) (List.nil_subset _) fun agent => ?_
  split
  · next entry =>
      refine .call ?_ fun _ => trivial
      cases entry <;> simp [needs, CacheEntry.walletId, gives, factsOf]
  · trivial

theorem handleRequest_learns (agentId route topic : String) (body : Json) :
    (AgentControllerService.handleRequest env agentId route topic body).Learns needs (gives agentId) []
      fun _ _ => True := by
  refine .call_bind (fun _ _ => trivial) (List.nil_subset _) fun cached => ?_
  cases cached with
  | entry e =>
      show Prog.Learns needs (gives agentId) ((Prog.ofExcept (env.getHandler topic) : Prog JsError Op.Val Unit) >>=
        fun _ => Prog.call (Op.handleAcapyWebhookMsg _)) _ _
      cases env.getHandler topic with
      | ok handler =>
          refine .call ?_ fun _ => trivial
          cases e <;> simp [needs, CacheEntry.token, gives, factsOf]
      | error e => trivial
  | _ => trivial

theorem spinUpOp_needs {config : AgentConfig} {op : Op} (h : SpinUpOp config op) : needs op = [] := by
  rcases h with h | h
  · cases op with
    | createContainer | startContainer | createNamespacedPod | createNamespacedService => rfl
    | _ => exact absurd h id
  · cases op with
    | cacheSet key entry ttl =>
        obtain ⟨-, rfl, -⟩ := h
        rfl
    | createInvitation target =>
        obtain rfl : target = _ := h
        rfl
    | cacheGet | status | getTime | delay | setTimeout => rfl
    | _ => exact absurd h id

theorem createAgentConnection_needs (agentId : String) :
    (TransactionService.createAgentConnection env agentId).Calls fun op => needs op = [] := by
  refine .bind (.bind (.call rfl) fun agentData => ?_) fun _ => .call rfl
  split
  · trivial
  · exact .bind trivial fun _ => trivial

theorem body_learns (k : Call) : (k.body env).Learns needs (gives (nameOf k)) [] fun _ _ => True := by
  cases k with
  | spinUpAgent agentDto =>
      exact .of_calls (.bind ((AgentManagerService.spinUpAgent_calls env agentDto).mono fun _ => spinUpOp_needs)
        fun _ => trivial)
  | spinDownAgent agentId =>
      refine .of_calls (.bind ((AgentManagerService.spinDownAgent_calls env agentId).mono fun op hop => ?_)
        fun _ => trivial)
      cases op with
      | cacheDel | stopContainer | deleteNamespacedService | deleteNamespacedPod => rfl
      | _ => exact absurd hop fun h => h
  | connectAgent agentId adminApiKey =>
      refine .of_calls (.bind (.bind (.call rfl) fun agentCache => .bind ?_ fun _ => .bind (.call rfl) fun _ => trivial)
        fun _ => trivial)
      exact AgentManagerService.pingConnectionWithRetry_calls (fun op => needs op = []) rfl rfl rfl _
  | createWallet body =>
      exact .bind (fun _ _ => trivial) (createWallet_learns body) fun _ _ _ _ => trivial
  | removeWallet walletName walletKey =>
      exact .bind (fun _ _ => trivial) (removeWallet_learns walletName walletKey) fun _ _ _ _ => trivial
  | handleRequest agentId route topic body =>
      exact .bind (fun _ _ => trivial) (handleRequest_learns agentId route topic body) fun _ _ _ _ => trivial
  | createAgentConnection agentId =>
      exact .of_calls (.bind (createAgentConnection_needs agentId) fun _ => trivial)
  | registerWithTDC agentId body =>
      exact .of_calls (.bind (.bind (createAgentConnection_needs agentId) fun _ => .bind trivial fun _ =>
        .bind (.call rfl) fun _ => trivial) fun _ => trivial)

/-! ## All calls -/

/-- A call awaits what has to do with its own name, and what it needs holds of that name. -/
structure Knows (w : World) (k : Call) (op : Op) : Prop extends OwnOp k op where
  needs : ∀ f ∈ needs op, f.Holds (nameOf k) w.server

def namesTerms (k : Call) (_ : World) : Terms World Op Choice where
  guard _ now op := Knows now k op

theorem factsOf_of_needs {k : Call} {op : Op} {s : Server} (hop : OwnOp k op)
    (hneeds : ∀ f ∈ needs op, f.Holds (nameOf k) s) :
    ∀ key entry ttl, op = .cacheSet key entry ttl → ∀ f ∈ factsOf entry, f.Holds key s := by
  rintro key entry ttl rfl
  obtain rfl := hop.key_eq (.inr ⟨entry, ttl, rfl⟩)
  exact hneeds

theorem namesSound : (system env).Sound namesRely (fun _ => True) namesTerms (fun _ _ _ _ => True) where
  arrive _ w _ hinv := ⟨hinv, .refl _⟩
  body k w _ _ hinv := by
    have hlater : ∀ {w w' : World}, namesRely.rel w w' → ∀ f : Fact, f.Holds (nameOf k) w.server →
        f.Holds (nameOf k) w'.server := fun h _ hf => hf.later h
    refine Prog.Learns.ensures hlater (fun op w w' hop hneeds => ?_) (fun op ch w a w' hop hneeds hw ha => ?_)
      (body_ownOp k) (body_learns k) fun f hf => by cases hf
    · exact { hop with needs := hneeds }
    · exact ⟨hw.answer (factsOf_of_needs hop hneeds) ha, gives_holds hw hop hneeds ha⟩
  env e w w' ks hinv h := by
    refine ⟨?_, ?_, fun _ _ => trivial⟩
    · rcases event_cases h with ⟨ms, -, rfl, -⟩ | ⟨key, rfl, -⟩ | ⟨t, -, -, rfl, -⟩
      · exact ⟨hinv.server, hinv.cache⟩
      · exact ⟨hinv.server, hinv.cache.erase key⟩
      · exact ⟨hinv.server, hinv.cache⟩
    · show w.server.Later w'.server
      rw [event_server h]
      exact .refl _

theorem namesOk {ls : List (Label Choice Call Event)} {c : Config JsError Op.Val World Call Reply}
    (hrun : (system env).run (.init .empty) ls = some c) :
    c.Ok (system env) namesRely (fun _ => True) namesTerms (fun _ _ _ _ => True) := by
  have hinit : NamesInv World.empty :=
    { server := ⟨fun _ h => (by cases h), fun _ h => (by cases h), fun _ _ h => (by cases h)⟩
      cache := .empty }
  refine Config.Ok.run namesSound (.init hinit) (System.along_of_mem (fun l _ c => ?_) _) hrun
  cases l with
  | begin k => trivial
  | answer i ch => exact fun _ _ _ _ _ => trivial
  | env e => trivial

end GuardianshipAgency.Sharing
