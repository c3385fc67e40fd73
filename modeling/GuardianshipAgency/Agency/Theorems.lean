import GuardianshipAgency.Agency.Lemmas.Wallets
import GuardianshipAgency.Agency.Lemmas.Webhooks

/-!
# Properties of agents and wallets
-/

namespace GuardianshipAgency.Agency

open Js Async

variable {env : Env}

/-! ## Samples -/

def sampleEnv : Env where
  managerType := .k8s
  redisEnabled := false
  agentAdminPort := "5001"
  agentHttpPort := "5000"
  agentRetryDuration := "30000"
  acapyAdminApiKey := "adminApiKey"
  multitenantUrl := "http://multitenant:3021"
  internalUrl := "http://aries-guardianship-agency:3010"
  publicUrl := "http://our-ip-address:3010"
  getHandler := fun _ => .ok ()
  negativeTtl := (3600 : ℚ)

/-- The call takes effect and is answered. -/
def fine : Choice := .done .plain .answered

def created : Choice := .done (.wallet "id" "token") .answered

def invited : Choice := .done (.invitation none) .answered

def sampleWallet : WalletCreateDto :=
  { walletName := "wallet", walletKey := "key", autoConnect := some true, returnToken := some true }

/-! ## Wallet keys and tokens -/

/-- The token was issued for a wallet registered under this name with this key, and for no other. -/
def Server.TokenOf (s : Server) (name key token : String) : Prop :=
  ∃ wallet ∈ s.registered, wallet.name = name ∧ wallet.key = key ∧ (token, wallet) ∈ s.issued ∧
    ∀ other, (token, other) ∈ s.issued → other = wallet

theorem Owned.tokenOf {strict : Prop} {began : World} {body : WalletCreateDto} {s : Server}
    {walletId token : String} (h : Owned strict began body s walletId token) (hs : s.Ok) :
    s.TokenOf body.walletName body.walletKey token := by
  obtain ⟨wallet, hwallet, -⟩ := h
  exact ⟨wallet, hwallet.registered, hwallet.name, hwallet.key, hwallet.issued,
    fun other hother => hs.tokens token other hother wallet hwallet.issued⟩

/-- In every run, the token that `createWallet` is about to cache, uses for the invitation or has returned is that
of a wallet registered under the name with the key of the call. -/
theorem createWallet_token_registered {ls : List (Label Choice Call Event)}
    {c : Config JsError Op.Val World Call Reply} (hrun : (system env).run (.init .empty) ls = some c)
    {th : Thread JsError Op.Val World Call Reply} (hth : th ∈ c.threads) {body : WalletCreateDto}
    (hcall : th.call = .createWallet body) :
    (∀ key entry ttl next, th.prog = .await (.cacheSet key entry ttl) next →
      ∃ apiKey token walletId ttl', entry = .wallet apiKey token walletId body.walletKey ttl' ∧
        c.world.server.TokenOf body.walletName body.walletKey token) ∧
    (∀ target token next, th.prog = .await (.createInvitation target) next → target.token = some token →
      c.world.server.TokenOf body.walletName body.walletKey token) ∧
    ∀ reply token, th.prog = .settled (.ok (.wallet reply)) → reply.token = some token →
      c.world.server.TokenOf body.walletName body.walletKey token := by
  have hok : c.Ok (system env) walletRely (fun _ => True) (walletTerms False) (walletPost False) := by
    refine walletsOk (System.along_of_mem (fun l _ _ => ?_) _) hrun
    cases l with
    | begin k => trivial
    | answer i ch =>
        intro th op next _ _
        cases th.call with
        | createWallet body => exact False.elim
        | _ => trivial
    | env e => trivial
  have hserver := hok.inv.server
  refine ⟨fun key entry ttl next hprog => ?_, fun target token next hprog htoken => ?_,
    fun reply token hprog htoken => ?_⟩
  · have hguard := hok.guard hth hprog
    rw [hcall] at hguard
    obtain ⟨-, apiKey, token, walletId, ttl', rfl, howned⟩ := hguard.1 key entry ttl rfl
    exact ⟨apiKey, token, walletId, ttl', rfl, howned.tokenOf hserver⟩
  · have hguard := hok.guard hth hprog
    rw [hcall] at hguard
    obtain ⟨walletId, howned⟩ := hguard.2 target token rfl htoken
    exact howned.tokenOf hserver
  · have hpost := hok.settled hth hprog
    rw [hcall] at hpost
    obtain ⟨walletId, howned⟩ := hpost reply token rfl htoken
    exact howned.tokenOf hserver

def returnedToken? : Prog JsError Op.Val Reply → Option String
  | .settled (.ok (.wallet reply)) => reply.token
  | _ => none

theorem returnedToken?_eq_some {p : Prog JsError Op.Val Reply} {token : String} (h : returnedToken? p = some token) :
    ∃ reply, p = .settled (.ok (.wallet reply)) ∧ reply.token = some token := by
  unfold returnedToken? at h
  split at h
  · exact ⟨_, rfl, h⟩
  · cases h

def walletCreated : List (Label Choice Call Event) :=
  [.begin (.createWallet sampleWallet), .answer 0 (.done (.wallet "w1" "t1") .answered), .answer 0 fine,
    .answer 0 (.done (.invitation none) .answered)]

theorem createWallet_token_walletCreated : ∃ c, (system sampleEnv).run (.init .empty) walletCreated = some c ∧
    ∃ th ∈ c.threads, ∃ reply, th.prog = .settled (.ok (.wallet reply)) ∧ reply.token = some "t1" ∧
      c.world.server.TokenOf "wallet" "key" "t1" := by
  have hrun : ((system sampleEnv).run (.init .empty) walletCreated).bind (fun c => c.threads[0]?.bind fun th =>
      if th.call = .createWallet sampleWallet then returnedToken? th.prog else none) = some "t1" := by
    decide_cbv
  obtain ⟨c, hc, hrun⟩ := Option.bind_eq_some_iff.mp hrun
  obtain ⟨th, hth, hrun⟩ := Option.bind_eq_some_iff.mp hrun
  split at hrun
  · rename_i hcall
    obtain ⟨reply, hprog, htoken⟩ := returnedToken?_eq_some hrun
    have hmem := List.mem_of_getElem? hth
    exact ⟨c, hc, th, hmem, reply, hprog, htoken,
      (createWallet_token_registered hc hmem hcall).2.2 reply "t1" hprog htoken⟩
  · cases hrun

/-! ## Current wallets -/

/-- The step is no lookup by `createWallet` that finds a live entry with the caller's key whose wallet had been
removed before the call began. -/
def FindsNoRemoved (c : Config JsError Op.Val World Call Reply) : Label Choice Call Event → Prop
  | .answer i ch => ∀ th op next body, c.threads[i]? = some th → th.prog = .await op next →
      th.call = .createWallet body → ¬FindsRemoved th.began body c.world op ch
  | _ => True

/-- If no lookup finds the entry of a wallet removed before, then what `createWallet` is about to cache is a wallet
that was registered under the name at some moment during the call. -/
theorem createWallet_caches_current {ls : List (Label Choice Call Event)}
    {c : Config JsError Op.Val World Call Reply} (hfinds : (system env).Along FindsNoRemoved (.init .empty) ls)
    (hrun : (system env).run (.init .empty) ls = some c)
    {th : Thread JsError Op.Val World Call Reply} (hth : th ∈ c.threads) {body : WalletCreateDto}
    (hcall : th.call = .createWallet body) {key : String} {entry : CacheEntry} {ttl : WithTop ℚ}
    {next : Except JsError (Op.cacheSet key entry ttl).Val → Prog JsError Op.Val Reply}
    (hprog : th.prog = .await (.cacheSet key entry ttl) next) :
    key = body.walletName ∧ ∃ apiKey token walletId ttl',
      entry = .wallet apiKey token walletId body.walletKey ttl' ∧
        ∃ wallet, c.world.server.Hands body.walletName body.walletKey walletId token wallet ∧
          wallet.Since th.began.server := by
  have hok : c.Ok (system env) walletRely (fun _ => True) (walletTerms True) (walletPost True) := by
    refine walletsOk (hfinds.mono fun c l hl => ?_) hrun
    cases l with
    | begin k => trivial
    | answer i ch =>
        intro th op next hth hprog
        cases hcall : th.call with
        | createWallet body => exact fun _ => hl th op next body hth hprog hcall
        | _ => trivial
    | env e => trivial
  have hguard := hok.guard hth hprog
  rw [hcall] at hguard
  obtain ⟨hkey, apiKey, token, walletId, ttl', rfl, wallet, hwallet, hsince⟩ := hguard.1 key entry ttl rfl
  exact ⟨hkey, apiKey, token, walletId, ttl', rfl, wallet, hwallet, hsince trivial⟩

/-- The entry that a call is about to cache, where the call resolves once it is written. -/
def lastWrite? : Prog JsError Op.Val Reply → Option CacheEntry
  | .await (.cacheSet _ entry _) next =>
      match next (.ok ()) with
      | .settled (.ok _) => some entry
      | _ => none
  | _ => none

theorem lastWrite?_eq_some {p : Prog JsError Op.Val Reply} {entry : CacheEntry} (h : lastWrite? p = some entry) :
    ∃ key ttl next reply, p = .await (.cacheSet key entry ttl) next ∧ next (.ok ()) = .settled (.ok reply) := by
  unfold lastWrite? at h
  split at h
  · split at h
    · cases h
      exact ⟨_, _, _, _, rfl, ‹_›⟩
    · cases h
  · cases h

def plainWallet : WalletCreateDto := { walletName := "wallet", walletKey := "key" }

theorem createWallet_caches_created : ∃ c, (system sampleEnv).run (.init .empty)
      [.begin (.createWallet plainWallet), .answer 0 (.done (.wallet "w1" "t1") .answered)] = some c ∧
    ∃ th ∈ c.threads, ∃ wallet, c.world.server.Hands "wallet" "key" "w1" "t1" wallet ∧
      wallet.Since th.began.server := by
  have hrun : ((system sampleEnv).run (.init .empty)
      [.begin (.createWallet plainWallet), .answer 0 (.done (.wallet "w1" "t1") .answered)]).bind
        (fun c => c.threads[0]?.bind fun th =>
          if th.call = .createWallet plainWallet then lastWrite? th.prog else none) =
      some (.wallet "adminApiKey" "t1" "w1" "key" (3600 : ℚ)) := by decide_cbv
  obtain ⟨c, hc, hrun⟩ := Option.bind_eq_some_iff.mp hrun
  obtain ⟨th, hth, hrun⟩ := Option.bind_eq_some_iff.mp hrun
  split at hrun
  · rename_i hcall
    obtain ⟨key, ttl, next, -, hprog, -⟩ := lastWrite?_eq_some hrun
    have hmem := List.mem_of_getElem? hth
    have hfinds : (system sampleEnv).Along FindsNoRemoved (.init .empty)
        [.begin (.createWallet plainWallet), .answer 0 (.done (.wallet "w1" "t1") .answered)] :=
      ⟨trivial, fun _ _ => ⟨fun _ _ _ _ _ _ _ hfind => (by cases hfind.2.1), fun _ _ => trivial⟩⟩
    obtain ⟨-, apiKey, token, walletId, ttl', hentry, wallet, hwallet, hsince⟩ :=
      createWallet_caches_current hfinds hc hmem hcall hprog
    cases hentry
    exact ⟨c, hc, th, hmem, wallet, hwallet, hsince⟩
  · cases hrun

/-- A wallet is created and removed, and registered again by a call whose answer is lost. The next call to create it is
told that it already exists, and finds the entry of the wallet that was removed. -/
def createdAgain : List (Label Choice Call Event) :=
  [.begin (.createWallet plainWallet), .answer 0 (.done (.wallet "w1" "t1") .answered), .answer 0 fine,
    .begin (.removeWallet "wallet" "key"), .answer 1 fine, .answer 1 (.done (.data none) .answered),
    .begin (.createWallet plainWallet),
    .answer 2 (.done (.wallet "w2" "t2") (.rejected { name := "ProtocolException", message := "socket hang up" })),
    .begin (.createWallet plainWallet),
    .answer 3 (.failed { name := "ProtocolException", message := "Bad Request"
                         details := some "Wallet with name wallet already exists" }),
    .answer 3 fine]

/-- `createWallet` can cache a wallet that had been removed before the call began, and resolve. -/
theorem createWallet_caches_removed : ∃ c, (system sampleEnv).run (.init .empty) createdAgain = some c ∧
    ∃ th ∈ c.threads, th.call = .createWallet plainWallet ∧ ∃ key entry ttl next reply,
      th.prog = .await (.cacheSet key entry ttl) next ∧ next (.ok ()) = .settled (.ok reply) ∧
      ¬∃ apiKey token walletId ttl', entry = .wallet apiKey token walletId "key" ttl' ∧
        ∃ wallet, c.world.server.Hands "wallet" "key" walletId token wallet ∧ wallet.Since th.began.server := by
  have hrun : ((system sampleEnv).run (.init .empty) createdAgain).bind (fun c => c.threads[3]?.bind fun th =>
      if th.call = .createWallet plainWallet then
        (lastWrite? th.prog).map fun entry =>
          (entry, th.began.server.wallets, th.began.server.registered, c.world.server.registered)
      else none) =
      some (.wallet "adminApiKey" "t1" "w1" "key" (3600 : ℚ), [{ id := "w2", name := "wallet", key := "key" }],
        [{ id := "w1", name := "wallet", key := "key" }, { id := "w2", name := "wallet", key := "key" }],
        [{ id := "w1", name := "wallet", key := "key" }, { id := "w2", name := "wallet", key := "key" }]) := by
    decide_cbv
  obtain ⟨c, hc, hrun⟩ := Option.bind_eq_some_iff.mp hrun
  obtain ⟨th, hth, hrun⟩ := Option.bind_eq_some_iff.mp hrun
  split at hrun
  · rename_i hcall
    obtain ⟨entry, hentry, heq⟩ := Option.map_eq_some_iff.mp hrun
    simp only [Prod.mk.injEq] at heq
    obtain ⟨rfl, hwallets, hregistered, hnow⟩ := heq
    obtain ⟨key, ttl, next, reply, hprog, hreply⟩ := lastWrite?_eq_some hentry
    refine ⟨c, hc, th, List.mem_of_getElem? hth, hcall, key, _, ttl, next, reply, hprog, hreply, ?_⟩
    rintro ⟨apiKey, token, walletId, ttl', he, wallet, hwallet, hsince⟩
    cases he
    have hmem := hwallet.registered
    have hid := hwallet.id
    rw [hnow] at hmem
    simp only [Wallet.Since, hwallets, hregistered] at hsince
    simp only [List.mem_cons, List.not_mem_nil, or_false] at hmem hsince
    rcases hmem with rfl | rfl
    · simp at hsince
    · simp at hid
  · cases hrun

/-! ## Webhooks -/

/-- The admin port that a webhook of the agent is to be handled with. -/
def World.adminPortText (w : World) (env : Env) (agentId : String) : String :=
  match w.lookup agentId with
  | some e => e.adminApiPort.toText
  | none => env.agentAdminPort

/-- The webhook is about to be handled by `handleAcapyWebhookMsg`, with the right admin port. -/
def Dispatches (env : Env) (w : World) (agentId route topic : String) (body : Json)
    (p : Prog JsError Op.Val Reply) : Prop :=
  ∃ msg next, p = .await (.handleAcapyWebhookMsg msg) next ∧
    msg.agentUrl = "http://" ++ agentId ++ ":" ++ w.adminPortText env agentId ∧ msg.agentId = agentId ∧
    msg.route = route ∧ msg.topic = topic ∧ msg.body = body

/-- In every run of agents' calls, when the lookup of a webhook is answered, the webhook is dispatched if and only
if the cache has a live entry for its agent and there is a handler for its topic. -/
theorem handleRequest_dispatches_iff {ls : List (Label Choice Call Event)}
    {c c' : Config JsError Op.Val World Call Reply} (hcalls : ∀ k, .begin k ∈ ls → k.ofAgents)
    (hrun : (system env).run (.init .empty) ls = some c) {i : Nat}
    {th th' : Thread JsError Op.Val World Call Reply} (hth : c.threads[i]? = some th)
    {agentId route topic : String} {body : Json} (hcall : th.call = .handleRequest agentId route topic body)
    {key : String} {next : Except JsError Lookup → Prog JsError Op.Val Reply}
    (hprog : th.prog = .await (.cacheGet key) next)
    (hstep : (system env).step c (.answer i (.done .plain .answered)) = some c')
    (hth' : c'.threads[i]? = some th') :
    Dispatches env c.world agentId route topic body th'.prog ↔
      (c.world.lookup agentId).isSome ∧ env.getHandler topic = .ok () := by
  have hreach := System.InBody.run hrun th (List.mem_of_getElem? hth)
  rw [hcall, hprog] at hreach
  obtain ⟨rfl, rfl⟩ := handleRequest_next hreach
  rw [step_lookup hth hprog hstep hth']
  cases hlookup : c.world.lookup key with
  | none =>
      have hget : afterLookup env key route topic body (.ok (c.world.get env key)) =
          .settled (((Lookup.missing env).deref "multitenant").map fun _ => .nothing) := by
        simp only [World.get, hlookup, Lookup.missing]
        split <;> rfl
      rw [hget]
      simp only [Option.isSome_none, Bool.false_eq_true, false_and, iff_false]
      rintro ⟨msg, next, he, -⟩
      cases he
  | some e =>
      have honly : e.multitenant = false := (agentsOnly hcalls hrun).lookup hlookup
      simp only [World.get, hlookup, afterLookup, Option.isSome_some, true_and]
      cases htopic : env.getHandler topic with
      | ok u =>
          simp only [iff_true]
          refine ⟨_, _, rfl, ?_, rfl, rfl, rfl, rfl⟩
          simp [webhookMsg, honly, World.adminPortText, hlookup, AdminHost.url]
      | error err =>
          simp only [reduceCtorEq, iff_false]
          rintro ⟨msg, next, he, -⟩
          cases he

def cacheGet? : Prog JsError Op.Val Reply → Option String
  | .await (.cacheGet key) _ => some key
  | _ => none

theorem cacheGet?_eq_some {p : Prog JsError Op.Val Reply} {key : String} (h : cacheGet? p = some key) :
    ∃ next, p = .await (.cacheGet key) next := by
  unfold cacheGet? at h
  split at h
  · cases h
    exact ⟨_, rfl⟩
  · cases h

def sampleAgent : AgentCreateDto := { agentId := "agent", adminApiKey := "key" }

def sampleWebhook : Call := .handleRequest "agent" "topic" "connections" .null

def webhookAfterCache : List (Label Choice Call Event) :=
  [.begin (.spinUpAgent sampleAgent), .answer 0 fine, .answer 0 fine, .answer 0 fine, .answer 0 fine,
    .begin sampleWebhook]

theorem handleRequest_dispatches_webhookAfterCache :
    ∃ c c' th', (system sampleEnv).run (.init .empty) webhookAfterCache = some c ∧
      (system sampleEnv).step c (.answer 1 fine) = some c' ∧ c'.threads[1]? = some th' ∧
      Dispatches sampleEnv c.world "agent" "topic" "connections" .null th'.prog := by
  have hrun : ((system sampleEnv).run (.init .empty) webhookAfterCache).bind (fun c =>
      c.threads[1]?.bind fun th => ((system sampleEnv).step c (.answer 1 fine)).bind fun c' =>
        c'.threads[1]?.map fun _ =>
          (decide (th.call = sampleWebhook), cacheGet? th.prog, (c.world.lookup "agent").isSome)) =
      some (true, some "agent", true) := by decide +kernel
  obtain ⟨c, hc, hrun⟩ := Option.bind_eq_some_iff.mp hrun
  obtain ⟨th, hth, hrun⟩ := Option.bind_eq_some_iff.mp hrun
  obtain ⟨c', hc', hrun⟩ := Option.bind_eq_some_iff.mp hrun
  obtain ⟨th', hth', hrun⟩ := Option.map_eq_some_iff.mp hrun
  simp only [Prod.mk.injEq, decide_eq_true_eq] at hrun
  obtain ⟨hcall, hget, hlookup⟩ := hrun
  obtain ⟨next, hprog⟩ := cacheGet?_eq_some hget
  have hcalls : ∀ k, .begin k ∈ webhookAfterCache → k.ofAgents := by
    simp [webhookAfterCache, sampleWebhook, Call.ofAgents]
  exact ⟨c, c', th', hc, hc', hth',
    (handleRequest_dispatches_iff hcalls hc hth hcall hprog hc' hth').mpr ⟨hlookup, rfl⟩⟩

def webhookBeforeCache : List (Label Choice Call Event) :=
  [.begin (.spinUpAgent sampleAgent), .answer 0 fine, .answer 0 fine, .begin sampleWebhook, .answer 1 fine]

theorem handleRequest_rejects_webhookBeforeCache :
    ∃ c, (system sampleEnv).run (.init .empty) webhookBeforeCache = some c ∧
      ∃ th, c.threads[1]? = some th ∧ th.call = sampleWebhook ∧ (th.began.running sampleEnv "agent").isSome ∧
        ∃ e, th.prog = .settled (.error e) := by
  have hrun : ((system sampleEnv).run (.init .empty) webhookBeforeCache).bind (fun c =>
      c.threads[1]?.map fun th => (decide (th.call = sampleWebhook), (th.began.running sampleEnv "agent").isSome,
        match th.prog with
        | .settled (.error e) => some e.name
        | _ => none)) = some (true, true, some "TypeError") := by decide_cbv
  obtain ⟨c, hc, hrun⟩ := Option.bind_eq_some_iff.mp hrun
  obtain ⟨th, hth, hrun⟩ := Option.map_eq_some_iff.mp hrun
  simp only [Prod.mk.injEq, decide_eq_true_eq] at hrun
  obtain ⟨hcall, hrunning, herror⟩ := hrun
  refine ⟨c, hc, th, hth, hcall, hrunning, ?_⟩
  split at herror
  · exact ⟨_, ‹_›⟩
  · cases herror

/-! ## Admin requests -/

variable {hash32 : Option Json → Except JsError String}

/-- The base URL and the credentials with which a webhook is dispatched are those of the other admin requests: of
`createAgentConnection`, and of the replies to the basic messages that the webhook may bring. -/
def SameAccess (env : Env) (hash32 : Option Json → Except JsError String) (agentId topic : String)
    (e : CacheEntry) : Prop :=
  ∀ route body, ((Call.handleRequest agentId route topic body).body env).CallsIf (Finds agentId e) fun op =>
    ∀ msg, op = .handleAcapyWebhookMsg msg →
      ((Call.createAgentConnection agentId).body env).CallsIf (Finds agentId e)
        (fun op => ∀ t, op = .createInvitation t → t.access env = msg.access) ∧
      ∀ d : Transactions.Delivery, d.agentId = msg.agentId → d.adminApiKey = msg.adminApiKey →
        (Transactions.basicMessageHandler hash32 d).Calls fun op =>
          ∀ m, op = .sendMessage m → messageAccess env m = msg.access

/-- The requests go to the same place with the same credentials if and only if the entry is that of an agent whose
admin port is the default one. -/
theorem sameAccess_iff {agentId topic : String} {e : CacheEntry} (htopic : env.getHandler topic = .ok ()) :
    SameAccess env hash32 agentId topic e ↔
      e.multitenant = false ∧ e.adminApiPort.toText = env.agentAdminPort := by
  constructor
  · intro h
    have hmsg := (handleRequest_access htopic (fun _ he => by cases he)).mp (h "" .null) _ rfl
    have haccess := (createAgentConnection_access (fun _ he => by cases he)).mp hmsg.1 _ rfl
    cases e with
    | agent apiKey port ttl =>
        simp only [AdminTarget.access, WebhookMsg.access, webhookMsg, AdminHost.url, CacheEntry.multitenant,
          AdminPort.toText, AdminAccess.mk.injEq] at haccess
        refine ⟨rfl, ?_⟩
        simpa [AdminPort.toText] using haccess.1.symm
    | wallet apiKey token walletId walletKey ttl =>
        simp [AdminTarget.access, WebhookMsg.access, webhookMsg, CacheEntry.token] at haccess
  · rintro ⟨hagent, hport⟩ route body
    refine (handleRequest_access htopic (fun _ he => by cases he)).mpr fun msg he => ?_
    cases he
    have haccess : (webhookMsg env agentId route topic body e).access =
        { url := "http://" ++ agentId ++ ":" ++ env.agentAdminPort, apiKey := e.adminApiKey, token := none } := by
      cases e with
      | agent apiKey port ttl => simp [webhookMsg, WebhookMsg.access, hagent, AdminHost.url, hport, CacheEntry.token]
      | wallet apiKey token walletId walletKey ttl => cases hagent
    rw [haccess]
    refine ⟨(createAgentConnection_access (fun _ he => by cases he)).mpr fun t he => ?_, fun d hd hkey => ?_⟩
    · cases he
      rfl
    · refine (Transactions.basicMessageHandler_sends d).mono fun op hop m hm => ?_
      obtain ⟨hm, hkey'⟩ := hop m hm
      simp only [messageAccess, Transactions.SendMessage.baseUrl, hm, hkey', hd, hkey]
      rfl

theorem sameAccess_default : SameAccess sampleEnv (fun _ => .ok "9f86d081884c7d659a2feaa0c55ad015") "agent"
    "basicmessages" (.agent "key" (some 5001) (3600 : ℚ)) :=
  (sameAccess_iff rfl).mpr ⟨rfl, by decide_cbv⟩

def customPortStarted : List (Label Choice Call Event) :=
  [.begin (.spinUpAgent { sampleAgent with adminApiPort := some 5002 }), .answer 0 fine, .answer 0 fine,
    .answer 0 fine, .answer 0 fine]

theorem not_sameAccess_customPort : ∃ c e, (system sampleEnv).run (.init .empty) customPortStarted = some c ∧
    c.world.lookup "agent" = some e ∧
      ¬SameAccess sampleEnv (fun _ => .ok "9f86d081884c7d659a2feaa0c55ad015") "agent" "basicmessages" e := by
  have hrun : ((system sampleEnv).run (.init .empty) customPortStarted).bind (fun c => c.world.lookup "agent") =
      some (.agent "key" (some 5002) (3600 : ℚ)) := by decide_cbv
  obtain ⟨c, hc, hlookup⟩ := Option.bind_eq_some_iff.mp hrun
  refine ⟨c, _, hc, hlookup, fun h => ?_⟩
  have hmsg := (handleRequest_access rfl (fun _ he => by cases he)).mp (h "topic" .null) _ rfl
  have haccess := (createAgentConnection_access (fun _ he => by cases he)).mp hmsg.1 _ rfl
  exact absurd haccess (by decide_cbv)

end GuardianshipAgency.Agency
