import GuardianshipAgency.Async.Settles
import GuardianshipAgency.Recovery.Lemmas.Retries

/-!
# Calls of `createWallet` without failures

The machine in which no call fails, except that the multitenant server refuses a second wallet of the same name.
-/

namespace GuardianshipAgency.Recovery

open Js Async Expiring Agency Lifecycle

variable {env : Env} {body : WalletCreateDto} {w w' : World}

/-! ## The machine -/

def refuses (w : World) : Op → Bool
  | .createWallet _ data => w.server.wallets.any (·.name == data.walletName)
  | _ => false

/-- A call takes effect and is answered, or it is refused with a text that the handler recognises. -/
def calm (w : World) (op : Op) : Choice → Bool
  | .done _ .answered => true
  | .failed e => refuses w op && MultitenantService.alreadyExists e
  | _ => false

def calmMachine (env : Env) : Machine JsError Op.Val World Choice where
  answer op ch w := if calm w op ch then answer env op ch w else none

theorem calm_answer {op : Op} {ch : Choice} {a} (h : (calmMachine env).answer op ch w = some (a, w')) :
    (∃ d v, a = some (.ok v) ∧ effect env op d w = some (v, w')) ∨
      (refuses w op = true ∧ w' = w ∧ ∃ e, a = some (.error e) ∧ MultitenantService.alreadyExists e = true) := by
  simp only [calmMachine] at h
  split at h
  · rename_i hcalm
    rcases answer_cases h with ⟨rfl, e, rfl, rfl, -⟩ | ⟨d, o, v, rfl, he, ⟨rfl, -⟩ | ⟨e, -, rfl, -⟩ | ⟨-, rfl, -⟩⟩
    · simp only [calm, Bool.and_eq_true] at hcalm
      exact .inr ⟨hcalm.1, rfl, e, rfl, hcalm.2⟩
    · exact .inl ⟨d, v, rfl, he⟩
    · cases hcalm
    · cases hcalm
  · cases h

theorem calm_of_effect {op : Op} {d : Detail} {v : op.Val} (h : effect env op d w = some (v, w')) :
    (calmMachine env).answer op (.done d .answered) w = some (some (.ok v), w') := by
  simp [calmMachine, calm, answer, h]

/-- A call that is not refused settles as its effect says, if it can have one. -/
theorem calm_call {op : Op} {Q : Except JsError op.Val → World → Prop} (hop : refuses w op = false)
    (hsome : ∃ d v w', effect env op d w = some (v, w'))
    (hQ : ∀ d v w', effect env op d w = some (v, w') → Q (.ok v) w') :
    (calmMachine env).Settles (Prog.call op) Q w := by
  obtain ⟨d, v, w', he⟩ := hsome
  refine ⟨⟨_, _, calm_of_effect he⟩, fun ch a w' ha => ?_⟩
  rcases calm_answer ha with ⟨d, v, rfl, he⟩ | ⟨hrefuses, -⟩
  · exact ⟨.ok v, rfl, hQ d v w' he⟩
  · rw [hop] at hrefuses
    cases hrefuses

theorem exists_unused (xs : List String) : ∃ x, x ∉ xs := by
  simpa using Infinite.exists_notMem_finset xs.toFinset

/-! ## Tokens -/

/-- Wallet ids are UUIDs. -/
def Identified (s : Server) : Prop := ∀ wallet ∈ s.wallets, wallet.id ≠ ""

/-- Id and token have been found, and are those of the wallet. -/
def Found (body : WalletCreateDto) (r : Except JsError (String × String)) (w : World) : Prop :=
  ∃ p, r = .ok p ∧ Ready body w ∧ Holds w.server body.walletName p.1 p.2

theorem getToken_effect {wallet : Wallet} (hwallet : wallet ∈ w.server.wallets) (target : AdminTarget) :
    ∃ d v w', effect env (.getToken target wallet.id wallet.key) d w = some (v, w') := by
  obtain ⟨token, htoken⟩ := exists_unused (w.server.issued.map (·.1))
  obtain ⟨wallet', hfind⟩ : ∃ wallet', (w.server.wallets.find? fun x => x.id == wallet.id && x.key == wallet.key) =
      some wallet' := Option.isSome_iff_exists.mp (List.find?_isSome.mpr ⟨wallet, hwallet, by simp⟩)
  have hissued : (w.server.issued.all fun p => p.1 != token || p.2 == wallet') = true := by
    apply List.all_eq_true.mpr
    intro p hp
    have hne : p.1 ≠ token := fun h => htoken (h ▸ List.mem_map_of_mem hp)
    simp [hne]
  refine ⟨.token token, token, w.issue wallet' token, ?_⟩
  simp [effect, hfind, hissued]

theorem getToken_settles {wallet : Wallet} (hw : Ready body w) (hwallet : wallet ∈ w.server.wallets)
    (hname : wallet.name = body.walletName) :
    (calmMachine env).Settles (Prog.call (.getToken (MultitenantService.target env) wallet.id body.walletKey))
      (fun r w' => ∃ token, r = .ok token ∧ Found body (.ok (wallet.id, token)) w') w := by
  have hkey := hw.keys wallet hwallet hname
  apply calm_call rfl
  · rw [← hkey]
    exact getToken_effect hwallet _
  · intro d v w' he
    have hop : Looks env body (.getToken (MultitenantService.target env) wallet.id body.walletKey) := ⟨rfl, trivial⟩
    have hw' := hw.effect hop he
    have hwallet' := (keeps_effect hop.not_removes body.walletName hw.server he).wallets wallet hname hwallet
    exact ⟨v, rfl, _, rfl, hw', effect_getToken_holds hw'.server.toOk hwallet' hname he⟩

/-! ## The list of wallets -/

theorem getAllWallets_effect (target : AdminTarget) :
    ∃ d v w', effect env (.getAllWallets target) d w = some (v, w') :=
  ⟨.listed w.server.wallets, _, w, if_pos (.refl _)⟩

/-- All wallets are listed, in some order. -/
theorem effect_listed {target : AdminTarget} {d : Detail} {v : List WalletRecord}
    (h : effect env (.getAllWallets target) d w = some (v, w')) {wallet : Wallet}
    (hwallet : wallet ∈ w.server.wallets) :
    { walletId := wallet.id, walletName := wallet.name } ∈ v := by
  cases d with
  | listed wallets =>
      obtain ⟨hperm, he⟩ := Option.ite_none_right_eq_some.mp h
      cases he
      exact List.mem_map.mpr ⟨wallet, hperm.mem_iff.mpr hwallet, rfl⟩
  | _ => cases h

/-- Names are unique, so that the first record of that name is the record of the wallet. -/
theorem getAllWallets_settles {wallet : Wallet} (hw : Sound w.server) (hwallet : wallet ∈ w.server.wallets) :
    (calmMachine env).Settles (Prog.call (.getAllWallets (MultitenantService.target env)))
      (fun r w' => ∃ records : List WalletRecord, r = .ok records ∧ w' = w ∧
        ∃ record, (records.find? fun x => x.walletName == wallet.name) = some record ∧ record.walletId = wallet.id)
      w := by
  apply calm_call rfl (getAllWallets_effect _)
  intro d v w' he
  obtain ⟨rfl, hknown⟩ := effect_getAllWallets he
  refine ⟨v, rfl, rfl, ?_⟩
  cases hfind : v.find? fun x => x.walletName == wallet.name with
  | none =>
      have hnone := List.find?_eq_none.mp hfind _ (effect_listed he hwallet)
      simp at hnone
  | some record =>
      obtain ⟨wallet', hwallet', hid, hname⟩ := hknown record (List.mem_of_find?_eq_some hfind)
      have hrecord := List.find?_some hfind
      rw [beq_iff_eq] at hrecord
      obtain rfl := List.inj_on_of_nodup_map hw.names hwallet' hwallet (hname.trans hrecord)
      exact ⟨record, rfl, hid.symm⟩

theorem handleCacheMiss_settles {wallet : Wallet} (hw : Ready body w) (hids : Identified w.server)
    (hwallet : wallet ∈ w.server.wallets) (hname : wallet.name = body.walletName) :
    (calmMachine env).Settles (MultitenantService.handleCacheMiss env body.walletName body.walletKey) (Found body)
      w := by
  apply Machine.Settles.bind_ok (getAllWallets_settles hw.server hwallet)
  rintro records w ⟨rfl, ⟨walletId, _⟩, hfind, rfl⟩
  rw [hname] at hfind
  simp only [hfind]
  rw [if_neg (hids wallet hwallet)]
  apply Machine.Settles.bind_ok (getToken_settles hw hwallet hname)
  intro token w' hfound
  exact hfound

/-! ## Id and token -/

theorem getTokenAndWalletId_settles {wallet : Wallet} (hw : Ready body w) (hids : Identified w.server)
    (hwallet : wallet ∈ w.server.wallets) (hname : wallet.name = body.walletName) :
    (calmMachine env).Settles (MultitenantService.getTokenAndWalletId env body.walletName body.walletKey) (Found body)
      w := by
  have hget : (calmMachine env).Settles (Prog.call (.cacheGet body.walletName))
      (fun r w' => ∃ agent : Lookup, r = .ok agent ∧ w' = w ∧ agent = w.get env body.walletName) w := by
    apply calm_call rfl ⟨.plain, _, _, rfl⟩
    intro d v w' he
    obtain ⟨-, rfl, rfl⟩ := effect_cacheGet he
    exact ⟨_, rfl, rfl, rfl⟩
  apply Machine.Settles.bind_ok hget
  rintro _ w ⟨rfl, rfl⟩
  cases hlookup : w.lookup body.walletName with
  | none =>
      rw [get_of_none hlookup, Lookup.missing]
      cases hredis : env.redisEnabled <;>
      · exact handleCacheMiss_settles hw hids hwallet hname
  | some e =>
      obtain ⟨apiKey, token, walletId, ttl, rfl, hholds⟩ := hw.entry e hlookup
      rw [get_of_some hlookup]
      dsimp only
      rw [if_pos rfl]
      exact ⟨_, rfl, hw, hholds⟩

/-- A refusal that the handler recognises. -/
def alreadyRegistered : JsError :=
  { name := "Error", message := "Bad Request", details := some "Wallet with this name already exists" }

theorem createWallet_effect {data : WalletData} (target : AdminTarget)
    (hfree : w.server.wallets.any (·.name == data.walletName) = false) :
    ∃ d v w', effect env (.createWallet target data) d w = some (v, w') := by
  obtain ⟨id, hid⟩ := exists_unused (w.server.registered.map (·.id))
  obtain ⟨token, htoken⟩ := exists_unused (w.server.issued.map (·.1))
  refine ⟨.wallet id token, _, _, if_neg ?_⟩
  simp only [hfree, Bool.false_or, Bool.or_eq_true, List.any_eq_true, beq_iff_eq, not_or, not_exists, not_and]
  exact ⟨fun x hx he => hid (he ▸ List.mem_map_of_mem hx), fun p hp he => htoken (he ▸ List.mem_map_of_mem hp)⟩

/-- A wallet of the name is refused, or is new. -/
theorem createWallet_call_settles {target : AdminTarget} {data : WalletData} (hw : Ready body w)
    (hname : data.walletName = body.walletName) (hkey : data.walletKey = body.walletKey) :
    (calmMachine env).Settles (Prog.call (Op.createWallet target data))
      (fun (r : Except JsError (String × String)) w' => Found body r w' ∨
        (w' = w ∧ (∃ wallet ∈ w.server.wallets, wallet.name = body.walletName) ∧
          ∃ e, r = .error e ∧ MultitenantService.alreadyExists e = true)) w := by
  refine ⟨?_, fun ch a w' ha => ?_⟩
  · cases hfree : w.server.wallets.any (·.name == data.walletName) with
    | true =>
        have hexists : MultitenantService.alreadyExists alreadyRegistered = true := by decide
        refine ⟨.failed alreadyRegistered, (some (.error alreadyRegistered), w), ?_⟩
        simp [calmMachine, calm, refuses, hfree, hexists, answer, Op.remote]
    | false =>
        obtain ⟨d, v, w', he⟩ := createWallet_effect target hfree
        exact ⟨_, _, calm_of_effect he⟩
  · rcases calm_answer ha with ⟨d, v, rfl, he⟩ | ⟨hrefuses, rfl, e, rfl, hexists⟩
    · have hop : Looks env body (.createWallet target data) := ⟨⟨hname, hkey⟩, trivial⟩
      have hholds := effect_createWallet_holds he
      rw [hname] at hholds
      exact ⟨.ok v, rfl, .inl ⟨v, rfl, hw.effect hop he, hholds⟩⟩
    · refine ⟨.error e, rfl, .inr ⟨rfl, ?_, e, rfl, hexists⟩⟩
      simpa [refuses, hname] using hrefuses

theorem createOrFindWallet_settles (hw : Ready body w) (hids : Identified w.server) :
    (calmMachine env).Settles (MultitenantService.createOrFindWallet env body) (Found body) w := by
  apply Machine.Settles.andThen
  apply (createWallet_call_settles hw rfl rfl).mono
  rintro r w' (⟨p, rfl, hfound⟩ | ⟨rfl, ⟨wallet, hwallet, hname⟩, e, rfl, hexists⟩)
  · exact ⟨p, rfl, hfound⟩
  · dsimp only
    rw [if_pos hexists]
    exact getTokenAndWalletId_settles hw hids hwallet hname

/-! ## The entry -/

/-- The server has one wallet of that name, with the caller's key, and the cache has its id and key and a token of
it. -/
structure Registered (env : Env) (body : WalletCreateDto) (w : World) : Prop where
  unique : w.server.wallets.countP (·.name == body.walletName) = 1
  entry : ∃ wallet ∈ w.server.wallets, wallet.name = body.walletName ∧ wallet.key = body.walletKey ∧
    ∃ token, (token, wallet) ∈ w.server.issued ∧ w.cache body.walletName =
      some
        { value := .wallet env.acapyAdminApiKey token wallet.id body.walletKey (walletTtl body)
          deadline := (w.now : WithTop ℚ) + (env.kept (walletTtl body)).map (· * 1000) }

/-- A `createWallet` resolves, and leaves the wallet and its entry as they should be. -/
def Succeeded (env : Env) (body : WalletCreateDto) (r : Except JsError MultitenantService.WalletReply) (w : World) :
    Prop :=
  (∃ reply, r = .ok reply) ∧ Registered env body w

theorem countP_name {s : Server} {wallet : Wallet} (hs : Sound s) (hwallet : wallet ∈ s.wallets) :
    s.wallets.countP (·.name == wallet.name) = 1 := by
  have hcount := List.count_eq_one_of_mem hs.names (List.mem_map_of_mem hwallet)
  rwa [List.count, List.countP_map] at hcount

/-- The entry is written for the id and the token of the wallet. -/
theorem registered_set {walletId token : String} (hw : Ready body w)
    (hholds : Holds w.server body.walletName walletId token) :
    Registered env body (w.set env body.walletName
      (.wallet env.acapyAdminApiKey token walletId body.walletKey (walletTtl body)) (walletTtl body)) := by
  obtain ⟨wallet, hwallet, hname, rfl, hissued⟩ := hholds
  constructor
  · rw [← hname]
    exact countP_name hw.server hwallet
  · exact ⟨wallet, hwallet, hname, hw.keys wallet hwallet hname, token, hissued, Store.write_self _ _ _⟩

theorem accepts_token {walletId token : String} (hholds : Holds w.server body.walletName walletId token) :
    w.accepts env { MultitenantService.target env with token := some token } = true := by
  obtain ⟨wallet, hwallet, -, -, hissued⟩ := hholds
  simp only [World.accepts, MultitenantService.target, beq_self_eq_true, Bool.true_and, List.any_eq_true]
  exact ⟨_, hissued, by simp [hwallet]⟩

theorem addWalletToCache_settles {p : String × String} (hw : Ready body w)
    (hholds : Holds w.server body.walletName p.1 p.2) :
    (calmMachine env).Settles (MultitenantService.addWalletToCache env body.walletName body.walletKey p.1 p.2
        (body.ttl.getD MultitenantService.defaultTtlSeconds))
      (fun r w' => ∃ v, r = .ok v ∧ Registered env body w' ∧ Holds w'.server body.walletName p.1 p.2) w := by
  apply calm_call rfl ⟨.plain, _, _, rfl⟩
  intro d v w' he
  cases d with
  | plain =>
      cases he
      exact ⟨_, rfl, registered_set hw hholds, hholds⟩
  | _ => cases he

theorem createInvitation_settles {target : AdminTarget} (haccepts : w.accepts env target = true) :
    (calmMachine env).Settles (Prog.call (Op.createInvitation target))
      (fun r w' => ∃ invitation : Option Json, r = .ok invitation ∧ w' = w) w := by
  have he : effect env (.createInvitation target) (.invitation none) w = some ((none : Option Json), w) :=
    if_pos haccepts
  apply calm_call rfl ⟨_, _, _, he⟩
  intro d v w' he
  cases d with
  | invitation invitation =>
      obtain ⟨-, he⟩ := Option.ite_none_right_eq_some.mp he
      cases he
      exact ⟨_, rfl, rfl⟩
  | _ => cases he

theorem invitationFor_settles {walletId token : String} (hholds : Holds w.server body.walletName walletId token) :
    (calmMachine env).Settles (MultitenantService.invitationFor env body token)
      (fun r w' => ∃ invitation, r = .ok invitation ∧ w' = w) w := by
  unfold MultitenantService.invitationFor
  split
  · exact createInvitation_settles (accepts_token hholds)
  · exact ⟨_, rfl, rfl⟩

theorem createWallet_settles (hw : Ready body w) (hids : Identified w.server) :
    (calmMachine env).Settles (MultitenantService.createWallet env body) (Succeeded env body) w := by
  apply Machine.Settles.bind_ok (createOrFindWallet_settles hw hids)
  rintro p w₁ ⟨hw₁, hholds⟩
  apply Machine.Settles.bind_ok (addWalletToCache_settles hw₁ hholds)
  rintro _ w₂ ⟨hregistered, hholds⟩
  apply Machine.Settles.bind_ok (invitationFor_settles hholds)
  rintro invitation _ rfl
  exact ⟨⟨_, rfl⟩, hregistered⟩

end GuardianshipAgency.Recovery
