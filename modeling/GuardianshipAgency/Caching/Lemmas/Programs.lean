import GuardianshipAgency.Caching.Lemmas.Content

/-!
# Programs that do not tell the stores apart
-/

namespace GuardianshipAgency.Caching

open Js Async Expiring Agency Lifecycle

variable {env : Env}

/-! ## Answers -/

/-- The answers of the two stores: a lookup may give `undefined` in one and `null` in the other. -/
def Blurred : (op : Op) → Except JsError op.Val → Except JsError op.Val → Prop
  | .cacheGet _, r, r' => r = r' ∨ (r = .ok Lookup.undefined ∧ r' = .ok Lookup.null)
  | _, r, r' => r = r'

def Onward : Op → Prop
  | .delay ms => 0 ≤ ms
  | _ => True

theorem blurred_refl (op : Op) (r : Except JsError op.Val) : Blurred op r r := by
  cases op with
  | cacheGet key => exact .inl rfl
  | _ => rfl

theorem onward_now {op : Op} (hop : Onward op) {ch : Choice} {w w' : World} {a}
    (h : answer env op ch w = some (a, w')) : w.now ≤ w'.now := by
  refine answer_world (fun w w' => w.now ≤ w'.now) (le_refl _) (fun d v w' he => ?_) h
  rcases effect_cases he with rfl | ⟨-, hw⟩ | ⟨_, _, _, -, rfl⟩ | ⟨_, -, rfl⟩ | hserver | ⟨ms, ms', rfl, hms, rfl⟩ |
    ⟨_, _, -, rfl⟩
  · exact le_refl _
  · rw [hw]
  · exact le_refl _
  · exact le_refl _
  · rw [hserver.frame]
  · exact le_add_of_nonneg_right (le_trans hop hms)
  · exact le_refl _

theorem SameContent.get {w v : World} (h : SameContent w v) (key : String) :
    Blurred (.cacheGet key) (.ok (w.get (fsStore env) key)) (.ok (v.get (redisStore env) key)) := by
  cases hkey : w.lookup key with
  | some e => exact .inl (by rw [get_of_some hkey, get_of_some ((h.lookup_now key).trans hkey)])
  | none =>
      rw [get_of_none hkey, get_of_none ((h.lookup_now key).trans hkey)]
      exact .inr ⟨rfl, rfl⟩

theorem SameContent.pastCache {w v w' : World} (h : SameContent w v) {op : Op} (hop : Onward op)
    (hcache : ofCache op = false) {ch : Choice} {a} (ha : answer (fsStore env) op ch w = some (a, w')) :
    ∃ v', answer (redisStore env) op ch v = some (a, v') ∧ SameContent w' v' := by
  refine ⟨{ w' with cache := v.cache }, ?_, rfl, fun t ht key => ?_⟩
  · rw [h.frame, answer_stores hcache, answer_pastCache hcache, ha]
    rfl
  · have hnow : (w.now : WithTop ℚ) ≤ w'.now := WithTop.coe_le_coe.mpr (onward_now hop ha)
    rw [pastCache_frame hcache ha]
    exact h.lookup t (hnow.trans ht) key

theorem answeredAlike {op : Op} (hop : Onward op) :
    AnsweredAlike (machine (fsStore env)) (machine (redisStore env)) (cacheOp (fsStore env))
      (cacheOp (redisStore env)) SameContent Blurred op := by
  cases hcache : ofCache op with
  | true =>
      refine .inl fun w v h => ?_
      cases op with
      | cacheGet key => exact ⟨_, _, _, _, rfl, rfl, h.get key, h⟩
      | cacheSet key entry ttl => exact ⟨_, _, _, _, rfl, rfl, rfl, h.set key entry ttl⟩
      | cacheDel key => exact ⟨_, _, _, _, rfl, rfl, rfl, h.del key⟩
      | _ => cases hcache
  | false =>
      refine .inr ⟨fun w => ⟨by simp [cacheOp, hcache], by simp [cacheOp, hcache]⟩, fun ch w v h => ?_⟩
      cases ha : answer (fsStore env) op ch w with
      | some x =>
          obtain ⟨v', hv, h'⟩ := h.pastCache hop hcache ha
          exact .inr ⟨x.1, x.2, v', ha, hv, h'⟩
      | none =>
          refine .inl ⟨ha, ?_⟩
          show answer (redisStore env) op ch v = none
          rw [h.frame, answer_stores hcache, answer_pastCache hcache, ha]
          rfl

/-! ## The services -/

/-- The program goes on and settles alike with either store. -/
def Blind {α : Type} (p : Prog JsError Op.Val α) : Prop := p.Related Blurred Onward Eq p

/-- A call answered alike by both stores. -/
def Plain (op : Op) : Prop := Onward op ∧ ∀ r r', Blurred op r r' → r = r'

theorem Blind.of_calls {α : Type} {p : Prog JsError Op.Val α} (hp : p.Calls Plain) : Blind p :=
  Prog.Related.of_calls (fun _ => rfl) hp

theorem Blind.settled {α : Type} (r : Except JsError α) : Blind (.settled r : Prog JsError Op.Val α) :=
  Prog.Related.settled (.refl (fun _ => rfl) r)

theorem Blind.call {op : Op} (hop : Plain op) : Blind (Prog.call op) := .of_calls (.call hop)

theorem Blind.bind {α β : Type} {p : Prog JsError Op.Val α} {f : α → Prog JsError Op.Val β} (hp : Blind p)
    (hf : ∀ a, Blind (f a)) : Blind (p >>= f) :=
  Prog.Related.bind hp hf

theorem Blind.lookup {α : Type} {key : String} {f : Lookup → Prog JsError Op.Val α} (hf : ∀ l, Blind (f l))
    (hmissing : (f .undefined).Related Blurred Onward Eq (f .null)) : Blind (Prog.call (Op.cacheGet key) >>= f) :=
  .await trivial fun r r' hr => by
    rcases hr with rfl | ⟨rfl, rfl⟩
    · cases r with
      | ok l => exact hf l
      | error e => exact .settled (.error rfl)
    · exact hmissing

theorem startAgent_blind (config : AgentConfig) : Blind (AgentManagerService.startAgent env config) :=
  .of_calls ((AgentManagerService.startAgent_calls env config).mono fun op hop => by
    cases op with
    | createContainer | startContainer | createNamespacedPod | createNamespacedService =>
        exact ⟨trivial, fun _ _ h => h⟩
    | _ => exact absurd hop id)

theorem spinDownAgent_blind (agentId : String) : Blind (AgentManagerService.spinDownAgent env agentId) :=
  .of_calls ((AgentManagerService.spinDownAgent_calls env agentId).mono fun op hop => by
    cases op with
    | cacheDel | stopContainer | deleteNamespacedService | deleteNamespacedPod => exact ⟨trivial, fun _ _ h => h⟩
    | _ => exact absurd hop id)

theorem pingConnectionWithRetry_blind (agentId : String) (adminPort : AdminPort) (adminApiKey : String)
    (durationMS : Option ℚ) :
    Blind (AgentManagerService.pingConnectionWithRetry agentId adminPort adminApiKey durationMS) := by
  have hdelay : Plain (.delay 1000) := ⟨(by norm_num : (0 : ℚ) ≤ 1000), fun _ _ h => h⟩
  exact .of_calls (AgentManagerService.pingConnectionWithRetry_calls Plain ⟨trivial, fun _ _ h => h⟩
    ⟨trivial, fun _ _ h => h⟩ hdelay durationMS)

theorem createInvitation_blind (target : AdminTarget) : Blind (Prog.call (Op.createInvitation target)) :=
  .call ⟨trivial, fun _ _ h => h⟩

theorem setSpinDownJob_blind (config : AgentConfig) : Blind (AgentManagerService.setSpinDownJob config) := by
  unfold AgentManagerService.setSpinDownJob
  split
  · exact .settled _
  · split
    · exact .call ⟨trivial, fun _ _ h => h⟩
    · exact .settled _

theorem finishSpinUp_blind (agentDto : AgentCreateDto) : Blind (AgentManagerService.finishSpinUp env agentDto) := by
  refine .bind (.call ⟨trivial, fun _ _ h => h⟩) fun _ => .bind (setSpinDownJob_blind _) fun _ => ?_
  split
  · exact .bind (pingConnectionWithRetry_blind _ _ _ _) fun _ => .bind (createInvitation_blind _) fun _ =>
      .settled _
  · exact .settled _

theorem connectAgent_blind (agentId adminApiKey : String) :
    Blind (AgentManagerService.connectAgent env agentId adminApiKey) := by
  have hrest : ∀ adminPort, Blind (do
      AgentManagerService.pingConnectionWithRetry agentId adminPort adminApiKey (parseInt env.agentRetryDuration)
      let connectionData ← AgentManagerService.createConnection agentId adminPort adminApiKey
      return ({ agentId, connectionData } : AgentManagerService.AgentReply)) := fun adminPort =>
    .bind (pingConnectionWithRetry_blind _ _ _ _) fun _ => .bind (createInvitation_blind _) fun _ =>
      .settled _
  exact .lookup (fun l => hrest _) (hrest _)

theorem handleCacheMiss_blind (walletName walletKey : String) :
    Blind (MultitenantService.handleCacheMiss env walletName walletKey) := by
  refine .bind (.call ⟨trivial, fun _ _ h => h⟩) fun allWallets => ?_
  split
  · exact .settled _
  · split
    · exact .settled _
    · exact .bind (.call ⟨trivial, fun _ _ h => h⟩) fun _ => .settled _

theorem getTokenAndWalletId_blind (walletName walletKey : String) :
    Blind (MultitenantService.getTokenAndWalletId env walletName walletKey) := by
  refine .lookup (fun agent => ?_) (handleCacheMiss_blind walletName walletKey)
  split
  · split
    · exact .settled _
    · exact .settled _
  · exact .settled _
  · exact handleCacheMiss_blind walletName walletKey

theorem createOrFindWallet_blind (body : WalletCreateDto) :
    Blind (MultitenantService.createOrFindWallet env body) := by
  refine .tryCatch (Blind.call ⟨trivial, fun _ _ h => h⟩) fun e e' he => ?_
  subst he
  split
  · exact getTokenAndWalletId_blind _ _
  · exact Blind.settled _

theorem invitationFor_blind (body : WalletCreateDto) (token : String) :
    Blind (MultitenantService.invitationFor env body token) := by
  unfold MultitenantService.invitationFor
  split
  · exact .call ⟨trivial, fun _ _ h => h⟩
  · exact .settled _

theorem createWallet_blind (body : WalletCreateDto) : Blind (MultitenantService.createWallet env body) :=
  .bind (createOrFindWallet_blind body) fun _ => .bind (.call ⟨trivial, fun _ _ h => h⟩) fun _ =>
    .bind (invitationFor_blind body _) fun _ => .settled _

theorem removeWallet_blind (walletName walletKey : String) :
    Blind (MultitenantService.removeWallet env walletName walletKey) := by
  refine .lookup (fun agent => ?_) (Blind.settled _)
  split
  · exact .call ⟨trivial, fun _ _ h => h⟩
  · exact .settled _

theorem register_blind (url : String) (data : RegisterData) : Blind (Prog.call (Op.register url data)) :=
  .call ⟨trivial, fun _ _ h => h⟩

end GuardianshipAgency.Caching
