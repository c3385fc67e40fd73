import GuardianshipAgency.Caching.Lemmas.Programs

/-!
# Runs with the two stores
-/

namespace GuardianshipAgency.Caching

open Js Async Expiring Agency Lifecycle

variable {env : Env} {E : JsError → JsError → Prop} {w v : World} {cs : List Choice}

/-! ## Programs that begin with a cache operation -/

theorem cacheOp_answer {op : Op} {w w' : World} {x : op.Val} (h : cacheOp env op w = some (x, w')) :
    ∃ ch, (machine env).answer op ch w = some (some (.ok x), w') := by
  obtain ⟨-, he⟩ := Option.ite_none_right_eq_some.mp h
  exact ⟨.done .plain .answered, by simp only [machine, answer, he]⟩

theorem cacheGet_direct (key : String) (w : World) : cacheOp env (.cacheGet key) w = some (w.get env key, w) := rfl

theorem cacheSet_direct (key : String) (entry : CacheEntry) (ttl : WithTop ℚ) (w : World) :
    cacheOp env (.cacheSet key entry ttl) w = some ((), w.set env key entry ttl) := rfl

namespace StoresAgree

variable {α : Type} {p q : Prog JsError Op.Val α} {R : Except JsError α → Except JsError α → Prop}

theorem of_related (h : p.Related Blurred Onward E q) (hsame : SameContent w v) (cs : List Choice) :
    StoresAgree env (Alike E) p q w v cs :=
  h.agree blurred_refl (fun _ => answeredAlike) hsame cs

theorem direct_left {op : Op} {next : Except JsError op.Val → Prog JsError Op.Val α} {w' : World} {x : op.Val}
    (hop : cacheOp (fsStore env) op w = some (x, w')) (h : StoresAgree env R (next (.ok x)) q w' v cs) :
    StoresAgree env R (.await op next) q w v cs := by
  unfold StoresAgree
  rw [Machine.perform_direct hop]
  exact h

theorem direct_right {op : Op} {next : Except JsError op.Val → Prog JsError Op.Val α} {v' : World} {x : op.Val}
    (hop : cacheOp (redisStore env) op v = some (x, v')) (h : StoresAgree env R p (next (.ok x)) w v' cs) :
    StoresAgree env R p (.await op next) w v cs := by
  unfold StoresAgree
  rw [Machine.perform_direct hop]
  exact h

theorem lookup {key : String} {next : Except JsError Lookup → Prog JsError Op.Val α} (hsame : SameContent w v)
    (hentry : ∀ e, w.lookup key = some e →
      StoresAgree env R (next (.ok (.entry e))) (next (.ok (.entry e))) w v cs)
    (hmissing : w.lookup key = none → StoresAgree env R (next (.ok .undefined)) (next (.ok .null)) w v cs) :
    StoresAgree env R (.await (.cacheGet key) next) (.await (.cacheGet key) next) w v cs := by
  refine direct_left (cacheGet_direct key w) (direct_right (cacheGet_direct key v) ?_)
  cases hkey : w.lookup key with
  | some e =>
      rw [get_of_some hkey, get_of_some ((hsame.lookup_now key).trans hkey)]
      exact hentry e hkey
  | none =>
      rw [get_of_none hkey, get_of_none ((hsame.lookup_now key).trans hkey)]
      exact hmissing hkey

theorem of_blind (h : Blind p) (hsame : SameContent w v) (hE : ∀ e, E e e) (cs : List Choice) :
    StoresAgree env (Alike E) p p w v cs :=
  .of_related (h.mono fun e _ he => he ▸ hE e) hsame cs

/-- A program that throws where there is no entry. -/
theorem strict {key : String} {next : Except JsError Lookup → Prog JsError Op.Val α} {e e' : JsError}
    (hsame : SameContent w v) (hE : ∀ e, E e e) (hentry : ∀ entry, Blind (next (.ok (.entry entry))))
    (hundefined : next (.ok .undefined) = .settled (.error e)) (hnull : next (.ok .null) = .settled (.error e'))
    (hknown : (∀ e e', E e e') ∨ (w.lookup key).isSome = true) :
    StoresAgree env (Alike E) (.await (.cacheGet key) next) (.await (.cacheGet key) next) w v cs := by
  refine lookup hsame (fun entry _ => ?_) fun hmissing => ?_
  · exact of_blind (hentry entry) hsame hE cs
  · rcases hknown with hall | hfound
    · rw [hundefined, hnull]
      exact .both (.error (hall e e')) hsame
    · rw [hmissing] at hfound
      cases hfound

theorem mono (h : StoresAgree env (Alike Eq) p q w v cs) (hE : ∀ e, E e e) : StoresAgree env (Alike E) p q w v cs :=
  Agree.mono h fun _ _ hr => hr.mono fun e _ he => he ▸ hE e

theorem andThen {β : Type} {R' : Except JsError β → Except JsError β → Prop}
    {k k' : Except JsError α → Prog JsError Op.Val β} (h : StoresAgree env R p q w v cs)
    (hk : ∀ r r' w' v' cs', R r r' → SameContent w' v' → StoresAgree env R' (k r) (k' r') w' v' cs') :
    StoresAgree env R' (p.andThen k) (q.andThen k') w v cs := by
  unfold StoresAgree
  rw [Machine.perform_andThen, Machine.perform_andThen]
  exact h.bind hk

theorem bind_pure {β : Type} {f : α → β} (h : StoresAgree env (Alike E) p q w v cs) :
    StoresAgree env (Alike E) (p >>= fun a => pure (f a)) (q >>= fun a => pure (f a)) w v cs :=
  h.andThen fun _ _ _ _ _ hr hsame => by
    cases hr with
    | ok a => exact .both (.ok _) hsame
    | error he => exact .both (.error he) hsame

end StoresAgree

/-! ## Spin-ups -/

theorem handleAlreadyRunning_agree {agentDto : AgentCreateDto} {e : JsError} (hsame : SameContent w v)
    (hfound : (w.lookup (AgentConfig.new env agentDto).agentId).isSome = true ∨
      (fsStore env).Drops (AgentConfig.new env agentDto).ttl) :
    StoresAgree env (Alike Eq) (AgentManagerService.afterStart env agentDto (.error e))
      (AgentManagerService.afterStart env agentDto (.error e)) w v cs := by
  refine .lookup hsame (fun entry hentry => ?_) fun hmissing => ?_
  · have hblind : Blind ((if agentDto.autoConnect = some true then do
          let _ ← AgentManagerService.createConnection agentDto.agentId
            (.number (AgentConfig.new env agentDto).adminPort) agentDto.adminApiKey
          return ()
        else return ()) >>= fun _ => AgentManagerService.finishSpinUp env agentDto) := by
      refine .bind ?_ fun _ => finishSpinUp_blind agentDto
      split
      · exact .bind (createInvitation_blind _) fun _ => .settled _
      · exact .settled _
    exact .of_related hblind hsame cs
  · rcases hfound with hfound | hdrops
    · rw [hmissing] at hfound
      cases hfound
    -- one store writes an entry that has expired, and then finds none either
    · have hget : (cached (fsStore env) w (AgentConfig.new env agentDto)).get (fsStore env)
          (AgentConfig.new env agentDto).agentId = .undefined := get_of_none (cached_lookup_of_drops hdrops w)
      refine .direct_left (cacheSet_direct _ _ _ _) (.direct_left (cacheGet_direct _ _) ?_)
      unfold cached at hget
      rw [hget]
      exact .both (.error rfl) (hsame.set_expired hmissing (deadline_le_now hdrops w.now))

theorem spinUpAgent_agree {agentDto : AgentCreateDto} (hsame : SameContent w v)
    (hstart : Startable (fsStore env) (.call (.spinUpAgent agentDto)) w cs) :
    StoresAgree env (Alike Eq) (AgentManagerService.spinUpAgent env agentDto)
      (AgentManagerService.spinUpAgent env agentDto) w v cs := by
  unfold StoresAgree
  rw [AgentManagerService.spinUpAgent_eq, Machine.perform_andThen, Machine.perform_andThen]
  have hagree : StoresAgree env (Alike Eq) (AgentManagerService.startAgent env (AgentConfig.new env agentDto))
      (AgentManagerService.startAgent env (AgentConfig.new env agentDto)) w v cs :=
    .of_related (startAgent_blind _) hsame cs
  rcases hagree.cases with ⟨hw, hv⟩ | ⟨r, r', w₁, v₁, cs₁, hw, hv, hr, hsame₁⟩
  · rw [hw, hv]
    exact .stuck
  · rw [hw, hv, ← hr.eq]
    cases r with
    | ok _ => exact StoresAgree.of_related (finishSpinUp_blind agentDto) hsame₁ cs₁
    | error e =>
        refine handleAlreadyRunning_agree hsame₁ ?_
        have hframe := (startAgent_result (Machine.perform_exec (fun _ _ _ _ => cacheOp_answer) hw)).frame
        rw [hframe]
        exact hstart e w₁ cs₁ hw

/-! ## Items -/

/-- The code does not know which store it has. -/
theorem body_stores (k : Call) : k.body (fsStore env) = k.body env ∧ k.body (redisStore env) = k.body env := by
  cases k <;> exact ⟨rfl, rfl⟩

theorem call_agree {k : Call} (hsame : SameContent w v) (hE : ∀ e, E e e)
    (hstart : Startable (fsStore env) (.call k) w cs) (hknown : (∀ e e', E e e') ∨ Known (.call k) w) :
    StoresAgree env (Alike E) (k.body (fsStore env)) (k.body (redisStore env)) w v cs := by
  rw [(body_stores k).1, (body_stores k).2]
  cases k with
  | spinUpAgent agentDto => exact ((spinUpAgent_agree hsame hstart).mono hE).bind_pure
  | spinDownAgent agentId =>
      exact .of_blind (.bind (spinDownAgent_blind agentId) fun _ => .settled _) hsame hE cs
  | connectAgent agentId adminApiKey =>
      exact .of_blind (.bind (connectAgent_blind agentId adminApiKey) fun _ => .settled _) hsame hE cs
  | createWallet body => exact .of_blind (.bind (createWallet_blind body) fun _ => .settled _) hsame hE cs
  | removeWallet walletName walletKey =>
      exact .of_blind (.bind (removeWallet_blind walletName walletKey) fun _ => .settled _) hsame hE cs
  | handleRequest agentId route topic body =>
      refine .strict hsame hE (fun entry => ?_) rfl rfl hknown
      exact .bind (.bind (.settled (.ok entry)) fun agent => .bind (.settled _) fun _ =>
        .call ⟨trivial, fun _ _ h => h⟩) fun _ => .settled _
  | createAgentConnection agentId =>
      refine .strict hsame hE (fun entry => ?_) rfl rfl hknown
      exact .bind (.bind (.settled (.ok entry.adminApiKey)) fun _ => createInvitation_blind _) fun _ => .settled _
  | registerWithTDC agentId body =>
      refine .strict hsame hE (fun entry => ?_) rfl rfl hknown
      exact .bind (.bind (.bind (.settled (.ok entry.adminApiKey)) fun _ => createInvitation_blind _) fun _ =>
        .bind (.settled _) fun _ => .bind (register_blind _ _) fun _ => .settled _) fun _ => .settled _

theorem event_agree (hsame : SameContent w v) (e : Event) :
    (event e w = none ∧ event e v = none) ∨ ∃ w' v' ks, event e w = some (w', ks) ∧ event e v = some (v', ks) ∧
      SameContent w' v' ∧ (ks = [] ∨ ∃ agentId, ks = [.spinDownAgent agentId]) := by
  cases e with
  | pass ms =>
      by_cases hms : 0 ≤ ms
      · refine .inr ⟨_, _, _, if_pos hms, if_pos hms, ⟨?_, fun t ht key => ?_⟩, .inl rfl⟩
        · rw [hsame.frame]
        · have hnow : (w.now : WithTop ℚ) ≤ ((w.now + ms : ℚ) : WithTop ℚ) :=
            WithTop.coe_le_coe.mpr (le_add_of_nonneg_right hms)
          exact hsame.lookup t (hnow.trans ht) key
      · exact .inl ⟨if_neg hms, if_neg hms⟩
  | evict key => exact .inr ⟨_, _, _, rfl, rfl, hsame.del key, .inl rfl⟩
  | fire t =>
      have htimers : v.timers = w.timers := by rw [hsame.frame]
      by_cases ht : t ∈ w.timers ∧ t.due ≤ w.now
      · have ht' : t ∈ v.timers ∧ t.due ≤ v.now := by rwa [htimers, hsame.now]
        refine .inr ⟨_, _, _, if_pos ht, if_pos ht', ⟨?_, hsame.lookup⟩, .inr ⟨_, rfl⟩⟩
        rw [hsame.frame]
      · have ht' : ¬(t ∈ v.timers ∧ t.due ≤ v.now) := by rwa [htimers, hsame.now]
        exact .inl ⟨if_neg ht, if_neg ht'⟩

theorem item_agree {i : Item Call Event} (hsame : SameContent w v) (hE : ∀ e, E e e)
    (hstart : Startable (fsStore env) i w cs) (hknown : (∀ e e', E e e') ∨ Known i w) :
    Agree (List.Forall₂ (Alike E)) SameContent ((system (fsStore env)).performItem (cacheOp (fsStore env)) i w cs)
      ((system (redisStore env)).performItem (cacheOp (redisStore env)) i v cs) := by
  have hcall : ∀ {k : Call} {w v : World} {cs : List Choice}, SameContent w v → Startable (fsStore env) (.call k) w cs →
      ((∀ e e', E e e') ∨ Known (.call k) w) → Agree (List.Forall₂ (Alike E)) SameContent
        ((system (fsStore env)).performCalls (cacheOp (fsStore env)) [k] w cs)
        ((system (redisStore env)).performCalls (cacheOp (redisStore env)) [k] v cs) :=
    fun hsame hstart hknown => performCall_agree (call_agree hsame hE hstart hknown)
  cases i with
  | call k => exact hcall hsame hstart hknown
  | env e =>
      simp only [System.performItem]
      rcases event_agree hsame e with ⟨hw, hv⟩ | ⟨w', v', ks, hw, hv, hsame', hks⟩
      · rw [show (system (fsStore env)).env e w = none from hw, show (system (redisStore env)).env e v = none from hv]
        exact .stuck
      · rw [show (system (fsStore env)).env e w = _ from hw, show (system (redisStore env)).env e v = _ from hv]
        rcases hks with rfl | ⟨agentId, rfl⟩
        · exact .both .nil hsame'
        · exact hcall hsame' trivial (.inr trivial)

end GuardianshipAgency.Caching
