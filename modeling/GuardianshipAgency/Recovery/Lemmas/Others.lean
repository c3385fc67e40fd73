import GuardianshipAgency.Recovery.Lemmas.Retries

/-!
# Other callers

Calls that neither write to the entry of a name nor remove wallets leave the name undisturbed.
-/

namespace GuardianshipAgency.Recovery

open Js Async Expiring Agency Lifecycle

variable {env : Env} {name : String} {w w' : World}

namespace Undisturbed

theorem refl (hw : Sound w.server) : Undisturbed name w w :=
  ⟨hw, ⟨fun _ _ h => h, fun _ _ _ _ h => h⟩, fun _ h _ => h, fun _ h => h⟩

theorem trans {w₁ w₂ w₃ : World} (h : Undisturbed name w₁ w₂) (h' : Undisturbed name w₂ w₃) :
    Undisturbed name w₁ w₃ where
  server := h'.server
  keeps :=
    { wallets := fun wallet hname hwallet => h'.keeps.wallets wallet hname (h.keeps.wallets wallet hname hwallet)
      issued := fun token wallet hname hwallet hissued =>
        h'.keeps.issued token wallet hname (h.keeps.wallets wallet hname hwallet)
          (h.keeps.issued token wallet hname hwallet hissued) }
  wallets wallet hwallet hname := h.wallets wallet (h'.wallets wallet hwallet hname) hname
  entry e he := h.entry e (h'.entry e he)

end Undisturbed

/-! ## Calls -/

def Apart (name : String) : Op → Prop
  | .cacheSet key _ _ => key ≠ name
  | .createWallet _ data => data.walletName ≠ name
  | .removeWallet _ _ _ => False
  | .delay ms => 0 ≤ ms
  | _ => True

theorem Apart.not_removes {op : Op} (hop : Apart name op) (target : AdminTarget) (walletId : Option String)
    (key : String) : op ≠ .removeWallet target walletId key := by
  rintro rfl
  exact hop

theorem lookup_of_del {key : String} {e : CacheEntry} (he : (w.del key).lookup name = some e) :
    w.lookup name = some e := by
  rw [World.lookup, World.del, Store.lookup_erase, Option.ite_none_left_eq_some] at he
  exact he.2

theorem Apart.entry {op : Op} (hop : Apart name op) {d : Detail} {v} (h : effect env op d w = some (v, w'))
    {e : CacheEntry} (he : w'.lookup name = some e) : w.lookup name = some e := by
  rcases effect_cases h with rfl | ⟨-, hw⟩ | ⟨key, entry, ttl, rfl, rfl⟩ | ⟨key, rfl, rfl⟩ | hserver |
    ⟨ms, d', rfl, hd, rfl⟩ | ⟨_, _, rfl, rfl⟩
  · exact he
  · rw [hw] at he
    exact he
  · rwa [World.lookup, World.set, Store.lookup_congr (Store.write_of_ne _ _ _ (Ne.symm hop))] at he
  · exact lookup_of_del he
  · rw [hserver.frame] at he
    exact he
  · have hnow : w.now ≤ w.now + d' := le_add_of_nonneg_right (le_trans hop hd)
    exact Store.lookup_of_le (WithTop.coe_le_coe.mpr hnow) he
  · exact he

theorem Undisturbed.effect {op : Op} (hop : Apart name op) {d : Detail} {v} (hw : Sound w.server)
    (h : effect env op d w = some (v, w')) : Undisturbed name w w' where
  server := sound_effect hw h
  keeps := keeps_effect hop.not_removes name hw h
  wallets wallet hwallet hname := by
    rcases effect_server h with he | hserver
    · rwa [he] at hwallet
    cases hserver with
    | createWallet =>
        rcases List.mem_append.mp hwallet with hwallet | hwallet
        · exact hwallet
        · rw [List.mem_singleton] at hwallet
          subst hwallet
          exact absurd hname hop
    | getToken => exact hwallet
    | removeWallet => exact absurd hop id
  entry _ he := hop.entry h he

theorem Undisturbed.exec {α : Type} {p : Prog JsError Op.Val α} {r : Except JsError α} (hp : p.Calls (Apart name))
    (hw : Sound w.server) (h : (machine env).Exec p w r w') : Undisturbed name w w' := by
  refine Machine.Exec.of_calls (fun w w' => Sound w.server → Undisturbed name w w') hp (fun _ hw => .refl hw) ?_ ?_ h hw
  · intro w₁ w₂ w₃ h h' hw
    exact (h hw).trans (h' (h hw).server)
  · intro op ch w a w' hop ha hw
    exact answer_world (Undisturbed name) (.refl hw) (fun _ _ _ he => .effect hop hw he) ha

/-- The call does not write to the entry of that name, and removes no wallet. -/
def Elsewhere (env : Env) (name : String) : Call → Prop
  | .spinUpAgent agentDto => (AgentConfig.new env agentDto).agentId ≠ name
  | .createWallet body => body.walletName ≠ name
  | .removeWallet _ _ => False
  | _ => True

theorem manageOp_apart {config : AgentConfig} (hname : config.agentId ≠ name) {op : Op} (hop : ManageOp config op) :
    Apart name op := by
  cases op with
  | cacheSet key entry ttl => exact hop.1 ▸ hname
  | delay ms => exact hop ▸ (by norm_num : (0 : ℚ) ≤ 1000)
  | cacheGet _ | status _ | createInvitation _ | getTime | setTimeout _ _ => trivial
  | _ => cases hop

theorem createAgentConnection_apart (agentId : String) :
    (TransactionService.createAgentConnection env agentId).Calls (Apart name) := by
  refine .bind (.bind (.call trivial) fun agentData => ?_) fun _ => .call trivial
  split
  · trivial
  · exact .bind trivial fun _ => trivial

theorem body_apart {k : Call} (hk : Elsewhere env name k) : (k.body env).Calls (Apart name) := by
  cases k with
  | spinUpAgent agentDto =>
      refine .bind ((AgentManagerService.spinUpAgent_calls env agentDto).mono ?_) fun _ => trivial
      rintro op (hop | hop)
      · cases op with
        | createContainer _ | startContainer _ | createNamespacedPod _ | createNamespacedService _ => trivial
        | _ => cases hop
      · exact manageOp_apart hk hop
  | spinDownAgent agentId =>
      refine .bind ((AgentManagerService.spinDownAgent_calls env agentId).mono ?_) fun _ => trivial
      intro op hop
      cases op with
      | cacheDel _ | stopContainer _ | deleteNamespacedService _ | deleteNamespacedPod _ => trivial
      | _ => cases hop
  | connectAgent agentId adminApiKey =>
      have hd : Apart name (.delay 1000) := by norm_num [Apart]
      exact .bind (.bind (.call trivial) fun _ =>
        .bind (AgentManagerService.pingConnectionWithRetry_calls (Apart name) trivial trivial hd _) fun _ =>
          .bind (.call trivial) fun _ => trivial) fun _ => trivial
  | createWallet body =>
      refine .bind ((MultitenantService.createWallet_calls env body).mono ?_) fun _ => trivial
      intro op hop
      cases op with
      | createWallet target data =>
          simp only [Apart, hop.1]
          exact hk
      | cacheSet key entry ttl => exact hop.1 ▸ hk
      | cacheGet _ | getAllWallets _ | getToken _ _ _ | createInvitation _ => trivial
      | _ => cases hop
  | removeWallet walletName walletKey => exact absurd hk id
  | handleRequest agentId route topic body =>
      exact .bind (.bind (.call trivial) fun _ => .bind trivial fun _ => .bind trivial fun _ => .call trivial)
        fun _ => trivial
  | createAgentConnection agentId => exact .bind (createAgentConnection_apart agentId) fun _ => trivial
  | registerWithTDC agentId body =>
      exact .bind (.bind (createAgentConnection_apart agentId) fun _ => .bind trivial fun _ =>
        .bind (.call trivial) fun _ => trivial) fun _ => trivial

/-! ## Turns -/

theorem undisturbed_serial {ks : List Call} (hks : ∀ k ∈ ks, Elsewhere env name k) (hw : Sound w.server)
    (h : (system env).Serial w ks w') : Undisturbed name w w' := by
  induction h with
  | nil => exact .refl hw
  | cons hbody _ ih =>
      have hfirst := Undisturbed.exec (body_apart (hks _ List.mem_cons_self)) hw hbody
      exact hfirst.trans (ih (fun k hk => hks k (List.mem_cons_of_mem _ hk)) hfirst.server)

theorem undisturbed_event (env : Env) (name : String) {e : Event} {ks : List Call} (hw : Sound w.server)
    (h : event e w = some (w', ks)) : Undisturbed name w w' ∧ ∀ k ∈ ks, Elsewhere env name k := by
  have hrefl : Undisturbed name w w := .refl hw
  rcases event_cases h with ⟨ms, hms, rfl, rfl⟩ | ⟨key, rfl, rfl⟩ | ⟨t, -, -, rfl, rfl⟩
  · have hnow : w.now ≤ w.now + ms := le_add_of_nonneg_right hms
    refine ⟨{ hrefl with entry := fun e he => ?_ }, fun k hk => absurd hk List.not_mem_nil⟩
    exact Store.lookup_of_le (WithTop.coe_le_coe.mpr hnow) he
  · exact ⟨{ hrefl with entry := fun _ => lookup_of_del }, fun k hk => absurd hk List.not_mem_nil⟩
  · refine ⟨{ hrefl with entry := fun _ he => he }, fun k hk => ?_⟩
    rw [List.mem_singleton.mp hk]
    trivial

/-- Whatever happens elsewhere, the name is undisturbed. -/
theorem undisturbed_history {ms : List (Moment JsError World Call Event Reply)} (hw : Sound w.server)
    (h : (system env).History w ms w')
    (hms : ∀ m ∈ ms, ∀ k r, m.turn = .call k r → Elsewhere env name k) : Undisturbed name w w' := by
  induction h with
  | nil => exact .refl hw
  | snoc _ htakes ih =>
      have hbefore := ih fun m hm => hms m (List.mem_append_left _ hm)
      refine hbefore.trans ?_
      cases htakes with
      | call hbody =>
          have hk := hms _ (List.mem_append_right _ (List.mem_singleton_self _)) _ _ rfl
          exact .exec (body_apart hk) hbefore.server hbody
      | env hevent hserial =>
          obtain ⟨hundisturbed, hks⟩ := undisturbed_event env name hbefore.server hevent
          exact hundisturbed.trans (undisturbed_serial hks hundisturbed.server hserial)

end GuardianshipAgency.Recovery
