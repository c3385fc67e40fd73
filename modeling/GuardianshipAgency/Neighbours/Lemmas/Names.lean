import GuardianshipAgency.Async.Separation
import GuardianshipAgency.Neighbours.Lemmas.Alike
import GuardianshipAgency.Neighbours.Lemmas.Knowledge

/-!
# Leaving names out of a run

The agents and wallets of `ids` go on alike without the others. Only the list of all wallets shows the others.
-/

namespace GuardianshipAgency.Sharing

open Js Async Expiring Agency

variable {env : Env} {ids : String → Bool} {name : String}

/-- What the server has to do with `ids`. -/
def onlyServer (ids : String → Bool) (s : Server) : Server where
  wallets := s.wallets.filter fun wallet => ids wallet.name
  registered := s.registered.filter fun wallet => ids wallet.name
  issued := s.issued.filter fun p => ids p.2.name

structure NamesAlike (ids : String → Bool) (w v : World) : Prop extends AgentsAlike ids w v where
  server : v.server = onlyServer ids w.server

/-! ## Answers that are the same to a name -/

/-- In the list of all wallets a call looks for its own name. -/
def SameFor (name : String) : (op : Op) → Except JsError op.Val → Except JsError op.Val → Prop
  | .getAllWallets _, r, r' =>
      r.map (fun (records : List WalletRecord) => records.find? fun wallet => wallet.walletName == name) =
        r'.map fun (records : List WalletRecord) => records.find? fun wallet => wallet.walletName == name
  | _, r, r' => r = r'

theorem SameFor.refl (name : String) (op : Op) (r : Except JsError op.Val) : SameFor name op r r := by
  cases op <;> rfl

theorem find?_filter_of_imp {α : Type} {l : List α} {p q : α → Bool} (h : ∀ a ∈ l, q a = true → p a = true) :
    (l.filter p).find? q = l.find? q := by
  rw [List.find?_filter]
  refine List.find?_congr fun a ha => ?_
  cases hq : q a with
  | true => simp [h a ha hq]
  | false => simp

theorem server_unchanged {op : Op} (hop : OfAgent name op ∨ OnKey name op) {d : Detail} {w w' : World} {x}
    (h : effect env op d w = some (x, w')) : w'.server = w.server := by
  rcases effect_server h with hserver | hserver
  · exact hserver
  · cases hserver <;> rcases hop with hop | hop <;> exact absurd hop fun h => h

/-- A wallet with an id that is known to belong to a name has that name. -/
theorem name_of_walletId {s : Server} (hs : s.Ok) {id : String} (hid : (Fact.walletId id).Holds name s)
    {wallet : Wallet} (hwallet : wallet ∈ s.wallets) (hwid : wallet.id = id) : wallet.name = name := by
  obtain ⟨own, hown, rfl, hname⟩ := hid
  rw [hs.ids _ (hs.known hwallet) _ hown hwid, hname]

theorem name_of_token {s : Server} (hs : s.Ok) {token : String} (htoken : (Fact.token token).Holds name s)
    {wallet : Wallet} (hwallet : (token, wallet) ∈ s.issued) : wallet.name = name := by
  obtain ⟨own, hown, hname⟩ := htoken
  rw [hs.tokens _ _ hwallet _ hown, hname]

namespace NamesAlike

variable {w v w' : World} {d : Detail}

theorem createWallet (h : NamesAlike ids w v) (hid : ids name = true) {target : AdminTarget} {data : WalletData}
    (hname : data.walletName = name) {x} (he : effect env (.createWallet target data) d w = some (x, w')) :
    ∃ v', effect env (.createWallet target data) d v = some (x, v') ∧ NamesAlike ids w' v' := by
  cases d with
  | wallet walletId token =>
      obtain ⟨hnew, he⟩ := Option.ite_none_left_eq_some.mp he
      cases he
      refine ⟨v.register { id := walletId, name := data.walletName, key := data.walletKey } token, ?_,
        ⟨h.now, h.objects, h.cache, h.timers⟩, ?_⟩
      · refine if_neg fun hv => hnew ?_
        rw [h.server] at hv
        simp only [onlyServer, Bool.or_eq_true, List.any_eq_true, List.mem_filter] at hv ⊢
        rcases hv with (⟨y, ⟨hy, -⟩, hq⟩ | ⟨y, ⟨hy, -⟩, hq⟩) | ⟨y, ⟨hy, -⟩, hq⟩
        · exact .inl (.inl ⟨y, hy, hq⟩)
        · exact .inl (.inr ⟨y, hy, hq⟩)
        · exact .inr ⟨y, hy, hq⟩
      · simp [World.register, onlyServer, h.server, List.filter_append, hname, hid]
  | _ => cases he

theorem getAllWallets (h : NamesAlike ids w v) (hid : ids name = true) {target : AdminTarget} {x : List WalletRecord}
    (he : effect env (.getAllWallets target) d w = some (x, w')) :
    ∃ d' x' v', effect env (.getAllWallets target) d' v = some (x', v') ∧
      SameFor name (.getAllWallets target) (.ok x) (.ok x') ∧ NamesAlike ids w' v' := by
  cases d with
  | listed wallets =>
      obtain ⟨hperm, he⟩ := Option.ite_none_right_eq_some.mp he
      cases he
      refine ⟨.listed (wallets.filter fun wallet => ids wallet.name), _, v, if_pos ?_, congrArg Except.ok ?_, h⟩
      · rw [h.server]
        exact hperm.filter _
      · dsimp only
        rw [List.find?_map, List.find?_map, find?_filter_of_imp]
        intro wallet _ hwallet
        have hname : wallet.name = name := beq_iff_eq.mp hwallet
        rw [hname, hid]
  | _ => cases he

theorem getToken (h : NamesAlike ids w v) (hw : w.server.Ok) (hid : ids name = true) {target : AdminTarget}
    {walletId walletKey : String} (hown : (Fact.walletId walletId).Holds name w.server) {x}
    (he : effect env (.getToken target walletId walletKey) d w = some (x, w')) :
    ∃ v', effect env (.getToken target walletId walletKey) d v = some (x, v') ∧ NamesAlike ids w' v' := by
  cases d with
  | token token =>
      have hfind : (v.server.wallets.find? fun wallet => wallet.id == walletId && wallet.key == walletKey) =
          w.server.wallets.find? fun wallet => wallet.id == walletId && wallet.key == walletKey := by
        rw [h.server]
        refine find?_filter_of_imp fun wallet hwallet hkey => ?_
        rw [name_of_walletId hw hown hwallet (beq_iff_eq.mp (Bool.and_eq_true_iff.mp hkey).1), hid]
      delta effect at he ⊢
      dsimp only at he ⊢
      rw [hfind]
      cases hsome : w.server.wallets.find? fun wallet => wallet.id == walletId && wallet.key == walletKey with
      | none =>
          rw [hsome] at he
          cases he
      | some wallet =>
          rw [hsome] at he
          obtain ⟨hfresh, he⟩ := Option.ite_none_right_eq_some.mp he
          cases he
          have hkey := List.find?_some hsome
          have hname : wallet.name = name := name_of_walletId hw hown (List.mem_of_find?_eq_some hsome)
            (beq_iff_eq.mp (Bool.and_eq_true_iff.mp hkey).1)
          refine ⟨v.issue wallet _, if_pos ?_, ⟨h.now, h.objects, h.cache, h.timers⟩, ?_⟩
          · rw [h.server]
            exact List.all_eq_true.mpr fun p hp => List.all_eq_true.mp hfresh p (List.mem_filter.mp hp).1
          · simp [World.issue, onlyServer, h.server, List.filter_append, hname, hid]
  | _ => cases he

theorem removeWallet (h : NamesAlike ids w v) (hw : w.server.Ok) (hid : ids name = true) {target : AdminTarget}
    {walletId walletKey : String} (hown : (Fact.walletId walletId).Holds name w.server) {x}
    (he : effect env (.removeWallet target (some walletId) walletKey) d w = some (x, w')) :
    ∃ v', effect env (.removeWallet target (some walletId) walletKey) d v = some (x, v') ∧ NamesAlike ids w' v' := by
  cases d with
  | data data =>
      obtain ⟨hany, he⟩ := Option.ite_none_right_eq_some.mp he
      cases he
      refine ⟨v.unregister walletId, if_pos ?_, ⟨h.now, h.objects, h.cache, h.timers⟩, ?_⟩
      · obtain ⟨wallet, hwallet, hwid⟩ := List.any_eq_true.mp hany
        have hname := name_of_walletId hw hown hwallet (beq_iff_eq.mp hwid)
        rw [h.server]
        exact List.any_eq_true.mpr ⟨wallet, List.mem_filter.mpr ⟨hwallet, by rw [hname, hid]⟩, hwid⟩
      · simp [World.unregister, onlyServer, h.server, List.filter_filter, Bool.and_comm]
  | _ => cases he

theorem createInvitation (h : NamesAlike ids w v) (hw : w.server.Ok) (hid : ids name = true) {target : AdminTarget}
    (hhost : target.host = .multitenant)
    (hown : ∀ token, target.token = some token → (Fact.token token).Holds name w.server) {x}
    (he : effect env (.createInvitation target) d w = some (x, w')) :
    ∃ v', effect env (.createInvitation target) d v = some (x, v') ∧ NamesAlike ids w' v' := by
  cases d with
  | invitation invitation =>
      obtain ⟨haccepts, he⟩ := Option.ite_none_right_eq_some.mp he
      cases he
      refine ⟨v, if_pos ?_, h⟩
      simp only [World.accepts, hhost, Bool.and_eq_true, List.any_eq_true, beq_iff_eq, decide_eq_true_eq] at haccepts ⊢
      obtain ⟨hkey, ⟨token, wallet⟩, hissued, htoken, hwallet⟩ := haccepts
      have hname : ids wallet.name = true := by rw [name_of_token hw (hown token htoken.symm) hissued, hid]
      rw [h.server]
      exact ⟨hkey, (token, wallet), List.mem_filter.mpr ⟨hissued, hname⟩, htoken, List.mem_filter.mpr ⟨hwallet, hname⟩⟩
  | _ => cases he

/-- A call that stays finds the same, less the other wallets. -/
theorem kept (h : NamesAlike ids w v) (hw : w.server.Ok) {k : Call} (hid : ids (nameOf k) = true) {op : Op}
    (hop : Knows w k op) {x} (he : effect env op d w = some (x, w')) :
    ∃ d' x' v', effect env op d' v = some (x', v') ∧ SameFor (nameOf k) op (.ok x) (.ok x') ∧ NamesAlike ids w' v' := by
  have hframe : ∀ {v'}, OfAgent (nameOf k) op ∨ OnKey (nameOf k) op → effect env op d v = some (x, v') →
      AgentsAlike ids w' v' → ∃ d' x' v', effect env op d' v = some (x', v') ∧ SameFor (nameOf k) op (.ok x) (.ok x') ∧
        NamesAlike ids w' v' := fun hop hv' halike =>
    ⟨d, x, _, hv', .refl _ _ _, halike, by rw [server_unchanged hop hv', server_unchanged hop he, h.server]⟩
  cases htenants : ofTenants k with
  | false =>
      obtain ⟨v', hv', halike⟩ := h.ofAgent hid (hop.agent htenants) he
      exact hframe (.inl (hop.agent htenants)) hv' halike
  | true =>
      have hneeds := hop.needs
      rcases hop.tenant htenants with hserver | hkey
      · have hsame : (∃ v', effect env op d v = some (x, v') ∧ NamesAlike ids w' v') → ∃ d' x' v',
            effect env op d' v = some (x', v') ∧ SameFor (nameOf k) op (.ok x) (.ok x') ∧ NamesAlike ids w' v' :=
          fun ⟨v', hv', halike⟩ => ⟨d, x, v', hv', .refl _ _ _, halike⟩
        cases op with
        | createWallet target data => exact hsame (h.createWallet hid (hop.wallet target data rfl) he)
        | getAllWallets target => exact h.getAllWallets hid he
        | getToken target walletId walletKey =>
            exact hsame (h.getToken hw hid (hneeds (.walletId walletId) (by simp [Sharing.needs])) he)
        | removeWallet target walletId walletKey =>
            cases walletId with
            | none => cases d <;> cases he
            | some walletId =>
                exact hsame (h.removeWallet hw hid (hneeds (.walletId walletId) (by simp [Sharing.needs])) he)
        | createInvitation target =>
            refine hsame (h.createInvitation hw hid hserver (fun token htoken => ?_) he)
            exact hneeds (.token token) (by simp [Sharing.needs, htoken])
        | _ => exact absurd hserver fun h => h
      · obtain ⟨v', hv', halike⟩ := h.onKey hid he hkey
        exact hframe (.inr hkey) hv' halike

/-! ## Calls left out -/

/-- What is done with the other wallets goes unnoticed. -/
theorem onlyServer_left {k : Call} (hw : w.server.Ok) (hid : ids (nameOf k) = false) {op : Op} (hop : Knows w k op) {x}
    (he : effect env op d w = some (x, w')) : onlyServer ids w'.server = onlyServer ids w.server := by
  have hneeds := hop.needs
  rcases effect_server he with hserver | hserver
  · rw [hserver]
  cases hserver with
  | @createWallet target data id token w =>
      have hname : data.walletName = nameOf k := hop.wallet target data rfl
      simp [World.register, onlyServer, List.filter_append, hname, hid]
  | @getToken target walletId walletKey token wallet w hwallet hwid =>
      have hname := name_of_walletId hw (hneeds (.walletId walletId) (by simp [Sharing.needs])) hwallet hwid
      simp [World.issue, onlyServer, List.filter_append, hname, hid]
  | @removeWallet target walletId =>
      have hown := hneeds (.walletId walletId) (by simp [Sharing.needs])
      have hother : ∀ wallet ∈ w.server.wallets, ids wallet.name = true → wallet.id ≠ walletId := by
        intro wallet hwallet hname hwid
        rw [name_of_walletId hw hown hwallet hwid, hid] at hname
        cases hname
      simp only [World.unregister, onlyServer, List.filter_filter, Server.mk.injEq, and_true]
      refine List.filter_congr fun wallet hwallet => ?_
      cases hname : ids wallet.name with
      | true => simp [hother wallet hwallet hname]
      | false => rfl

theorem left (h : NamesAlike ids w v) (hw : w.server.Ok) {k : Call} (hid : ids (nameOf k) = false) {op : Op}
    (hop : Knows w k op) {ch : Choice} {a} (ha : answer env op ch w = some (a, w')) :
    ∃ v', (system env).Moves v (waits op ch) v' ∧ NamesAlike ids w' v' := by
  have hserver : onlyServer ids w'.server = onlyServer ids w.server :=
    answer_world (fun w w' => onlyServer ids w'.server = onlyServer ids w.server) rfl
      (fun d x w' he => onlyServer_left hw hid hop he) ha
  have hmoves : ∃ v', (system env).Moves v (waits op ch) v' ∧ AgentsAlike ids w' v' := by
    cases htenants : ofTenants k with
    | false => exact h.leavesAgent hid (hop.agent htenants) ha
    | true => exact h.leavesWallet hid (hop.tenant htenants) ha
  obtain ⟨v', hmoves, halike⟩ := hmoves
  refine ⟨v', hmoves, halike, ?_⟩
  have hsame : v'.server = v.server := by
    cases he : waits op ch with
    | none =>
        rw [he] at hmoves
        cases hmoves
        rfl
    | some e =>
        rw [he] at hmoves
        exact event_server hmoves
  rw [hsame, h.server, hserver]

end NamesAlike

end GuardianshipAgency.Sharing
