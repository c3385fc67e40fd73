import GuardianshipAgency.Lifecycle.Theorems
import GuardianshipAgency.Recovery.Lemmas.Calm
import GuardianshipAgency.Recovery.Lemmas.Halves
import GuardianshipAgency.Recovery.Lemmas.Others

/-!
# Properties of failed calls
-/

namespace GuardianshipAgency.Recovery

open Js Async Expiring Agency Lifecycle

variable {env : Env}

/-! ## Spin-downs -/

/-- A spin-down of a running agent that the cache knows leaves all of it or nothing if and only if its first call fails
without effect, or it makes all its calls and all of them take effect. -/
theorem spinDownAgent_allOrNothing_iff {id : String} {w w' : World} {r : Except JsError Unit} {cs : List Choice}
    (hcached : (w.lookup id).isSome) (hrunning : (w.running env id).isSome)
    (h : (machine env).play (AgentManagerService.spinDownAgent env id) w cs = some (r, w')) :
    AllOrNothing env id w w' ↔ Clean env cs := by
  rcases spinDownAgent_inv h with ⟨e, rfl, rfl⟩ | ⟨e, rfl, rfl⟩ | ⟨cs', rfl, hrest⟩
  · exact iff_of_true (allOrNothing_refl id w') (.inl ⟨e, rfl⟩)
  · refine iff_of_false (not_allOrNothing hcached (del_lookup w id) (not_cleared_of_running hrunning rfl)) ?_
    cases hm : env.managerType with
    | docker | k8s => simp [Clean, removals, hm]
  · rw [clean_cons_answered]
    cases hm : env.managerType with
    | docker => exact stopAgent_clean_docker hm hcached (del_lookup w id) hrunning hrest
    | k8s => exact stopAgent_clean_k8s hm hcached (del_lookup w id) hrunning hrest

theorem spinDownAgent_allOrNothing_started : ∃ w w' r,
    (machine sampleEnv).play (AgentManagerService.spinDownAgent sampleEnv "agent") w [fine, fine, fine] =
      some (r, w') ∧ AllOrNothing sampleEnv "agent" w w' := by
  have hplay : ((machine sampleEnv).play (AgentManagerService.spinUpAgent sampleEnv sampleAgent) .empty
      [fine, fine, fine, fine]).bind (fun rw =>
        ((machine sampleEnv).play (AgentManagerService.spinDownAgent sampleEnv "agent") rw.2 [fine, fine, fine]).map
          fun _ => ((rw.2.lookup "agent").isSome, (rw.2.running sampleEnv "agent").isSome)) = some (true, true) := by
    decide_cbv
  obtain ⟨⟨r₁, w⟩, -, he⟩ := Option.bind_eq_some_iff.mp hplay
  obtain ⟨⟨r₂, w'⟩, hdown, he⟩ := Option.map_eq_some_iff.mp he
  obtain ⟨hcached, hrunning⟩ := Prod.mk.inj he
  refine ⟨w, w', r₂, hdown, (spinDownAgent_allOrNothing_iff hcached hrunning hdown).mpr (.inr ⟨rfl, ?_⟩)⟩
  simp [fine, takesEffect]

/-- The entry of an agent can go while the agent keeps running. -/
theorem not_forall_allOrNothing : ¬∀ (w : World) w' r cs, (w.lookup "agent").isSome →
    (w.running sampleEnv "agent").isSome →
    (machine sampleEnv).play (AgentManagerService.spinDownAgent sampleEnv "agent") w cs = some (r, w') →
      AllOrNothing sampleEnv "agent" w w' := by
  intro h
  have hplay : ((machine sampleEnv).play (AgentManagerService.spinUpAgent sampleEnv sampleAgent) .empty
      [fine, fine, fine, fine]).bind (fun rw =>
        ((machine sampleEnv).play (AgentManagerService.spinDownAgent sampleEnv "agent") rw.2
          [fine, .failed (Json.typeError "no service")]).map fun rw' =>
            ((rw.2.lookup "agent").isSome, (rw.2.running sampleEnv "agent").isSome,
              (rw'.2.lookup "agent").isNone, (rw'.2.runtime.pods "agent").isSome)) =
          some (true, true, true, true) := by decide_cbv
  obtain ⟨⟨r₁, w⟩, -, he⟩ := Option.bind_eq_some_iff.mp hplay
  obtain ⟨⟨r₂, w'⟩, hdown, he⟩ := Option.map_eq_some_iff.mp he
  simp only [Prod.mk.injEq] at he
  obtain ⟨hcached, hrunning, hgone, hpod⟩ := he
  refine not_allOrNothing hcached (Option.isNone_iff_eq_none.mp hgone) ?_ (h w w' r₂ _ hcached hrunning hdown)
  rintro ⟨hnone, -⟩
  rw [hnone] at hpod
  cases hpod

/-! ## Wallets -/

/-- However a `createWallet` ends and whatever becomes of the entry: if nobody else uses the name, another call without
failures succeeds as a single one does. -/
theorem createWallet_retried {body : WalletCreateDto} {w w₁ w₂ : World}
    {r : Except JsError MultitenantService.WalletReply} (hw : Ready body w) (hids : Identified w.server)
    (hfirst : (machine env).Exec (MultitenantService.createWallet env body) w r w₁)
    (hbetween : Undisturbed body.walletName w₁ w₂) (hids₂ : Identified w₂.server) :
    (calmMachine env).Settles (MultitenantService.createWallet env body) (Succeeded env body) w ∧
      (calmMachine env).Settles (MultitenantService.createWallet env body) (Succeeded env body) w₂ := by
  have hw₂ : Ready body w₂ := (createWallet_ready hw hfirst).undisturbed hbetween
  exact ⟨createWallet_settles hw hids, createWallet_settles hw₂ hids₂⟩

def otherWallet : WalletCreateDto := { walletName := "other", walletKey := "key" }

theorem ready_empty (body : WalletCreateDto) : Ready body .empty where
  server :=
    { known := fun _ h => h
      ids := fun _ h => absurd h List.not_mem_nil
      tokens := fun _ _ h => absurd h List.not_mem_nil
      names := List.nodup_nil }
  keys _ h := absurd h List.not_mem_nil
  entry _ h := by cases h

/-- The server registers the wallet and its answer is an error. Before the second call, another caller creates a
wallet. -/
theorem createWallet_retried_rejected : ∃ w₁ e ms w₂ r w₃,
    (machine sampleEnv).Exec (MultitenantService.createWallet sampleEnv sampleWallet) .empty (.error e) w₁ ∧
    (system sampleEnv).History w₁ ms w₂ ∧ ms.length = 1 ∧
    (calmMachine sampleEnv).Exec (MultitenantService.createWallet sampleEnv sampleWallet) w₂ r w₃ ∧
    Succeeded sampleEnv sampleWallet r w₃ := by
  have hplay : ((machine sampleEnv).play (MultitenantService.createWallet sampleEnv sampleWallet) .empty
      [.done (.wallet "id" "token") (.rejected (Json.typeError "Bad Gateway"))]).bind (fun rw =>
        ((machine sampleEnv).play ((Call.createWallet otherWallet).body sampleEnv) rw.2
          [.done (.wallet "otherId" "otherToken") .answered, fine]).map fun rw' =>
            (rw.1.isOk, rw'.2.server.wallets.all fun wallet => wallet.id != "")) = some (false, true) := by decide_cbv
  obtain ⟨⟨r₁, w₁⟩, hfirst, he⟩ := Option.bind_eq_some_iff.mp hplay
  obtain ⟨⟨r₂, w₂⟩, hother, he⟩ := Option.map_eq_some_iff.mp he
  obtain ⟨hfailed, hall⟩ := Prod.mk.inj he
  have hfirst := Machine.Exec.of_play hfirst
  have hhistory : (system sampleEnv).History w₁
      ([] ++ [{ turn := .call (.createWallet otherWallet) r₂, before := w₁, after := w₂ }]) w₂ :=
    .snoc .nil (.call (.of_play hother))
  have hready := ready_empty sampleWallet
  have hbetween : Undisturbed "wallet" w₁ w₂ := by
    refine undisturbed_history (createWallet_ready hready hfirst).server hhistory ?_
    intro m hm k r hturn
    rw [List.nil_append, List.mem_singleton] at hm
    subst hm
    cases hturn
    simp [Elsewhere, otherWallet]
  have hids₂ : Identified w₂.server := by simpa [Identified] using hall
  obtain ⟨-, hsettles⟩ :=
    createWallet_retried hready (fun _ h => absurd h List.not_mem_nil) hfirst hbetween hids₂
  obtain ⟨r, w₃, hexec⟩ := hsettles.exists_exec
  cases r₁ with
  | ok _ => cases hfailed
  | error e => exact ⟨w₁, e, _, w₂, r, w₃, hfirst, hhistory, rfl, hexec, hsettles.of_exec hexec⟩

end GuardianshipAgency.Recovery
