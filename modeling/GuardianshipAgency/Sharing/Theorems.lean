import GuardianshipAgency.Agency.Theorems
import GuardianshipAgency.Sharing.Lemmas.Cuts

/-!
# Agents and wallets side by side
-/

namespace GuardianshipAgency.Sharing

open Js Async Agency

variable {env : Env}

/-- In the run without the calls that `cut` leaves out the others get just as far, with the same answers and results,
and find the same under their names. -/
def Undisturbed (env : Env) (cut : Cut Op Choice Call Event) (ls : List (Label Choice Call Event))
    (c : Config JsError Op.Val World Call Reply) : Prop :=
  ∃ d, (system env).run (.init .empty) ((system env).project cut (.init .empty) ls) = some d ∧ c.KeptAlike cut d ∧
    ∀ k, .begin k ∈ ls → cut.keeps k = true → d.world.lookup (nameOf k) = c.world.lookup (nameOf k)

/-- The names of the calls in a run that satisfy `p`. -/
def NamedBy (p : Call → Bool) (ls : List (Label Choice Call Event)) (name : String) : Prop :=
  ∃ k, .begin k ∈ ls ∧ p k = true ∧ nameOf k = name

/-- In every run of both services in which no wallet is named like an agent, neither service notices the other. -/
theorem services_undisturbed {ls : List (Label Choice Call Event)} {c : Config JsError Op.Val World Call Reply}
    (hcalls : ∀ k, .begin k ∈ ls → ofManager k = true ∨ ofTenants k = true)
    (hnames : ∀ name, NamedBy ofManager ls name → ¬NamedBy ofTenants ls name)
    (hrun : (system env).run (.init .empty) ls = some c) :
    Undisturbed env tenantCut ls c ∧ Undisturbed env managerCut ls c := by
  have hseparate : ∀ k, .begin k ∈ ls → Separate (NamedBy ofManager ls) (NamedBy ofTenants ls) k := fun k hk => by
    rcases hcalls k hk with hmanager | htenants
    · exact .inl ⟨hmanager, k, hk, hmanager, rfl⟩
    · exact .inr ⟨htenants, k, hk, htenants, rfl⟩
  constructor
  · have halike : TenantsAlike (NamedBy ofManager ls) (NamedBy ofTenants ls) .empty .empty :=
      ⟨rfl, rfl, fun _ _ => rfl, fun t ht => by cases ht⟩
    obtain ⟨d, hd, hmatches⟩ := (Config.Matches.init halike).run (tenantCut_sound hnames) hseparate hrun
    refine ⟨d, hd, hmatches.threads, fun k hk hkeeps => ?_⟩
    rw [World.lookup, World.lookup, hmatches.world.now]
    exact Expiring.Store.lookup_congr (hmatches.world.cache _ ⟨k, hk, hkeeps, rfl⟩)
  · have halike : ManagerAlike (NamedBy ofManager ls) .empty .empty :=
      ⟨rfl, rfl, rfl, fun _ _ => rfl, fun t ht => by cases ht⟩
    obtain ⟨d, hd, hmatches⟩ := (Config.Matches.init halike).run (managerCut_sound hnames) hseparate hrun
    refine ⟨d, hd, hmatches.threads, fun k hk hkeeps => ?_⟩
    rw [World.lookup, World.lookup, hmatches.world.now]
    exact Expiring.Store.lookup_congr (hmatches.world.cache _ ⟨k, hk, hkeeps, rfl⟩)

/-- An agent is started while a wallet is created. -/
def sideBySide : List (Label Choice Call Event) :=
  [.begin (.spinUpAgent sampleAgent), .begin (.createWallet sampleWallet), .answer 0 fine, .answer 1 created,
    .answer 0 fine, .answer 1 fine, .answer 0 fine, .answer 1 invited]

theorem begin_sideBySide {k : Call} (hk : .begin k ∈ sideBySide) :
    k = .spinUpAgent sampleAgent ∨ k = .createWallet sampleWallet := by
  simpa [sideBySide] using hk

theorem services_undisturbed_sideBySide : ∃ c, (system sampleEnv).run (.init .empty) sideBySide = some c ∧
    Undisturbed sampleEnv tenantCut sideBySide c ∧ Undisturbed sampleEnv managerCut sideBySide c := by
  have hrun : ((system sampleEnv).run (.init .empty) sideBySide).isSome = true := by decide_cbv
  obtain ⟨c, hc⟩ := Option.isSome_iff_exists.mp hrun
  refine ⟨c, hc, services_undisturbed (fun k hk => ?_) ?_ hc⟩
  · rcases begin_sideBySide hk with rfl | rfl
    · exact .inl rfl
    · exact .inr rfl
  · rintro name ⟨k, hk, hmanager, rfl⟩ ⟨k', hk', htenants, hname⟩
    rcases begin_sideBySide hk with rfl | rfl
    · rcases begin_sideBySide hk' with rfl | rfl
      · cases htenants
      · exact absurd hname (by decide)
    · cases hmanager

/-- A wallet is created, an agent of the same name is spun down, and the wallet is to be removed. -/
def sameName : List (Label Choice Call Event) :=
  [.begin (.createWallet sampleWallet), .answer 0 created, .answer 0 fine, .answer 0 invited,
    .begin (.spinDownAgent "wallet"), .answer 1 fine, .answer 1 (.failed (Json.typeError "no service")),
    .begin (.removeWallet "wallet" "key"), .answer 2 fine]

def isSettled : Prog JsError Op.Val Reply → Bool
  | .settled _ => true
  | .await _ _ => false

/-- Without the spin-down the removal would not be rejected. -/
theorem not_undisturbed_sameName : ∃ c, (system sampleEnv).run (.init .empty) sameName = some c ∧
    (∀ k, .begin k ∈ sameName → ofManager k = true ∨ ofTenants k = true) ∧
      ¬Undisturbed sampleEnv tenantCut sameName c := by
  have hrun : ((system sampleEnv).run (.init .empty) sameName).bind (fun c =>
      ((system sampleEnv).run (.init .empty) ((system sampleEnv).project tenantCut (.init .empty) sameName)).map fun d =>
        ((c.threads.filter fun th => tenantCut.keeps th.call).map fun th => isSettled th.prog,
          d.threads.map fun th => isSettled th.prog)) = some ([true, true], [true, false]) := by decide_cbv
  obtain ⟨c, hc, hrun⟩ := Option.bind_eq_some_iff.mp hrun
  obtain ⟨d, hd, hrun⟩ := Option.map_eq_some_iff.mp hrun
  obtain ⟨hkept, hprojected⟩ := Prod.mk.inj hrun
  refine ⟨c, hc, fun k hk => ?_, fun hundisturbed => ?_⟩
  · simp only [sameName, List.mem_cons, Label.begin.injEq, reduceCtorEq, List.not_mem_nil, or_false, false_or] at hk
    rcases hk with rfl | rfl | rfl
    · exact .inr rfl
    · exact .inl rfl
    · exact .inr rfl
  · obtain ⟨d', hd', halike, -⟩ := hundisturbed
    rw [hd] at hd'
    cases hd'
    have hsettled := congrArg (List.map fun state => isSettled state.2) halike
    simp only [List.map_map] at hsettled
    have hcontra : [true, false] = [true, true] := hprojected.symm.trans (hsettled.trans hkept)
    cases hcontra

end GuardianshipAgency.Sharing
