import GuardianshipAgency.Neighbours.Lemmas.Names
import GuardianshipAgency.Sharing.Theorems

/-!
# Agents and wallets side by side
-/

namespace GuardianshipAgency.Sharing

open Js Async Agency

variable {env : Env}

/-- Take any run of all services and any agents, none with the name of a wallet. Without the calls and the timers of all
others there is a run in which the calls on these agents get just as far, with the same answers and results, and in
which the time, their objects, their cache entries and their timers are the same. -/
theorem agents_undisturbed {ids : String → Bool} {ls : List (Label Choice Call Event)}
    {c : Config JsError Op.Val World Call Reply} (hwallets : ∀ k, .begin k ∈ ls → Apart ids k)
    (hrun : (system env).run (.init .empty) ls = some c) :
    ∃ d, (system env).run (.init .empty) ((system env).project (agentsCut ids) (.init .empty) ls) = some d ∧
      c.KeptAlike (agentsCut ids) d ∧ AgentsAlike ids c.world d.world := by
  have halike : AgentsAlike ids World.empty World.empty := ⟨rfl, fun _ _ => rfl, fun _ _ => rfl, rfl⟩
  obtain ⟨d, hd, hmatches⟩ := (Config.Matches.init halike).run (agentsCut_sound ids) hwallets hrun
  exact ⟨d, hd, hmatches.threads, hmatches.world⟩

def otherAgent : AgentCreateDto := { agentId := "other", adminApiKey := "key", autoConnect := some true }

/-- Two agents are started and a wallet is created. The timer of the first agent fires while the second is waited
for. -/
def threeAtOnce : List (Label Choice Call Event) :=
  [.begin (.spinUpAgent sampleAgent), .begin (.spinUpAgent otherAgent), .answer 1 fine, .answer 0 fine,
    .begin (.createWallet sampleWallet), .answer 1 fine, .answer 2 created, .answer 0 fine, .answer 1 fine,
    .answer 0 fine, .answer 0 fine, .answer 1 fine, .answer 1 fine, .answer 1 fine,
    .answer 1 (.done (.elapsed 3600000) .answered), .env (.fire { agentId := "agent", due := 3600000 })]

theorem agents_undisturbed_threeAtOnce : ∃ c, (system sampleEnv).run (.init .empty) threeAtOnce = some c ∧
    c.threads.map Thread.call =
      [.spinUpAgent sampleAgent, .spinUpAgent otherAgent, .createWallet sampleWallet, .spinDownAgent "agent"] ∧
    ∃ d, (system sampleEnv).run (.init .empty)
        ((system sampleEnv).project (agentsCut (· == "agent")) (.init .empty) threeAtOnce) = some d ∧
      c.KeptAlike (agentsCut (· == "agent")) d ∧ AgentsAlike (· == "agent") c.world d.world := by
  have hrun : ((system sampleEnv).run (.init .empty) threeAtOnce).map (fun c => c.threads.map Thread.call) =
      some [.spinUpAgent sampleAgent, .spinUpAgent otherAgent, .createWallet sampleWallet, .spinDownAgent "agent"] := by
    decide +kernel
  obtain ⟨c, hc, hcalls⟩ := Option.map_eq_some_iff.mp hrun
  refine ⟨c, hc, hcalls, agents_undisturbed (fun k hk hname => ?_) hc⟩
  simp only [threeAtOnce, List.mem_cons, Label.begin.injEq, reduceCtorEq, List.not_mem_nil, or_false, false_or] at hk
  rcases hk with rfl | rfl | rfl
  · rfl
  · rfl
  · exact absurd hname (by decide)

def otherWallet : WalletCreateDto := { walletName := "other", walletKey := "otherKey" }

/-- In every run, wallet ids and tokens stay with the name of their wallet. Each entry that the cache has under a name,
and each request and webhook of a call under a name, holds only what belongs to a wallet of that name and no other. -/
theorem secrets_confined {ls : List (Label Choice Call Event)} {c : Config JsError Op.Val World Call Reply}
    (hrun : (system env).run (.init .empty) ls = some c) :
    c.world.cache.Forall (fun key entry => ∀ f ∈ factsOf entry, f.Only key c.world.server) ∧
      ∀ th ∈ c.threads, ∀ op next, th.prog = .await op next →
        ∀ f ∈ needs op, f.Only (nameOf th.call) c.world.server := by
  have hok := namesOk hrun
  have hserver := hok.inv.server
  refine ⟨hok.inv.cache.mono fun key entry hentry f hf => (hentry f hf).only hserver, ?_⟩
  intro th hth op next hprog f hf
  exact ((hok.guard hth hprog).needs f hf).only hserver

def awaited? : Prog JsError Op.Val Reply → Option Op
  | .await op _ => some op
  | .settled _ => none

theorem awaited?_eq_some {p : Prog JsError Op.Val Reply} {op : Op} (h : awaited? p = some op) :
    ∃ next, p = .await op next := by
  cases p with
  | settled r => cases h
  | await op' next =>
      cases h
      exact ⟨next, rfl⟩

/-- A new wallet is about to be asked for an invitation, with its token. -/
def aboutToInvite : List (Label Choice Call Event) :=
  [.begin (.createWallet sampleWallet), .answer 0 (.done (.wallet "w1" "t1") .answered), .answer 0 fine]

theorem secrets_confined_aboutToInvite : ∃ c, (system sampleEnv).run (.init .empty) aboutToInvite = some c ∧
    ∃ th ∈ c.threads, ∃ op next, th.prog = .await op next ∧ needs op = [.token "t1"] ∧
      (Fact.token "t1").Only "wallet" c.world.server := by
  have hrun : ((system sampleEnv).run (.init .empty) aboutToInvite).bind (fun c => c.threads[0]?.bind fun th =>
      (awaited? th.prog).map fun op => (nameOf th.call, needs op)) = some ("wallet", [.token "t1"]) := by
    decide +kernel
  obtain ⟨c, hc, hrun⟩ := Option.bind_eq_some_iff.mp hrun
  obtain ⟨th, hth, hrun⟩ := Option.bind_eq_some_iff.mp hrun
  obtain ⟨op, hop, hneeds⟩ := Option.map_eq_some_iff.mp hrun
  obtain ⟨hname, hneeds⟩ := Prod.mk.inj hneeds
  obtain ⟨next, hprog⟩ := awaited?_eq_some hop
  have hmem := List.mem_of_getElem? hth
  refine ⟨c, hc, th, hmem, op, next, hprog, hneeds, ?_⟩
  rw [← hname]
  exact (secrets_confined hc).2 th hmem op next hprog _ (by simp [hneeds])

end GuardianshipAgency.Sharing
