import GuardianshipAgency.Agency.Theorems
import GuardianshipAgency.Caching.Lemmas.Runs

/-!
# One store in place of the other
-/

namespace GuardianshipAgency.Caching

open Js Async Expiring Agency

variable {env : Env}

theorem run_agree {E : JsError → JsError → Prop} {P : Item Call Event → World → List Choice → Prop}
    (hE : ∀ e, E e e) (hP : ∀ i w cs, P i w cs → Startable (fsStore env) i w cs ∧ ((∀ e e', E e e') ∨ Known i w))
    {is : List (Item Call Event)} {w : World} {cs : List Choice}
    (h : (system (fsStore env)).EachItem (cacheOp (fsStore env)) P is w cs) :
    Agree (List.Forall₂ (Alike E)) SameContent (runWith (fsStore env) is w cs) (runWith (redisStore env) is w cs) :=
  performRun_agree (fun i w _ cs hi hsame => item_agree hsame hE (hP i w cs hi).1 (hP i w cs hi).2) (.refl w) h

/-- Every run in which each spin-up whose `startAgent` fails finds an entry, or has a ttl with which the stores drop
one, goes alike with both stores: the same calls resolve, with the same values, and the same can be read from the
cache. Where besides each call that throws an error of its own without an entry finds one, the errors are the same
too. -/
theorem stores_agree {is : List (Item Call Event)} {w : World} {cs : List Choice}
    (h : (system (fsStore env)).EachItem (cacheOp (fsStore env)) (Startable (fsStore env)) is w cs) :
    Agree (List.Forall₂ (Alike fun _ _ => True)) SameContent (runWith (fsStore env) is w cs)
        (runWith (redisStore env) is w cs) ∧
      ((system (fsStore env)).EachItem (cacheOp (fsStore env)) (fun i w _ => Known i w) is w cs →
        Agree Eq SameContent (runWith (fsStore env) is w cs) (runWith (redisStore env) is w cs)) := by
  refine ⟨run_agree (fun _ => trivial) (fun i w cs hi => ⟨hi, .inl fun _ _ => trivial⟩) h, fun hknown => ?_⟩
  have hboth := h.and hknown
  have hagree := run_agree (fun _ => rfl) (fun i w cs hi => ⟨hi.1, .inr hi.2⟩) hboth
  refine hagree.mono fun rs rs' hrs => ?_
  have heq : List.Forall₂ Eq rs rs' := hrs.imp fun _ _ hr => hr.eq
  rwa [List.forall₂_eq_eq_eq] at heq

def podExists : Choice := .failed (Json.typeError "pod exists")

/-- The agent is spun up again while it runs. -/
def startedTwice : List Choice := [fine, fine, fine, podExists, fine]

def spunUpTwice : List (Item Call Event) := [.call (.spinUpAgent sampleAgent), .call (.spinUpAgent sampleAgent)]

theorem stores_agree_spunUpTwice :
    (runWith (fsStore sampleEnv) spunUpTwice .empty startedTwice).isSome = true ∧
      Agree (List.Forall₂ (Alike fun _ _ => True)) SameContent
        (runWith (fsStore sampleEnv) spunUpTwice .empty startedTwice)
        (runWith (redisStore sampleEnv) spunUpTwice .empty startedTwice) := by
  have hstarts : ((machine (fsStore sampleEnv)).perform (cacheOp (fsStore sampleEnv))
      (AgentManagerService.startAgent (fsStore sampleEnv) (AgentConfig.new (fsStore sampleEnv) sampleAgent)) .empty
        startedTwice).map (fun x => x.1.isOk) = some true := by decide_cbv
  have hcached : ((system (fsStore sampleEnv)).performItem (cacheOp (fsStore sampleEnv))
      (.call (.spinUpAgent sampleAgent)) .empty startedTwice).map (fun x => (x.2.1.lookup "agent").isSome) =
        some true := by decide_cbv
  have heach : (system (fsStore sampleEnv)).EachItem (cacheOp (fsStore sampleEnv)) (Startable (fsStore sampleEnv))
      spunUpTwice .empty startedTwice := by
    refine ⟨fun e w' cs' hfails => ?_, fun x hx => ⟨fun _ _ _ _ => .inl ?_, fun _ _ => trivial⟩⟩
    · rw [hfails] at hstarts
      cases hstarts
    · rw [hx] at hcached
      exact Option.some.inj hcached
  exact ⟨by decide_cbv, (stores_agree heach).1⟩

/-- The agent is spun up again while it runs, but its entry is gone. -/
def entryLost : List (Item Call Event) :=
  [.call (.spinUpAgent sampleAgent), .env (.evict "agent"), .call (.spinUpAgent sampleAgent)]

/-- With the file system store the entry is added again, with the redis store the call rejects. -/
theorem not_forall_agree : ¬∀ (env : Env) (is : List (Item Call Event)) (w : World) (cs : List Choice),
    Agree (List.Forall₂ (Alike fun _ _ => True)) SameContent (runWith (fsStore env) is w cs)
      (runWith (redisStore env) is w cs) := by
  intro h
  have hfs : (runWith (fsStore sampleEnv) entryLost .empty startedTwice).map (fun x => x.1.map Except.isOk) =
      some [true, true] := by decide_cbv
  have hredis : (runWith (redisStore sampleEnv) entryLost .empty startedTwice).map (fun x => x.1.map Except.isOk) =
      some [true, false] := by decide_cbv
  rcases (h sampleEnv entryLost .empty startedTwice).cases with ⟨hnone, -⟩ | ⟨rs, rs', w, v, cs, hw, hv, hrs, -⟩
  · rw [hnone] at hfs
    cases hfs
  · rw [hw] at hfs
    rw [hv] at hredis
    have halike : List.Forall₂ Eq (rs.map Except.isOk) (rs'.map Except.isOk) := by
      rw [List.forall₂_map_left_iff, List.forall₂_map_right_iff]
      exact hrs.imp fun _ _ hr => hr.isOk
    rw [List.forall₂_eq_eq_eq] at halike
    have hcontra : [true, true] = [true, false] :=
      (Option.some.inj hfs).symm.trans (halike.trans (Option.some.inj hredis))
    cases hcontra

end GuardianshipAgency.Caching
