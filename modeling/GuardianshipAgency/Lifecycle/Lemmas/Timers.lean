import GuardianshipAgency.Lifecycle.Lemmas.Turns
import GuardianshipAgency.Lifetimes.Lemmas.Jobs

/-!
# Spin-down timers and lifetimes
-/

namespace GuardianshipAgency.Lifecycle

open Js Async Expiring Agency

variable {env : Env}

abbrev Moments := List (Moment JsError World Call Event Reply)

/-- When the life ends that a caller asks for in `w`. -/
def lifeEnd (env : Env) (w : World) (agentDto : AgentCreateDto) : WithTop ℚ :=
  match (AgentConfig.new env agentDto).ttl with
  | none => ⊤
  | some ttl => if 0 < ttl then ((w.now + ttl * 1000 : ℚ) : WithTop ℚ) else ⊤

def momentLifeEnd? (env : Env) (id : String) (m : Moment JsError World Call Event Reply) : Option (WithTop ℚ) :=
  match m.turn with
  | .call (.spinUpAgent agentDto) (.ok _) => if agentDto.agentId = id then some (lifeEnd env m.before agentDto) else none
  | _ => none

/-- The end of the life that the last successful spin-up of the agent has asked for. -/
def lifeEnd? (env : Env) (id : String) (ms : Moments) : Option (WithTop ℚ) :=
  ms.reverse.findSome? (momentLifeEnd? env id)

/-- When the timer is due that a spin-up sets at once in `w`. It never is if none is set. -/
def ownDue (env : Env) (w : World) (agentDto : AgentCreateDto) : WithTop ℚ :=
  Lifetimes.jobTime (AgentConfig.new env agentDto) w.now

/-- A spin-up that succeeds asks for a life that its own timer waits for, and finds no timer of its agent that is due
before the end of this life. One that fails after setting its timer sets none that is due before the end of the life
asked for by the last one that succeeded. -/
def RenewsInTime (env : Env) (pre : Moments) (m : Moment JsError World Call Event Reply) : Prop :=
  match m.turn with
  | .call (.spinUpAgent agentDto) (.ok _) => lifeEnd env m.before agentDto ≤ ownDue env m.before agentDto ∧
      ∀ t ∈ m.before.timers, t.agentId = agentDto.agentId → lifeEnd env m.before agentDto ≤ (t.due : WithTop ℚ)
  | .call (.spinUpAgent agentDto) (.error _) =>
      m.after.timers ≠ m.before.timers → ∀ d, lifeEnd? env agentDto.agentId pre = some d →
        d ≤ ownDue env m.before agentDto
  | _ => True

/-- No timer is due before the end of the life that the last successful spin-up of its agent has asked for. -/
def TimersInTime (env : Env) (ms : Moments) (w : World) : Prop :=
  ∀ t ∈ w.timers, ∀ d, lifeEnd? env t.agentId ms = some d → d ≤ (t.due : WithTop ℚ)

theorem lifeEnd?_snoc (id : String) (ms : Moments) (m : Moment JsError World Call Event Reply) :
    lifeEnd? env id (ms ++ [m]) = (momentLifeEnd? env id m).or (lifeEnd? env id ms) := by
  rw [lifeEnd?, List.reverse_append, List.reverse_singleton, List.singleton_append, List.findSome?_cons]
  cases momentLifeEnd? env id m <;> rfl

theorem TimersInTime.shrink {ms : Moments} {turn : Turn JsError Call Event Reply} {w w' : World}
    (hms : TimersInTime env ms w) (hturn : ∀ agentDto r, turn ≠ .call (.spinUpAgent agentDto) r)
    (h : Shrinks env w w') : TimersInTime env (ms ++ [{ turn, before := w, after := w' }]) w' := by
  intro t ht d hd
  have hnone : momentLifeEnd? env t.agentId { turn, before := w, after := w' } = none := by
    unfold momentLifeEnd?
    split
    · rename_i hspin
      exact absurd hspin (hturn _ _)
    · rfl
  rw [lifeEnd?_snoc, hnone, Option.none_or] at hd
  exact hms t (h.timers t ht) d hd

theorem spinUp_timers {agentDto : AgentCreateDto} {w w' : World} {r : Except JsError AgentManagerService.AgentReply}
    (h : (machine env).Exec (AgentManagerService.spinUpAgent env agentDto) w r w') {t : Timer} (ht : t ∈ w'.timers) :
    t ∈ w.timers ∨ (t.agentId = agentDto.agentId ∧ ownDue env w agentDto ≤ (t.due : WithTop ℚ)) := by
  obtain ⟨r₁, w₁, hstart, hrest⟩ := spinUpAgent_inv h
  have hframe := (startAgent_result hstart).frame
  rcases (afterStart_managed hrest).timers t ht with hold | ⟨hid, ttl, httl, hpos, hdue⟩
  · rw [hframe] at hold
    exact .inl hold
  · rw [hframe] at hdue
    refine .inr ⟨hid, ?_⟩
    rw [ownDue, Lifetimes.jobTime_of_pos httl hpos]
    exact WithTop.coe_le_coe.mpr hdue

theorem TimersInTime.spinUp {ms : Moments} {agentDto : AgentCreateDto} {w w' : World} {r : Except JsError Reply}
    {r' : Except JsError AgentManagerService.AgentReply} (hms : TimersInTime env ms w)
    (hrenews : RenewsInTime env ms { turn := .call (.spinUpAgent agentDto) r, before := w, after := w' })
    (h : (machine env).Exec (AgentManagerService.spinUpAgent env agentDto) w r' w') :
    TimersInTime env (ms ++ [{ turn := .call (.spinUpAgent agentDto) r, before := w, after := w' }]) w' := by
  intro t ht d hd
  rw [lifeEnd?_snoc] at hd
  cases r with
  | ok reply =>
      by_cases hid : agentDto.agentId = t.agentId
      · simp only [momentLifeEnd?, if_pos hid, Option.some_or, Option.some.injEq] at hd
        subst hd
        rcases spinUp_timers h ht with hold | ⟨-, hown⟩
        · exact hrenews.2 t hold hid.symm
        · exact hrenews.1.trans hown
      · simp only [momentLifeEnd?, if_neg hid, Option.none_or] at hd
        rcases spinUp_timers h ht with hold | ⟨hid', -⟩
        · exact hms t hold d hd
        · exact absurd hid'.symm hid
  | error e =>
      simp only [momentLifeEnd?, Option.none_or] at hd
      rcases spinUp_timers h ht with hold | ⟨hid, hown⟩
      · exact hms t hold d hd
      · by_cases hsame : w'.timers = w.timers
        · exact hms t (hsame ▸ ht) d hd
        · exact (hrenews hsame d (hid ▸ hd)).trans hown

end GuardianshipAgency.Lifecycle
