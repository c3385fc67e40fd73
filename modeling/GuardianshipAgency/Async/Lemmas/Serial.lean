import GuardianshipAgency.Async.Lemmas.Exec
import GuardianshipAgency.Async.Serial

/-!
# Histories of calls made one after the other
-/

namespace Async

theorem throughout_nil {M : Type} {P : List M → M → Prop} : Throughout P [] := by
  intro pre m post he
  simp at he

theorem throughout_snoc {M : Type} {P : List M → M → Prop} {ms : List M} {m : M} :
    Throughout P (ms ++ [m]) ↔ Throughout P ms ∧ P ms m := by
  constructor
  · intro h
    exact ⟨fun pre m' post he => h pre m' (post ++ [m]) (by simp [he]), h ms m [] rfl⟩
  · rintro ⟨h, hm⟩ pre m' post he
    rcases List.eq_nil_or_concat post with rfl | ⟨post', m'', rfl⟩
    · obtain ⟨rfl, hlast⟩ := List.append_inj' he rfl
      cases hlast
      exact hm
    · rw [List.concat_eq_append, ← List.cons_append, ← List.append_assoc] at he
      exact h pre m' post' (List.append_inj' he rfl).1

theorem throughout_of_mem {M : Type} {P : M → Prop} {ms : List M} (h : ∀ m ∈ ms, P m) :
    Throughout (fun _ => P) ms := by
  intro pre m post he
  exact h m (he ▸ List.mem_append_right pre List.mem_cons_self)

theorem Throughout.and {M : Type} {P P' : List M → M → Prop} {ms : List M} (h : Throughout P ms)
    (h' : Throughout P' ms) : Throughout (fun pre m => P pre m ∧ P' pre m) ms :=
  fun pre m post he => ⟨h pre m post he, h' pre m post he⟩

namespace System

variable {ε Op : Type} {Val : Op → Type} {W C Call Env Reply : Type}
variable {S : System ε Val W C Call Env Reply}

/-- What holds at first and is kept by every turn that satisfies `P` holds after every history of such turns. -/
theorem History.invariant (P : List (Moment ε W Call Env Reply) → Moment ε W Call Env Reply → Prop)
    (I : List (Moment ε W Call Env Reply) → W → Prop) {w₀ w : W} {ms : List (Moment ε W Call Env Reply)}
    (hinit : I [] w₀)
    (hstep : ∀ ms turn w w', I ms w → P ms { turn, before := w, after := w' } → S.Takes turn w w' →
      I (ms ++ [{ turn, before := w, after := w' }]) w')
    (h : S.History w₀ ms w) (hP : Throughout P ms) : I ms w := by
  induction h with
  | nil => exact hinit
  | snoc _ htakes ih =>
      obtain ⟨hms, hm⟩ := throughout_snoc.mp hP
      exact hstep _ _ _ _ (ih hms) hm htakes

theorem History.takes {w₀ w : W} {ms : List (Moment ε W Call Env Reply)} (h : S.History w₀ ms w)
    {m : Moment ε W Call Env Reply} (hm : m ∈ ms) : S.Takes m.turn m.before m.after := by
  induction h with
  | nil => cases hm
  | snoc _ htakes ih =>
      rcases List.mem_append.mp hm with hm | hm
      · exact ih hm
      · rw [List.mem_singleton.mp hm]
        exact htakes

/-! ## Replays -/

theorem Serial.of_replay {w w' : W} {ks : List Call} {css : List (List C)}
    (h : S.replayAll w ks css = some w') : S.Serial w ks w' := by
  fun_induction replayAll S w ks css with
  | case1 w => cases h; exact .nil
  | case2 w k ks cs css ih =>
      obtain ⟨rw, hplay, hrest⟩ := Option.bind_eq_some_iff.mp h
      exact .cons (.of_play hplay) (ih rw hrest)
  | case3 => cases h

theorem Takes.env_of_replay {w : W} {e : Env} {css : List (List C)} {tw : Turn ε Call Env Reply × W}
    (h : S.replayTurn w (.env e css) = some tw) : tw.1 = .env e ∧ S.Takes (.env e) w tw.2 := by
  obtain ⟨wks, henv, hrest⟩ := Option.bind_eq_some_iff.mp h
  obtain ⟨w', hall, he⟩ := Option.map_eq_some_iff.mp hrest
  cases he
  exact ⟨rfl, .env henv (.of_replay hall)⟩

theorem Takes.of_replay {w : W} {s : Script C Call Env} {tw : Turn ε Call Env Reply × W}
    (h : S.replayTurn w s = some tw) : S.Takes tw.1 w tw.2 := by
  cases s with
  | call k cs =>
      obtain ⟨rw, hplay, he⟩ := Option.map_eq_some_iff.mp h
      cases he
      exact .call (.of_play hplay)
  | env e css =>
      obtain ⟨hturn, htakes⟩ := Takes.env_of_replay h
      rw [hturn]
      exact htakes

theorem History.of_replay {w₀ w w' : W} {ms ms' : List (Moment ε W Call Env Reply)}
    {ss : List (Script C Call Env)} (hms : S.History w₀ ms w) (h : S.replay ms w ss = some (ms', w')) :
    S.History w₀ ms' w' := by
  induction ss generalizing ms w with
  | nil => cases h; exact hms
  | cons s ss ih =>
      obtain ⟨tw, hturn, hrest⟩ := Option.bind_eq_some_iff.mp h
      exact ih (.snoc hms (.of_replay hturn)) hrest

end System

end Async
