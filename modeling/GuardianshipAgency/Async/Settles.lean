import GuardianshipAgency.Async.Lemmas.Exec

/-!
# Total correctness

`Machine.Settles` says of a program that is run alone that it never gets stuck, and what it settles with.
-/

namespace Async

variable {ε Op : Type} {Val : Op → Type} {W C α β : Type} {M : Machine ε Val W C}

/-- Run alone in `w`, the program finds an answer to each of its calls, no call is sent again, and it settles in worlds
that satisfy `Q`. -/
def Machine.Settles (M : Machine ε Val W C) : Prog ε Val α → (Except ε α → W → Prop) → W → Prop
  | .settled r, Q, w => Q r w
  | .await op next, Q, w => (∃ c x, M.answer op c w = some x) ∧
      ∀ c a w', M.answer op c w = some (a, w') → ∃ r, a = some r ∧ M.Settles (next r) Q w'

namespace Machine.Settles

variable {p : Prog ε Val α} {Q Q' : Except ε α → W → Prop} {w w' : W} {r : Except ε α}

/-! ## Rules -/

theorem mono (h : M.Settles p Q w) (hQ : ∀ r w', Q r w' → Q' r w') : M.Settles p Q' w := by
  induction p generalizing w with
  | settled r => exact hQ r w h
  | await op next ih =>
      obtain ⟨hsome, hans⟩ := h
      refine ⟨hsome, fun c a w' ha => ?_⟩
      obtain ⟨r, hr, hnext⟩ := hans c a w' ha
      exact ⟨r, hr, ih r hnext⟩

theorem andThen {k : Except ε α → Prog ε Val β} {Q : Except ε β → W → Prop}
    (h : M.Settles p (fun r w' => M.Settles (k r) Q w') w) : M.Settles (p.andThen k) Q w := by
  induction p generalizing w with
  | settled r => exact h
  | await op next ih =>
      obtain ⟨hsome, hans⟩ := h
      refine ⟨hsome, fun c a w' ha => ?_⟩
      obtain ⟨r, hr, hnext⟩ := hans c a w' ha
      exact ⟨r, hr, ih r hnext⟩

/-- What follows a part that is never rejected. -/
theorem bind_ok {f : α → Prog ε Val β} {P : α → W → Prop} {Q : Except ε β → W → Prop}
    (hp : M.Settles p (fun r w' => ∃ a, r = .ok a ∧ P a w') w) (hf : ∀ a w', P a w' → M.Settles (f a) Q w') :
    M.Settles (p >>= f) Q w := by
  refine andThen (hp.mono ?_)
  rintro _ w' ⟨a, rfl, ha⟩
  exact hf a w' ha

/-! ## Runs -/

theorem of_exec (h : M.Settles p Q w) (hexec : M.Exec p w r w') : Q r w' := by
  induction hexec with
  | settled => exact h
  | answered ha _ ih =>
      obtain ⟨r, hr, hnext⟩ := h.2 _ _ _ ha
      cases hr
      exact ih hnext
  | retried ha _ _ =>
      obtain ⟨r, hr, -⟩ := h.2 _ _ _ ha
      cases hr

theorem exists_exec (h : M.Settles p Q w) : ∃ r w', M.Exec p w r w' := by
  induction p generalizing w with
  | settled r => exact ⟨r, w, .settled⟩
  | await op next ih =>
      obtain ⟨⟨c, ⟨a, w₁⟩, ha⟩, hans⟩ := h
      obtain ⟨res, rfl, hnext⟩ := hans c a w₁ ha
      obtain ⟨r, w', hexec⟩ := ih res hnext
      exact ⟨r, w', .answered ha hexec⟩

end Machine.Settles

end Async
