import GuardianshipAgency.Async.Ensures

/-!
# Rules for `Ensures` and `Calls`
-/

namespace Async

variable {ε Op : Type} {Val : Op → Type} {W C α β : Type}
variable {M : Machine ε Val W C} {P : Rely W} {T : Terms W Op C}

namespace Machine.Ensures

variable {p : Prog ε Val α} {Q Q' : Except ε α → W → Prop} {w : W}

theorem mono (h : M.Ensures P T p Q w) (hQ : ∀ r w', P.inv w' → Q r w' → Q' r w') :
    M.Ensures P T p Q' w := by
  induction p generalizing w with
  | settled r => exact fun w' hrel hinv => hQ r w' hinv (h w' hrel hinv)
  | await op next ih =>
      intro w' hrel hinv
      obtain ⟨hg, hans⟩ := h w' hrel hinv
      refine ⟨hg, fun c a w'' hc ha => ?_⟩
      obtain ⟨hw, hnext⟩ := hans c a w'' hc ha
      exact ⟨hw, fun r hr => ih r (hnext r hr)⟩

theorem since {w₀ : W} (hw₀ : P.rel w₀ w) (h : M.Ensures P T p Q w) :
    M.Ensures P T p (fun r w' => Q r w' ∧ P.rel w₀ w') w := by
  induction p generalizing w with
  | settled r => exact fun w' hrel hinv => ⟨h w' hrel hinv, P.trans hw₀ hrel⟩
  | await op next ih =>
      intro w' hrel hinv
      obtain ⟨hg, hans⟩ := h w' hrel hinv
      refine ⟨hg, fun c a w'' hc ha => ?_⟩
      obtain ⟨hw, hnext⟩ := hans c a w'' hc ha
      exact ⟨hw, fun r hr => ih r (P.trans hw₀ (P.trans hrel hw.2)) (hnext r hr)⟩

theorem andThen {k : Except ε α → Prog ε Val β} {Q : Except ε β → W → Prop} (hinv : P.inv w)
    (h : M.Ensures P T p (fun r w' => M.Ensures P T (k r) Q w') w) : M.Ensures P T (p.andThen k) Q w := by
  induction p generalizing w with
  | settled r => exact h w (P.refl w) hinv
  | await op next ih =>
      intro w' hrel hinv'
      obtain ⟨hg, hans⟩ := h w' hrel hinv'
      refine ⟨hg, fun c a w'' hc ha => ?_⟩
      obtain ⟨hw, hnext⟩ := hans c a w'' hc ha
      exact ⟨hw, fun r hr => ih r hw.1 (hnext r hr)⟩

theorem bind {f : α → Prog ε Val β} {Q : Except ε β → W → Prop} (hinv : P.inv w)
    (h : M.Ensures P T p (fun r w' => match r with
      | .ok a => M.Ensures P T (f a) Q w'
      | .error e => M.Ensures P T (.settled (.error e)) Q w') w) : M.Ensures P T (p >>= f) Q w :=
  andThen hinv (h.mono fun r _ _ hr => by
    cases r with
    | ok a => exact hr
    | error e => exact hr)

/-- Where a rejection is as good as any result, only the values of the first part are passed on. -/
theorem bind_ok {f : α → Prog ε Val β} {Q' : Except ε β → W → Prop} (hinv : P.inv w)
    (hreject : ∀ e w', Q' (.error e) w') (hp : M.Ensures P T p Q w)
    (hf : ∀ a w', P.inv w' → Q (.ok a) w' → M.Ensures P T (f a) Q' w') : M.Ensures P T (p >>= f) Q' w :=
  bind hinv (hp.mono fun r w' hw' hr => by
    cases r with
    | ok a => exact hf a w' hw' hr
    | error e => exact fun w'' _ _ => hreject e w'')

theorem tryCatch {hdl : ε → Prog ε Val α} (hinv : P.inv w)
    (h : M.Ensures P T p (fun r w' => match r with
      | .ok a => M.Ensures P T (.settled (.ok a)) Q w'
      | .error e => M.Ensures P T (hdl e) Q w') w) : M.Ensures P T (tryCatch p hdl) Q w :=
  andThen hinv (h.mono fun r _ _ hr => by
    cases r with
    | ok a => exact hr
    | error e => exact hr)

theorem call {op : Op} {Q : Except ε (Val op) → W → Prop}
    (h : ∀ w', P.rel w w' → P.inv w' → T.guard w w' op ∧ ∀ c a w'', T.assume w w' op c →
      M.answer op c w' = some (a, w'') → (P.inv w'' ∧ P.rel w' w'') ∧
        ∀ r, a = some r → ∀ w₃, P.rel w'' w₃ → P.inv w₃ → Q r w₃) :
    M.Ensures P T (Prog.call op) Q w := h

/-- A program all of whose calls are harmless ensures what every world satisfies. -/
theorem of_calls {G : Op → Prop} (hp : p.Calls G)
    (hguard : ∀ op w w', G op → P.rel w w' → P.inv w' → T.guard w w' op)
    (hans : ∀ op c w a w', G op → P.inv w → M.answer op c w = some (a, w') → P.inv w' ∧ P.rel w w')
    (hQ : ∀ r w', P.inv w' → Q r w') : M.Ensures P T p Q w := by
  induction p generalizing w with
  | settled r => exact fun w' _ hinv => hQ r w' hinv
  | await op next ih =>
      intro w' hrel hinv
      exact ⟨hguard op w w' hp.1 hrel hinv, fun c a w'' _ ha =>
        ⟨hans op c w' a w'' hp.1 hinv ha, fun r _ => ih r (hp.2 r)⟩⟩

/-- The same for a program whose calls are harmless as long as the answers are as they should be. -/
theorem of_callsIf {A : (op : Op) → Except ε (Val op) → Prop} {G : Op → Prop} (hp : p.CallsIf A G)
    (hguard : ∀ op w w', G op → P.rel w w' → P.inv w' → T.guard w w' op)
    (hans : ∀ op c w a w', G op → P.inv w → M.answer op c w = some (a, w') →
      (P.inv w' ∧ P.rel w w') ∧ ∀ r, a = some r → A op r)
    (hQ : ∀ r w', P.inv w' → Q r w') : M.Ensures P T p Q w := by
  induction p generalizing w with
  | settled r => exact fun w' _ hinv => hQ r w' hinv
  | await op next ih =>
      intro w' hrel hinv
      refine ⟨hguard op w w' hp.1 hrel hinv, fun c a w'' _ ha => ?_⟩
      obtain ⟨hw, hanswer⟩ := hans op c w' a w'' hp.1 hinv ha
      exact ⟨hw, fun r hr => ih r (hp.2 r (hanswer r hr))⟩

end Machine.Ensures

namespace Prog.CallsIf

variable {A : (op : Op) → Except ε (Val op) → Prop} {G G' : Op → Prop} {p : Prog ε Val α}

theorem of_calls (hp : p.Calls G) : p.CallsIf A G := by
  induction p with
  | settled r => trivial
  | await op next ih => exact ⟨hp.1, fun r _ => ih r (hp.2 r)⟩

theorem and_calls (hp : p.CallsIf A G) (hp' : p.Calls G') : p.CallsIf A fun op => G op ∧ G' op := by
  induction p with
  | settled r => trivial
  | await op next ih => exact ⟨⟨hp.1, hp'.1⟩, fun r hr => ih r (hp.2 r hr) (hp'.2 r)⟩

theorem bind {f : α → Prog ε Val β} (hp : p.CallsIf A G) (hf : ∀ a, (f a).CallsIf A G) : (p >>= f).CallsIf A G := by
  induction p with
  | settled r =>
      cases r with
      | ok a => exact hf a
      | error e => trivial
  | await op next ih => exact ⟨hp.1, fun r hr => ih r (hp.2 r hr)⟩

end Prog.CallsIf

namespace Prog.Calls

variable {G G' : Op → Prop} {p : Prog ε Val α}

theorem mono (hp : p.Calls G) (hG : ∀ op, G op → G' op) : p.Calls G' := by
  induction p with
  | settled r => trivial
  | await op next ih => exact ⟨hG op hp.1, fun r => ih r (hp.2 r)⟩

theorem and (hp : p.Calls G) (hp' : p.Calls G') : p.Calls fun op => G op ∧ G' op := by
  induction p with
  | settled r => trivial
  | await op next ih => exact ⟨⟨hp.1, hp'.1⟩, fun r => ih r (hp.2 r) (hp'.2 r)⟩

theorem andThen {k : Except ε α → Prog ε Val β} (hp : p.Calls G) (hk : ∀ r, (k r).Calls G) :
    (p.andThen k).Calls G := by
  induction p with
  | settled r => exact hk r
  | await op next ih => exact ⟨hp.1, fun r => ih r (hp.2 r)⟩

theorem bind {f : α → Prog ε Val β} (hp : p.Calls G) (hf : ∀ a, (f a).Calls G) : (p >>= f).Calls G :=
  hp.andThen fun r => by
    cases r with
    | ok a => exact hf a
    | error e => trivial

theorem tryCatch {h : ε → Prog ε Val α} (hp : p.Calls G) (hh : ∀ e, (h e).Calls G) :
    (tryCatch p h).Calls G :=
  hp.andThen fun r => by
    cases r with
    | ok a => trivial
    | error e => exact hh e

theorem call {op : Op} (h : G op) : (Prog.call op : Prog ε Val _).Calls G := ⟨h, fun _ => trivial⟩

/-- What the calls of a program satisfy, those of the rest of it satisfy. -/
theorem reaches {q : Prog ε Val α} (hp : p.Calls G) (h : p.Reaches q) : q.Calls G := by
  induction h with
  | refl => exact hp
  | answered _ ih => exact ih (hp.2 _)

end Prog.Calls

theorem Prog.Reaches.next {p : Prog ε Val α} {op : Op} {k : Except ε (Val op) → Prog ε Val α}
    (h : p.Reaches (.await op k)) (r : Except ε (Val op)) : p.Reaches (k r) := by
  generalize hq : Prog.await op k = q at h
  induction h with
  | refl =>
      subst hq
      exact .answered (.refl _)
  | answered _ ih => exact .answered (ih hq)

end Async
