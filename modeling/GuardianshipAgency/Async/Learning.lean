import GuardianshipAgency.Async.Lemmas.Ensures

/-!
# What programs find out

A program may make a call only if it knows what the call needs. It learns from the answers that it gets.
-/

namespace Async

variable {ε Op F : Type} {Val : Op → Type} {W C α β : Type}

/-- With the facts `known` at the start, the program makes each call with the facts that it `needs`, learns from each
answer what that `gives`, and settles with a result and facts that satisfy `Q`. -/
def Prog.Learns (needs : Op → List F) (gives : (op : Op) → Except ε (Val op) → List F) :
    Prog ε Val α → List F → (Except ε α → List F → Prop) → Prop
  | .settled r, known, Q => Q r known
  | .await op next, known, Q => needs op ⊆ known ∧ ∀ r, (next r).Learns needs gives (gives op r ++ known) Q

namespace Prog.Learns

variable {needs : Op → List F} {gives : (op : Op) → Except ε (Val op) → List F} {p : Prog ε Val α} {known : List F}
variable {Q Q' : Except ε α → List F → Prop}

theorem mono (h : p.Learns needs gives known Q) (hQ : ∀ r known', known ⊆ known' → Q r known' → Q' r known') :
    p.Learns needs gives known Q' := by
  induction p generalizing known with
  | settled r => exact hQ r known (List.Subset.refl known) h
  | await op next ih =>
      exact ⟨h.1, fun r => ih r (h.2 r) fun r' known' hknown =>
        hQ r' known' fun f hf => hknown (List.mem_append_right _ hf)⟩

/-- Nothing need be known for calls that need nothing. -/
theorem of_calls (h : p.Calls fun op => needs op = []) : p.Learns needs gives known fun _ _ => True := by
  induction p generalizing known with
  | settled r => trivial
  | await op next ih => exact ⟨by simp [h.1], fun r => ih r (h.2 r)⟩

theorem andThen {k : Except ε α → Prog ε Val β} {Q : Except ε β → List F → Prop}
    (h : p.Learns needs gives known fun r known' => (k r).Learns needs gives known' Q) :
    (p.andThen k).Learns needs gives known Q := by
  induction p generalizing known with
  | settled r => exact h
  | await op next ih => exact ⟨h.1, fun r => ih r (h.2 r)⟩

/-- Where a rejection is as good as any result. -/
theorem bind {f : α → Prog ε Val β} {Q' : Except ε β → List F → Prop} (hreject : ∀ e known', Q' (.error e) known')
    (h : p.Learns needs gives known Q)
    (hf : ∀ a known', known ⊆ known' → Q (.ok a) known' → (f a).Learns needs gives known' Q') :
    (p >>= f).Learns needs gives known Q' :=
  andThen (h.mono fun r known' hknown hr => by
    cases r with
    | ok a => exact hf a known' hknown hr
    | error e => exact hreject e known')

theorem tryCatch {handler : ε → Prog ε Val α} (h : p.Learns needs gives known Q)
    (hhandler : ∀ e known', known ⊆ known' → (handler e).Learns needs gives known' Q) :
    (tryCatch p handler).Learns needs gives known Q :=
  andThen (h.mono fun r known' hknown hr => by
    cases r with
    | ok a => exact hr
    | error e => exact hhandler e known' hknown)

theorem call {op : Op} {Q : Except ε (Val op) → List F → Prop} (hneeds : needs op ⊆ known)
    (hQ : ∀ r, Q r (gives op r ++ known)) : (Prog.call op : Prog ε Val _).Learns needs gives known Q := ⟨hneeds, hQ⟩

theorem call_bind {op : Op} {f : Val op → Prog ε Val β} {Q' : Except ε β → List F → Prop}
    (hreject : ∀ e known', Q' (.error e) known') (hneeds : needs op ⊆ known)
    (hf : ∀ v, (f v).Learns needs gives (gives op (.ok v) ++ known) Q') :
    ((Prog.call op : Prog ε Val _) >>= f).Learns needs gives known Q' :=
  ⟨hneeds, fun r => by
    cases r with
    | ok v => exact hf v
    | error e => exact hreject e _⟩

/-- Where answers tell the truth, all that a program needs holds when it makes the call. -/
theorem ensures {M : Machine ε Val W C} {P : Rely W} {T : Terms W Op C} {holds : W → F → Prop} {G : Op → Prop}
    (hlater : ∀ {w w'}, P.rel w w' → ∀ f, holds w f → holds w' f)
    (hguard : ∀ op w w', G op → (∀ f ∈ needs op, holds w' f) → T.guard w w' op)
    (hans : ∀ op c w a w', G op → (∀ f ∈ needs op, holds w f) → P.inv w → M.answer op c w = some (a, w') →
      (P.inv w' ∧ P.rel w w') ∧ ∀ r, a = some r → ∀ f ∈ gives op r, holds w' f)
    (hcalls : p.Calls G) (h : p.Learns needs gives known fun _ _ => True) {w : W} (hknown : ∀ f ∈ known, holds w f) :
    M.Ensures P T p (fun _ _ => True) w := by
  induction p generalizing w known with
  | settled r => exact fun _ _ _ => trivial
  | await op next ih =>
      intro w' hrel hinv
      have hneeds : ∀ f ∈ needs op, holds w' f := fun f hf => hlater hrel f (hknown f (h.1 hf))
      refine ⟨hguard op w w' hcalls.1 hneeds, fun c a w'' _ ha => ?_⟩
      obtain ⟨hw'', hgives⟩ := hans op c w' a w'' hcalls.1 hneeds hinv ha
      refine ⟨hw'', fun r hr => ih r (hcalls.2 r) (h.2 r) fun f hf => ?_⟩
      rcases List.mem_append.mp hf with hf | hf
      · exact hgives r hr f hf
      · exact hlater (P.trans hrel hw''.2) f (hknown f hf)

end Prog.Learns

end Async
