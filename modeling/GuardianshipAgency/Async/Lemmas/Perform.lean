import GuardianshipAgency.Async.Perform
import Mathlib.Data.List.Forall2

/-!
# Runs that agree
-/

namespace Async

variable {ε Op : Type} {Val : Op → Type} {W C Call Env Reply α β : Type}

/-! ## Agreement -/

namespace Agree

variable {A B A' B' V : Type} {R R' : A → B → Prop} {Q : A' → B' → Prop} {sim : W → V → Prop}
variable {x : Option (A × W × List C)} {y : Option (B × V × List C)}

theorem mono (h : Agree R sim x y) (hR : ∀ a b, R a b → R' a b) : Agree R' sim x y := by
  cases h with
  | stuck => exact .stuck
  | both hab hsim => exact .both (hR _ _ hab) hsim

theorem bind {f : A × W × List C → Option (A' × W × List C)} {g : B × V × List C → Option (B' × V × List C)}
    (h : Agree R sim x y) (hfg : ∀ a b w v cs, R a b → sim w v → Agree Q sim (f (a, w, cs)) (g (b, v, cs))) :
    Agree Q sim (x.bind f) (y.bind g) := by
  cases h with
  | stuck => exact .stuck
  | both hab hsim => exact hfg _ _ _ _ _ hab hsim

theorem map {f : A → A'} {g : B → B'} (h : Agree R sim x y) (hfg : ∀ a b, R a b → Q (f a) (g b)) :
    Agree Q sim (x.map fun p => (f p.1, p.2)) (y.map fun p => (g p.1, p.2)) := by
  cases h with
  | stuck => exact .stuck
  | both hab hsim => exact .both (hfg _ _ hab) hsim

theorem cases (h : Agree R sim x y) : (x = none ∧ y = none) ∨
    ∃ a b w v cs, x = some (a, w, cs) ∧ y = some (b, v, cs) ∧ R a b ∧ sim w v := by
  cases h with
  | stuck => exact .inl ⟨rfl, rfl⟩
  | both hab hsim => exact .inr ⟨_, _, _, _, _, rfl, rfl, hab, hsim⟩

end Agree

/-! ## Programs -/

namespace Machine

variable {M : Machine ε Val W C} {direct : (op : Op) → W → Option (Val op × W)}

theorem perform_andThen (p : Prog ε Val α) (k : Except ε α → Prog ε Val β) (w : W) (cs : List C) :
    M.perform direct (p.andThen k) w cs =
      (M.perform direct p w cs).bind fun x => M.perform direct (k x.1) x.2.1 x.2.2 := by
  induction p generalizing w cs with
  | settled r => rfl
  | await op next ih =>
      simp only [Prog.andThen, perform]
      cases direct op w with
      | some x => exact ih _ _ _
      | none =>
          dsimp only
          cases M.ask op w cs with
          | none => rfl
          | some x => exact ih _ _ _

theorem perform_direct {op : Op} {next : Except ε (Val op) → Prog ε Val α} {w w' : W} {v : Val op}
    (h : direct op w = some (v, w')) (cs : List C) :
    M.perform direct (.await op next) w cs = M.perform direct (next (.ok v)) w' cs := by
  rw [perform, h]

theorem perform_ask {op : Op} {next : Except ε (Val op) → Prog ε Val α} {w : W} (h : direct op w = none)
    (cs : List C) : M.perform direct (.await op next) w cs =
      (M.ask op w cs).bind fun x => M.perform direct (next x.1) x.2.1 x.2.2 := by
  rw [perform, h]

theorem ask_exec {op : Op} {next : Except ε (Val op) → Prog ε Val α} {w w₁ w' : W} {cs cs₁ : List C}
    {a : Except ε (Val op)} {r : Except ε α} (h : M.ask op w cs = some (a, w₁, cs₁)) (hnext : M.Exec (next a) w₁ r w') :
    M.Exec (.await op next) w r w' := by
  induction cs generalizing w with
  | nil => cases h
  | cons c cs ih =>
      simp only [Machine.ask] at h
      split at h
      · cases h
      · rename_i w₂ ha
        exact .retried ha (ih h)
      · rename_i a₂ w₂ ha
        cases h
        exact .answered ha hnext

/-- Where the machine can answer what is answered without the list, programs run with a list run as they do alone. -/
theorem perform_exec (hdirect : ∀ op w v w', direct op w = some (v, w') →
      ∃ c, M.answer op c w = some (some (.ok v), w'))
    {p : Prog ε Val α} {w w' : W} {cs cs' : List C} {r : Except ε α}
    (h : M.perform direct p w cs = some (r, w', cs')) : M.Exec p w r w' := by
  induction p generalizing w cs with
  | settled r₀ =>
      cases h
      exact .settled
  | await op next ih =>
      cases hop : direct op w with
      | some x =>
          rw [perform_direct hop] at h
          obtain ⟨c, ha⟩ := hdirect op w x.1 x.2 hop
          exact .answered ha (ih _ h)
      | none =>
          rw [perform_ask hop] at h
          obtain ⟨x, hask, hrest⟩ := Option.bind_eq_some_iff.mp h
          exact ask_exec hask (ih _ hrest)

end Machine

/-- Calls whose answers agree are answered alike in the end. -/
theorem ask_agree {M M' : Machine ε Val W C} {sim : W → W → Prop} {op : Op}
    (hanswer : ∀ c w v, sim w v → (M.answer op c w = none ∧ M'.answer op c v = none) ∨
      ∃ a w' v', M.answer op c w = some (a, w') ∧ M'.answer op c v = some (a, v') ∧ sim w' v')
    {w v : W} (h : sim w v) (cs : List C) : Agree Eq sim (M.ask op w cs) (M'.ask op v cs) := by
  induction cs generalizing w v with
  | nil => exact .stuck
  | cons c cs ih =>
      simp only [Machine.ask]
      rcases hanswer c w v h with ⟨hw, hv⟩ | ⟨a, w', v', hw, hv, h'⟩
      · rw [hw, hv]
        exact .stuck
      · rw [hw, hv]
        cases a with
        | none => exact ih h'
        | some r => exact .both rfl h'

/-! ## Runs -/

section Runs

variable {S S' : System ε Val W C Call Env Reply} {direct direct' : (op : Op) → W → Option (Val op × W)}
variable {R : Except ε Reply → Except ε Reply → Prop} {sim : W → W → Prop}

theorem performCall_agree {k : Call} {w v : W} {cs : List C}
    (h : Agree R sim (S.perform direct (S.body k) (S.arrive k w) cs)
      (S'.perform direct' (S'.body k) (S'.arrive k v) cs)) :
    Agree (List.Forall₂ R) sim (S.performCalls direct [k] w cs) (S'.performCalls direct' [k] v cs) :=
  h.bind fun _ _ _ _ _ hR hsim => .both (.cons hR .nil) hsim

theorem System.EachItem.and {P Q : Item Call Env → W → List C → Prop} {is : List (Item Call Env)} {w : W} {cs : List C}
    (hP : S.EachItem direct P is w cs) (hQ : S.EachItem direct Q is w cs) :
    S.EachItem direct (fun i w cs => P i w cs ∧ Q i w cs) is w cs := by
  induction is generalizing w cs with
  | nil => trivial
  | cons i is ih => exact ⟨⟨hP.1, hQ.1⟩, fun x hx => ih (hP.2 x hx) (hQ.2 x hx)⟩

theorem performRun_agree {P : Item Call Env → W → List C → Prop}
    (hitem : ∀ i w v cs, P i w cs → sim w v →
      Agree (List.Forall₂ R) sim (S.performItem direct i w cs) (S'.performItem direct' i v cs))
    {is : List (Item Call Env)} {w v : W} {cs : List C} (h : sim w v) (hP : S.EachItem direct P is w cs) :
    Agree (List.Forall₂ R) sim (S.performRun direct is w cs) (S'.performRun direct' is v cs) := by
  induction is generalizing w v cs with
  | nil => exact .both .nil h
  | cons i is ih =>
      simp only [System.performRun]
      obtain ⟨hi, his⟩ := hP
      rcases (hitem i w v cs hi h).cases with ⟨hw, hv⟩ | ⟨_, _, w', v', cs', hw, hv, hR, h'⟩
      · rw [hw, hv]
        exact .stuck
      · rw [hw, hv]
        exact (ih h' (his _ hw)).map fun _ _ hR' => List.rel_append hR hR'

end Runs

end Async
