import Mathlib
import GuardianshipAgency.Async.Meter

/-!
# What a call has done when it succeeds

The counterpart of metered systems: a program that succeeds has made a number of calls, each with success, and each of
these has raised a level that nothing lowers without a call that begins in exchange.
-/

namespace Async

variable {ε Op : Type} {Val : Op → Type} {α β : Type}

/-- The program succeeds only after `n` calls that satisfy `counts` have succeeded. -/
def Prog.AtLeast (counts : Op → Bool) : Prog ε Val α → Nat → Prop
  | .settled (.ok _), n => n = 0
  | .settled (.error _), _ => True
  | .await op next, n =>
      (∀ v, (next (.ok v)).AtLeast counts (n - (counts op).toNat)) ∧ ∀ e, (next (.error e)).AtLeast counts n

namespace Prog.AtLeast

variable {counts : Op → Bool} {p : Prog ε Val α} {m n : Nat}

theorem mono (h : p.AtLeast counts n) (hmn : m ≤ n) : p.AtLeast counts m := by
  induction p generalizing m n with
  | settled r =>
      cases r with
      | ok a => exact Nat.le_zero.mp (hmn.trans (Nat.le_of_eq h))
      | error e => trivial
  | await op next ih => exact ⟨fun v => ih _ (h.1 v) (by omega), fun e => ih _ (h.2 e) hmn⟩

theorem zero : p.AtLeast counts 0 := by
  induction p with
  | settled r =>
      cases r with
      | ok a => rfl
      | error e => trivial
  | await op next ih => exact ⟨fun v => by rw [Nat.zero_sub]; exact ih _, fun e => ih _⟩

/-- What comes first has done its share by the time that the rest begins. -/
theorem bind {f : α → Prog ε Val β} (h : p.AtLeast counts m) (hf : ∀ a, (f a).AtLeast counts n) :
    (p >>= f).AtLeast counts (m + n) := by
  induction p generalizing m with
  | settled r =>
      cases r with
      | ok a =>
          have hm : m = 0 := h
          rw [hm, Nat.zero_add]
          exact hf a
      | error e => trivial
  | await op next ih =>
      exact ⟨fun v => (ih _ (h.1 v)).mono (by omega), fun e => ih _ (h.2 e)⟩

theorem call {op : Op} : (Prog.call op : Prog ε Val _).AtLeast counts (counts op).toNat :=
  ⟨fun _ => Nat.sub_self _, fun _ => trivial⟩

end Prog.AtLeast

variable {W C Call Env Reply : Type}

/-- What is to be proved of a system whose calls have to raise a level. A call `k` owes `debt k` and is itself worth
`weight k`. -/
structure System.Owing (S : System ε Val W C Call Env Reply) (counts : Op → Bool) (debt weight : Call → Nat)
    (level : W → Nat) : Prop where
  body : ∀ k, (S.body k).AtLeast counts (debt k)
  arrive : ∀ k w, level w ≤ level (S.arrive k w)
  answer : ∀ op ch w a w', S.answer op ch w = some (a, w') →
    level w ≤ level w' ∧ (counts op = true → ∀ v, a = some (.ok v) → level w + 1 ≤ level w')
  env : ∀ e w w' ks, S.env e w = some (w', ks) → level w ≤ level w' + (ks.map weight).sum

def Thread.succeeded (th : Thread ε Val W Call Reply) : Bool :=
  match th.prog with
  | .settled (.ok _) => true
  | .settled (.error _) => false
  | .await _ _ => false

/-- The level, the weight of the calls and that of the calls `ks` that are about to begin cover `base` and what each
call has paid of its debt. -/
def Config.Covers (counts : Op → Bool) (debt weight : Call → Nat) (level : W → Nat) (base : Nat) (ks : List Call)
    (c : Config ε Val W Call Reply) : Prop :=
  ∃ paid : List (Thread ε Val W Call Reply × Nat), paid.map Prod.fst = c.threads ∧
    (∀ b ∈ paid, b.1.prog.AtLeast counts (debt b.1.call - b.2)) ∧
    base + (paid.map Prod.snd).sum ≤
      level c.world + (c.threads.map fun th => weight th.call).sum + (ks.map weight).sum

section Runs

variable {S : System ε Val W C Call Env Reply} {counts : Op → Bool} {debt weight : Call → Nat} {level : W → Nat}
variable {c c' : Config ε Val W Call Reply} {base : Nat}

theorem debt_of_succeeded {th : Thread ε Val W Call Reply} {n : Nat} (h : th.prog.AtLeast counts n)
    (hth : th.succeeded = true) : n = 0 := by
  unfold Thread.succeeded at hth
  split at hth
  · rename_i a hprog
    rw [hprog] at h
    exact h
  · cases hth
  · cases hth

/-- A call that has succeeded has paid its debt. -/
theorem debts_le_paid {paid : List (Thread ε Val W Call Reply × Nat)}
    (h : ∀ b ∈ paid, b.1.prog.AtLeast counts (debt b.1.call - b.2)) :
    (((paid.map Prod.fst).filter Thread.succeeded).map fun th => debt th.call).sum ≤ (paid.map Prod.snd).sum := by
  induction paid with
  | nil => exact Nat.le_refl _
  | cons b paid ih =>
      have hrest := ih fun b' hb' => h b' (List.mem_cons_of_mem _ hb')
      rw [List.map_cons, List.map_cons, List.sum_cons, List.filter_cons]
      split
      · rename_i hb
        have hdue := debt_of_succeeded (h b List.mem_cons_self) hb
        rw [List.map_cons, List.sum_cons]
        omega
      · omega

namespace Config.Covers

theorem beginAll (hS : S.Owing counts debt weight level) {ks : List Call}
    (h : c.Covers counts debt weight level base ks) : (S.beginAll c ks).Covers counts debt weight level base [] := by
  induction ks generalizing c with
  | nil => exact h
  | cons k ks ih =>
      obtain ⟨paid, hthreads, howes, hle⟩ := h
      have harrive := hS.arrive k c.world
      refine ih ⟨paid ++ [(S.start (S.arrive k c.world) k, 0)], by simp [hthreads], fun b hb => ?_, ?_⟩
      · rcases List.mem_append.mp hb with hb | hb
        · exact howes b hb
        · rw [List.mem_singleton.mp hb]
          exact hS.body k
      · simp only [List.map_append, List.map_cons, List.map_nil, List.sum_append, List.sum_cons, List.sum_nil,
          System.start] at hle ⊢
        omega

/-- A call pays with the answers that raise the level. -/
theorem answer (hS : S.Owing counts debt weight level) {i : Nat} {ch : C}
    (h : c.Covers counts debt weight level base []) (hstep : S.step c (.answer i ch) = some c') :
    c'.Covers counts debt weight level base [] := by
  obtain ⟨th, op, next, a, w, hth, hprog, hans, rfl, hcase⟩ := System.step_answer hstep
  obtain ⟨paid, hthreads, howes, hle⟩ := h
  obtain ⟨hlevel, hraised⟩ := hS.answer op ch _ _ _ hans
  rcases hcase with ⟨rfl, hths⟩ | ⟨r, rfl, hths⟩
  · exact ⟨paid, by rw [hths, hthreads], howes, by rw [hths]; omega⟩
  have hth' := hth
  rw [← hthreads, List.getElem?_map] at hth'
  obtain ⟨b, hb, rfl⟩ := Option.map_eq_some_iff.mp hth'
  have hdue := howes b (List.mem_of_getElem? hb)
  rw [hprog] at hdue
  obtain ⟨more, hnext, hmore⟩ : ∃ more, (next r).AtLeast counts (debt b.1.call - (b.2 + more)) ∧
      level c.world + more ≤ level c'.world := by
    cases r with
    | error e => exact ⟨0, hdue.2 e, hlevel⟩
    | ok v =>
        refine ⟨(counts op).toNat, by rw [← Nat.sub_sub]; exact hdue.1 v, ?_⟩
        cases hop : counts op with
        | true => exact hraised hop v rfl
        | false => exact hlevel
  refine ⟨paid.set i ({ b.1 with resumed := c'.world, prog := next r }, b.2 + more), ?_, fun b' hb' => ?_, ?_⟩
  · rw [List.map_set, hths, hthreads]
  · rcases List.mem_or_eq_of_mem_set hb' with hb' | rfl
    · exact howes b' hb'
    · exact hnext
  · have hsum : ((paid.map Prod.snd).set i (b.2 + more)).sum + b.2 = (paid.map Prod.snd).sum + (b.2 + more) :=
      sum_set_add (by rw [List.getElem?_map, hb]; rfl)
    have hweights : ((c.threads.map fun th => weight th.call).set i (weight b.1.call)).sum + weight b.1.call =
        (c.threads.map fun th => weight th.call).sum + weight b.1.call :=
      sum_set_add (by rw [List.getElem?_map, hth]; rfl)
    simp only [hths, List.map_set]
    omega

theorem step (hS : S.Owing counts debt weight level) {l : Label C Call Env}
    (h : c.Covers counts debt weight level base []) (hstep : S.step c l = some c') :
    c'.Covers counts debt weight level (base + ((begun [l]).map weight).sum) [] := by
  cases l with
  | begin k =>
      cases hstep
      obtain ⟨paid, hthreads, howes, hle⟩ := h
      refine beginAll hS ⟨paid, hthreads, howes, ?_⟩
      simp only [begun, List.filterMap_cons, List.filterMap_nil, List.map_nil, List.sum_nil] at hle ⊢
      omega
  | answer i ch => exact h.answer hS hstep
  | env e =>
      obtain ⟨w, ks, henv, rfl⟩ := System.step_env hstep
      have hpaid := hS.env e _ _ _ henv
      obtain ⟨paid, hthreads, howes, hle⟩ := h
      refine beginAll hS ⟨paid, hthreads, howes, ?_⟩
      simp only [begun, List.filterMap_cons, List.filterMap_nil, List.map_nil, List.sum_nil] at hle ⊢
      omega

theorem run (hS : S.Owing counts debt weight level) {ls : List (Label C Call Env)}
    (h : c.Covers counts debt weight level base []) (hrun : S.run c ls = some c') :
    c'.Covers counts debt weight level (base + ((begun ls).map weight).sum) [] := by
  induction ls generalizing c base with
  | nil =>
      cases hrun
      exact h
  | cons l ls ih =>
      obtain ⟨c₁, hl, hls⟩ := Option.bind_eq_some_iff.mp hrun
      have hrest := ih (h.step hS hl) hls
      rw [Nat.add_assoc, ← List.sum_append, ← List.map_append] at hrest
      rwa [← List.singleton_append, begun_append]

theorem succeeded (h : c.Covers counts debt weight level base []) :
    base + ((c.threads.filter Thread.succeeded).map fun th => debt th.call).sum ≤
      level c.world + (c.threads.map fun th => weight th.call).sum := by
  obtain ⟨paid, hthreads, howes, hle⟩ := h
  have hdebts := debts_le_paid howes
  rw [hthreads] at hdebts
  simp only [List.map_nil, List.sum_nil] at hle
  omega

end Config.Covers

/-- In every run the level and the weight of all calls so far cover what the calls from outside bring and the debts of
the calls that have succeeded. -/
theorem System.Owing.covered (hS : S.Owing counts debt weight level) {w : W} {ls : List (Label C Call Env)}
    (hrun : S.run (.init w) ls = some c) :
    level w + ((begun ls).map weight).sum + ((c.threads.filter Thread.succeeded).map fun th => debt th.call).sum ≤
      level c.world + (c.threads.map fun th => weight th.call).sum := by
  have hinit : (Config.init w : Config ε Val W Call Reply).Covers counts debt weight level (level w) [] :=
    ⟨[], rfl, by simp, Nat.le_refl _⟩
  exact (hinit.run hS hrun).succeeded

end Runs

end Async
