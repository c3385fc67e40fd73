import Mathlib
import GuardianshipAgency.Async.Lemmas.Projection
import GuardianshipAgency.Async.Meter

/-!
# Calls that go on alike without the others

As in `Projection` calls are left out of a run. Here the answers to the calls that stay may differ, but only in what
these calls do not heed.
-/

namespace Async

variable {ε Op : Type} {Val : Op → Type} {W C Call Env Reply α β : Type}

/-! ## What a program heeds -/

/-- The program goes on in the same way after answers that are the `same` to it. -/
def Prog.Heeds (same : (op : Op) → Except ε (Val op) → Except ε (Val op) → Prop) : Prog ε Val α → Prop
  | .settled _ => True
  | .await op next => (∀ r r', same op r r' → next r = next r') ∧ ∀ r, (next r).Heeds same

namespace Prog.Heeds

variable {same : (op : Op) → Except ε (Val op) → Except ε (Val op) → Prop} {p : Prog ε Val α}

theorem of_calls (h : p.Calls fun op => ∀ r r', same op r r' → r = r') : p.Heeds same := by
  induction p with
  | settled r => trivial
  | await op next ih => exact ⟨fun r r' hr => by rw [h.1 r r' hr], fun r => ih r (h.2 r)⟩

theorem andThen {k : Except ε α → Prog ε Val β} (h : p.Heeds same) (hk : ∀ r, (k r).Heeds same) :
    (p.andThen k).Heeds same := by
  induction p with
  | settled r => exact hk r
  | await op next ih =>
      exact ⟨fun r r' hr => congrArg (fun q => Prog.andThen q k) (h.1 r r' hr), fun r => ih r (h.2 r)⟩

theorem bind {f : α → Prog ε Val β} (h : p.Heeds same) (hf : ∀ a, (f a).Heeds same) : (p >>= f).Heeds same :=
  h.andThen fun r => by
    cases r with
    | ok a => exact hf a
    | error e => trivial

theorem tryCatch {handler : ε → Prog ε Val α} (h : p.Heeds same) (hhandler : ∀ e, (handler e).Heeds same) :
    (tryCatch p handler).Heeds same :=
  h.andThen fun r => by
    cases r with
    | ok a => trivial
    | error e => exact hhandler e

end Prog.Heeds

/-! ## Separate calls -/

/-- What is to be proved of a cut. `knows` is what can be said of each awaited call in every run. -/
structure Cut.Separates (S : System ε Val W C Call Env Reply) (cut : Cut Op C Call Env)
    (same : Call → (op : Op) → Except ε (Val op) → Except ε (Val op) → Prop) (knows : W → Call → Op → Prop)
    (sim : W → W → Prop) : Prop where
  body : ∀ k, (S.body k).Heeds (same k)
  arrive : ∀ k w v, sim w v → sim (S.arrive k w) (if cut.keeps k then S.arrive k v else v)
  answer : ∀ k op ch w a w' v, cut.keeps k = true → knows w k op → sim w v → S.answer op ch w = some (a, w') →
    ∃ ch' a' v', S.answer op ch' v = some (a', v') ∧ Option.Rel (same k op) a a' ∧ sim w' v'
  leaves : ∀ k op ch w a w' v, cut.keeps k = false → knows w k op → sim w v → S.answer op ch w = some (a, w') →
    ∃ v', S.Moves v (cut.instead op ch) v' ∧ sim w' v'
  env : ∀ e w w' ks v, sim w v → S.env e w = some (w', ks) →
    (∀ k ∈ ks, cut.keeps k = cut.keepsEnv e) ∧
      ∃ v', (if cut.keepsEnv e then S.env e v = some (v', ks) else v' = v) ∧ sim w' v'

variable {S : System ε Val W C Call Env Reply} {cut : Cut Op C Call Env}
variable {same : Call → (op : Op) → Except ε (Val op) → Except ε (Val op) → Prop} {knows : W → Call → Op → Prop}
variable {sim : W → W → Prop}

/-- Every call under way awaits what it knows to be its own. -/
def Config.Knows (knows : W → Call → Op → Prop) (c : Config ε Val W Call Reply) : Prop :=
  ∀ th ∈ c.threads, ∀ op next, th.prog = .await op next → knows c.world th.call op

/-- `d` is `c` without the calls left out. -/
structure Config.Mirrors (cut : Cut Op C Call Env)
    (same : Call → (op : Op) → Except ε (Val op) → Except ε (Val op) → Prop) (sim : W → W → Prop)
    (c d : Config ε Val W Call Reply) : Prop where
  world : sim c.world d.world
  threads : c.KeptAlike cut d
  heeds : ∀ th ∈ c.threads, th.prog.Heeds (same th.call)

namespace Config.Mirrors

variable {c c' d : Config ε Val W Call Reply}

theorem beginAll (hS : cut.Separates S same knows sim) (h : c.Mirrors cut same sim d) (ks : List Call) :
    (S.beginAll c ks).Mirrors cut same sim (S.beginAll d (ks.filter cut.keeps)) := by
  induction ks generalizing c d with
  | nil => exact h
  | cons k ks ih =>
      have hsim := hS.arrive k c.world d.world h.world
      have hthreads := h.threads
      have hheeds : ∀ th ∈ c.threads ++ [S.start (S.arrive k c.world) k], th.prog.Heeds (same th.call) := by
        intro th hth
        rcases List.mem_append.mp hth with hth | hth
        · exact h.heeds th hth
        · rw [List.mem_singleton.mp hth]
          exact hS.body k
      simp only [Config.KeptAlike] at hthreads
      cases hkeeps : cut.keeps k with
      | true =>
          rw [hkeeps] at hsim
          rw [List.filter_cons_of_pos hkeeps]
          refine ih ⟨hsim, ?_, hheeds⟩
          simp [Config.KeptAlike, System.start, Thread.state, hkeeps, hthreads]
      | false =>
          rw [hkeeps] at hsim
          rw [List.filter_cons_of_neg (by simp [hkeeps])]
          refine ih ⟨hsim, ?_, hheeds⟩
          simp [Config.KeptAlike, System.start, hkeeps, hthreads]

/-- The call number `i` has its place among those that stay. -/
theorem thread (h : c.Mirrors cut same sim d) {i : Nat} {th : Thread ε Val W Call Reply} (hth : c.threads[i]? = some th)
    (hkeeps : cut.keeps th.call = true) :
    ∃ th', d.threads[(c.threads.take i).countP fun th => cut.keeps th.call]? = some th' ∧ th'.state = th.state := by
  have hfilter := getElem?_filter_countP (fun th => cut.keeps th.call) hth hkeeps
  have hmap := congrArg (·[(c.threads.take i).countP fun th => cut.keeps th.call]?) h.threads
  simp only [List.getElem?_map, hfilter, Option.map_some, Option.map_eq_some_iff] at hmap
  exact hmap

/-- A call that stays goes on in the same way. -/
theorem answerKept (hS : cut.Separates S same knows sim) (h : c.Mirrors cut same sim d) (hknows : c.Knows knows)
    {i : Nat} {ch : C} {th : Thread ε Val W Call Reply} (hth : c.threads[i]? = some th)
    (hkeeps : cut.keeps th.call = true) (hstep : S.step c (.answer i ch) = some c') :
    ∃ j ch' d', S.step d (.answer j ch') = some d' ∧ c'.Mirrors cut same sim d' := by
  obtain ⟨th₁, op, next, a, w, hth₁, hprog, hans, rfl, hcase⟩ := System.step_answer hstep
  rw [hth] at hth₁
  cases hth₁
  have hmem := List.mem_of_getElem? hth
  have hheeds := h.heeds th hmem
  rw [hprog] at hheeds
  obtain ⟨ch', a', v', hans', hsame, hsim⟩ :=
    hS.answer th.call op ch _ _ _ d.world hkeeps (hknows th hmem op next hprog) h.world hans
  obtain ⟨th', hth', hstate⟩ := h.thread hth hkeeps
  obtain ⟨hcall', hprog'⟩ := Prod.mk.inj hstate
  rw [hprog] at hprog'
  refine ⟨(c.threads.take i).countP fun th => cut.keeps th.call, ch', ?_⟩
  rcases hcase with ⟨rfl, hths⟩ | ⟨r, rfl, hths⟩
  · cases hsame
    refine ⟨{ d with world := v' }, by simp [System.step, hth', hprog', hans'], hsim, ?_, ?_⟩
    · simpa [Config.KeptAlike, hths] using h.threads
    · rw [hths]
      exact h.heeds
  · cases hsame with
    | some hsame =>
        rename_i r'
        refine ⟨_, by simp [System.step, hth', hprog', hans']; rfl, hsim, ?_, ?_⟩
        · have hthreads := h.threads
          simp only [Config.KeptAlike] at hthreads ⊢
          rw [hths, filter_set_of_pos (fun th => cut.keeps th.call) hth hkeeps, List.map_set, List.map_set, hthreads,
            Thread.state, Thread.state, hcall', hheeds.1 _ _ hsame]
          exact hkeeps
        · intro th₂ hth₂
          rw [hths] at hth₂
          rcases List.mem_or_eq_of_mem_set hth₂ with hth₂ | rfl
          · exact h.heeds th₂ hth₂
          · exact hheeds.2 r

/-- A call left out changes nothing for those that stay. -/
theorem answerLeft (hS : cut.Separates S same knows sim) (h : c.Mirrors cut same sim d) (hknows : c.Knows knows)
    {i : Nat} {ch : C} {th : Thread ε Val W Call Reply} (hth : c.threads[i]? = some th)
    (hkeeps : cut.keeps th.call = false) (hstep : S.step c (.answer i ch) = some c') :
    ∃ op, ∃ v', S.Moves d.world (cut.instead op ch) v' ∧ c'.Mirrors cut same sim { d with world := v' } := by
  obtain ⟨th₁, op, next, a, w, hth₁, hprog, hans, rfl, hcase⟩ := System.step_answer hstep
  rw [hth] at hth₁
  cases hth₁
  have hmem := List.mem_of_getElem? hth
  have hheeds := h.heeds th hmem
  rw [hprog] at hheeds
  obtain ⟨v', hmoves, hsim⟩ :=
    hS.leaves th.call op ch _ _ _ d.world hkeeps (hknows th hmem op next hprog) h.world hans
  refine ⟨op, v', hmoves, hsim, ?_, ?_⟩
  · rcases hcase with ⟨-, hths⟩ | ⟨r, -, hths⟩
    · simpa [Config.KeptAlike, hths] using h.threads
    · simp only [Config.KeptAlike]
      rw [hths, filter_set_of_neg (fun th => cut.keeps th.call) hth hkeeps]
      · exact h.threads
      · exact hkeeps
  · rcases hcase with ⟨-, hths⟩ | ⟨r, -, hths⟩
    · rw [hths]
      exact h.heeds
    · intro th₂ hth₂
      rw [hths] at hth₂
      rcases List.mem_or_eq_of_mem_set hth₂ with hth₂ | rfl
      · exact h.heeds th₂ hth₂
      · exact hheeds.2 r

theorem step (hS : cut.Separates S same knows sim) (h : c.Mirrors cut same sim d) (hknows : c.Knows knows)
    {l : Label C Call Env} (hstep : S.step c l = some c') :
    ∃ ls d', S.run d ls = some d' ∧ begun ls = (begun [l]).filter cut.keeps ∧ c'.Mirrors cut same sim d' := by
  cases l with
  | begin k =>
      cases hstep
      have hbegin := h.beginAll hS [k]
      refine ⟨([k].filter cut.keeps).map .begin, _, ?_, ?_, hbegin⟩
      · cases hkeeps : cut.keeps k <;> simp [hkeeps, System.run, System.step, System.beginAll]
      · cases hkeeps : cut.keeps k <;> simp [hkeeps, begun]
  | answer i ch =>
      obtain ⟨th, op, next, -, -, hth, hprog, -⟩ := System.step_answer hstep
      cases hkeeps : cut.keeps th.call with
      | true =>
          obtain ⟨j, ch', d', hstep', hmirrors⟩ := h.answerKept hS hknows hth hkeeps hstep
          exact ⟨[.answer j ch'], d', by simp [System.run, hstep'], rfl, hmirrors⟩
      | false =>
          obtain ⟨op, v', hmoves, hmirrors⟩ := h.answerLeft hS hknows hth hkeeps hstep
          cases hinstead : cut.instead op ch with
          | none =>
              rw [hinstead] at hmoves
              cases hmoves
              exact ⟨[], _, rfl, rfl, hmirrors⟩
          | some e =>
              rw [hinstead] at hmoves
              simp only [System.Moves] at hmoves
              exact ⟨[.env e], _, by simp [System.run, System.step, hmoves, System.beginAll], rfl, hmirrors⟩
  | env e =>
      obtain ⟨w, ks, henv, rfl⟩ := System.step_env hstep
      obtain ⟨hks, v', henv', hsim⟩ := hS.env e c.world w ks d.world h.world henv
      have hworld : Config.Mirrors cut same sim { c with world := w } { d with world := v' } :=
        ⟨hsim, h.threads, h.heeds⟩
      have hbegin := hworld.beginAll hS ks
      cases hkeeps : cut.keepsEnv e with
      | true =>
          rw [hkeeps] at henv' hks
          rw [List.filter_eq_self.mpr hks] at hbegin
          refine ⟨[.env e], _, ?_, rfl, hbegin⟩
          simp only [if_true] at henv'
          simp [System.run, System.step, henv']
      | false =>
          rw [hkeeps] at henv' hks
          simp only [Bool.false_eq_true, if_false] at henv'
          subst henv'
          rw [List.filter_eq_nil_iff.mpr fun k hk => by simp [hks k hk]] at hbegin
          exact ⟨[], d, rfl, rfl, hbegin⟩

theorem run (hS : cut.Separates S same knows sim) {w : W}
    (hknows : ∀ ls (c : Config ε Val W Call Reply), S.run (.init w) ls = some c → c.Knows knows)
    (h : c.Mirrors cut same sim d) {ls₀ ls : List (Label C Call Env)} (hreached : S.run (.init w) ls₀ = some c)
    (hrun : S.run c ls = some c') :
    ∃ ls' d', S.run d ls' = some d' ∧ begun ls' = (begun ls).filter cut.keeps ∧ c'.Mirrors cut same sim d' := by
  induction ls generalizing c d ls₀ with
  | nil =>
      cases hrun
      exact ⟨[], d, rfl, rfl, h⟩
  | cons l ls ih =>
      obtain ⟨c₁, hl, hls⟩ := Option.bind_eq_some_iff.mp hrun
      obtain ⟨ls₁, d₁, hd₁, hbegun₁, hmirrors⟩ := h.step hS (hknows ls₀ c hreached) hl
      have hreached₁ : S.run (.init w) (ls₀ ++ [l]) = some c₁ := by
        rw [System.run_append, hreached]
        simp [System.run, hl]
      obtain ⟨ls₂, d₂, hd₂, hbegun₂, hmirrors₂⟩ := ih hmirrors hreached₁ hls
      refine ⟨ls₁ ++ ls₂, d₂, ?_, ?_, hmirrors₂⟩
      · rw [System.run_append, hd₁]
        exact hd₂
      · rw [begun_append, hbegun₁, hbegun₂, ← List.filter_append, ← begun_append, List.singleton_append]

end Config.Mirrors

end Async
