import GuardianshipAgency.Async.Lemmas.Pool
import GuardianshipAgency.Async.Projection

/-!
# What stays of a run is a run
-/

namespace Async

/-! ## Lists with elements left out -/

section Lists

variable {α : Type} (p : α → Bool) {l : List α} {i : Nat} {x y : α}

theorem getElem?_filter_countP (h : l[i]? = some x) (hx : p x = true) :
    (l.filter p)[(l.take i).countP p]? = some x := by
  induction l generalizing i with
  | nil => simp at h
  | cons z l ih =>
      cases i with
      | zero =>
          obtain rfl : z = x := by simpa using h
          simp [hx]
      | succ i =>
          have hrest := ih (by simpa using h : l[i]? = some x)
          cases hz : p z <;> simp [hz, hrest]

theorem filter_set_of_pos (h : l[i]? = some x) (hx : p x = true) (hy : p y = true) :
    (l.set i y).filter p = (l.filter p).set ((l.take i).countP p) y := by
  induction l generalizing i with
  | nil => simp at h
  | cons z l ih =>
      cases i with
      | zero =>
          obtain rfl : z = x := by simpa using h
          simp [hx, hy]
      | succ i =>
          have hrest := ih (by simpa using h : l[i]? = some x)
          cases hz : p z <;> simp [hz, hrest]

theorem filter_set_of_neg (h : l[i]? = some x) (hx : p x = false) (hy : p y = false) :
    (l.set i y).filter p = l.filter p := by
  induction l generalizing i with
  | nil => rfl
  | cons z l ih =>
      cases i with
      | zero =>
          obtain rfl : z = x := by simpa using h
          simp [hx, hy]
      | succ i =>
          have hrest := ih (by simpa using h : l[i]? = some x)
          cases hz : p z <;> simp [hz, hrest]

end Lists

variable {ε Op : Type} {Val : Op → Type} {W C Call Env Reply : Type}
variable {S : System ε Val W C Call Env Reply} {cut : Cut Op C Call Env}
variable {allowed : Call → Prop} {makes : Call → Op → Prop} {sim : W → W → Prop}

namespace Config.Matches

variable {c c' d : Config ε Val W Call Reply}

theorem init {w v : W} (h : sim w v) :
    (Config.init w : Config ε Val W Call Reply).Matches cut allowed makes sim (.init v) where
  world := h
  threads := rfl
  ok th hth := by cases hth

theorem beginKept (hS : cut.Sound S allowed makes sim) (h : c.Matches cut allowed makes sim d) {ks : List Call}
    (hks : ∀ k ∈ ks, allowed k ∧ cut.keeps k = true) :
    (S.beginAll c ks).Matches cut allowed makes sim (S.beginAll d ks) := by
  induction ks generalizing c d with
  | nil => exact h
  | cons k ks ih =>
      obtain ⟨hk, hkeeps⟩ := hks k (by simp)
      refine ih ⟨?_, ?_, ?_⟩ fun k' hk' => hks k' (by simp [hk'])
      · have hsim := hS.arrive k c.world d.world hk h.world
        rwa [if_pos hkeeps] at hsim
      · have hthreads := h.threads
        simp only [Config.KeptAlike] at hthreads
        simp [Config.KeptAlike, System.start, Thread.state, hkeeps, hthreads]
      · intro th hth
        rcases List.mem_append.mp hth with hth | hth
        · exact h.ok th hth
        · rw [List.mem_singleton.mp hth]
          exact ⟨hk, hS.body k hk⟩

theorem beginLeft (hS : cut.Sound S allowed makes sim) (h : c.Matches cut allowed makes sim d) {ks : List Call}
    (hks : ∀ k ∈ ks, allowed k ∧ cut.keeps k = false) : (S.beginAll c ks).Matches cut allowed makes sim d := by
  induction ks generalizing c with
  | nil => exact h
  | cons k ks ih =>
      obtain ⟨hk, hkeeps⟩ := hks k (by simp)
      refine ih ⟨?_, ?_, ?_⟩ fun k' hk' => hks k' (by simp [hk'])
      · have hsim := hS.arrive k c.world d.world hk h.world
        rwa [if_neg (by simp [hkeeps])] at hsim
      · have hthreads := h.threads
        simp only [Config.KeptAlike] at hthreads
        simp [Config.KeptAlike, System.start, hkeeps, hthreads]
      · intro th hth
        rcases List.mem_append.mp hth with hth | hth
        · exact h.ok th hth
        · rw [List.mem_singleton.mp hth]
          exact ⟨hk, hS.body k hk⟩

/-- The call number `i` has its place among those that stay. -/
theorem thread (h : c.Matches cut allowed makes sim d) {i : Nat} {th : Thread ε Val W Call Reply}
    (hth : c.threads[i]? = some th) (hkeeps : cut.keeps th.call = true) :
    ∃ th', d.threads[(c.threads.take i).countP fun th => cut.keeps th.call]? = some th' ∧ th'.state = th.state := by
  have hfilter := getElem?_filter_countP (fun th => cut.keeps th.call) hth hkeeps
  have hmap := congrArg (·[(c.threads.take i).countP fun th => cut.keeps th.call]?) h.threads
  simp only [List.getElem?_map, hfilter, Option.map_some, Option.map_eq_some_iff] at hmap
  exact hmap

/-- A call that stays gets the same answer. -/
theorem answerKept (hS : cut.Sound S allowed makes sim) (h : c.Matches cut allowed makes sim d) {i : Nat} {ch : C}
    {th : Thread ε Val W Call Reply} (hth : c.threads[i]? = some th) (hkeeps : cut.keeps th.call = true)
    (hstep : S.step c (.answer i ch) = some c') :
    ∃ d', S.step d (.answer ((c.threads.take i).countP fun th => cut.keeps th.call) ch) = some d' ∧
      c'.Matches cut allowed makes sim d' := by
  obtain ⟨th₁, op, next, a, w, hth₁, hprog, hans, rfl, hcase⟩ := System.step_answer hstep
  rw [hth] at hth₁
  cases hth₁
  obtain ⟨hallowed, hcalls⟩ := h.ok th (List.mem_of_getElem? hth)
  rw [hprog] at hcalls
  obtain ⟨v', hans', hsim⟩ := hS.answer th.call op ch _ _ _ d.world hallowed hkeeps hcalls.1 h.world hans
  obtain ⟨th', hth', hstate⟩ := h.thread hth hkeeps
  obtain ⟨hcall', hprog'⟩ := Prod.mk.inj hstate
  rw [hprog] at hprog'
  rcases hcase with ⟨rfl, hths⟩ | ⟨r, rfl, hths⟩
  · refine ⟨{ d with world := v' }, by simp [System.step, hth', hprog', hans'], hsim, ?_, ?_⟩
    · simpa [Config.KeptAlike, hths] using h.threads
    · rw [hths]
      exact h.ok
  · refine ⟨_, by simp [System.step, hth', hprog', hans']; rfl, hsim, ?_, ?_⟩
    · have hthreads := h.threads
      simp only [Config.KeptAlike] at hthreads ⊢
      rw [hths, filter_set_of_pos (fun th => cut.keeps th.call) hth hkeeps, List.map_set, List.map_set, hthreads,
        Thread.state, Thread.state, hcall']
      exact hkeeps
    · intro th₂ hth₂
      rw [hths] at hth₂
      rcases List.mem_or_eq_of_mem_set hth₂ with hth₂ | rfl
      · exact h.ok th₂ hth₂
      · exact ⟨hallowed, hcalls.2 r⟩

/-- A call left out changes nothing for those that stay. -/
theorem answerLeft (hS : cut.Sound S allowed makes sim) (h : c.Matches cut allowed makes sim d) {i : Nat} {ch : C}
    {th : Thread ε Val W Call Reply} (hth : c.threads[i]? = some th) (hkeeps : cut.keeps th.call = false)
    {op : Op} {next : Except ε (Val op) → Prog ε Val Reply} (hprog : th.prog = .await op next)
    (hstep : S.step c (.answer i ch) = some c') :
    ∃ v', S.Moves d.world (cut.instead op ch) v' ∧ c'.Matches cut allowed makes sim { d with world := v' } := by
  obtain ⟨th₁, op₁, next₁, a, w, hth₁, hprog₁, hans, rfl, hcase⟩ := System.step_answer hstep
  rw [hth] at hth₁
  cases hth₁
  rw [hprog] at hprog₁
  cases hprog₁
  obtain ⟨hallowed, hcalls⟩ := h.ok th (List.mem_of_getElem? hth)
  rw [hprog] at hcalls
  obtain ⟨v', hmoves, hsim⟩ := hS.leaves th.call op ch _ _ _ d.world hallowed hkeeps hcalls.1 h.world hans
  refine ⟨v', hmoves, hsim, ?_, ?_⟩
  · rcases hcase with ⟨-, hths⟩ | ⟨r, -, hths⟩
    · simpa [Config.KeptAlike, hths] using h.threads
    · simp only [Config.KeptAlike]
      rw [hths, filter_set_of_neg (fun th => cut.keeps th.call) hth hkeeps]
      · exact h.threads
      · exact hkeeps
  · rcases hcase with ⟨-, hths⟩ | ⟨r, -, hths⟩
    · rw [hths]
      exact h.ok
    · intro th₂ hth₂
      rw [hths] at hth₂
      rcases List.mem_or_eq_of_mem_set hth₂ with hth₂ | rfl
      · exact h.ok th₂ hth₂
      · exact ⟨hallowed, hcalls.2 r⟩

theorem step (hS : cut.Sound S allowed makes sim) (h : c.Matches cut allowed makes sim d) {l : Label C Call Env}
    (hbegin : ∀ k, l = .begin k → allowed k) (hstep : S.step c l = some c') :
    ∃ d', S.run d (System.projectStep cut c l) = some d' ∧ c'.Matches cut allowed makes sim d' := by
  cases l with
  | begin k =>
      cases hstep
      cases hkeeps : cut.keeps k with
      | true =>
          refine ⟨S.beginAll d [k], by simp [System.projectStep, hkeeps, System.run, System.step], ?_⟩
          exact h.beginKept hS (by simp [hbegin, hkeeps])
      | false =>
          refine ⟨d, by simp [System.projectStep, hkeeps, System.run], ?_⟩
          exact h.beginLeft hS (by simp [hbegin, hkeeps])
  | answer i ch =>
      obtain ⟨th, op, next, -, -, hth, hprog, -⟩ := System.step_answer hstep
      cases hkeeps : cut.keeps th.call with
      | true =>
          obtain ⟨d', hstep', hmatches⟩ := h.answerKept hS hth hkeeps hstep
          exact ⟨d', by simp [System.projectStep, hth, hkeeps, System.run, hstep'], hmatches⟩
      | false =>
          obtain ⟨v', hmoves, hmatches⟩ := h.answerLeft hS hth hkeeps hprog hstep
          refine ⟨{ d with world := v' }, ?_, hmatches⟩
          simp only [System.projectStep, hth, hkeeps, hprog]
          cases hinstead : cut.instead op ch with
          | none =>
              rw [hinstead] at hmoves
              cases hmoves
              rfl
          | some e =>
              rw [hinstead] at hmoves
              simp only [System.Moves] at hmoves
              simp [System.run, System.step, hmoves, System.beginAll]
  | env e =>
      obtain ⟨w, ks, henv, rfl⟩ := System.step_env hstep
      obtain ⟨hks, v', henv', hsim⟩ := hS.env e c.world w ks d.world h.world henv
      have hworld : Config.Matches cut allowed makes sim { c with world := w } { d with world := v' } :=
        ⟨hsim, h.threads, h.ok⟩
      cases hkeeps : cut.keepsEnv e with
      | true =>
          rw [hkeeps] at henv' hks
          refine ⟨_, ?_, hworld.beginKept hS hks⟩
          simp only [if_true] at henv'
          simp [System.projectStep, hkeeps, System.run, System.step, henv']
      | false =>
          rw [hkeeps] at henv' hks
          simp only [Bool.false_eq_true, if_false] at henv'
          subst henv'
          exact ⟨d, by simp [System.projectStep, hkeeps, System.run], hworld.beginLeft hS hks⟩

theorem run (hS : cut.Sound S allowed makes sim) (h : c.Matches cut allowed makes sim d)
    {ls : List (Label C Call Env)} (hbegin : ∀ k, .begin k ∈ ls → allowed k) (hrun : S.run c ls = some c') :
    ∃ d', S.run d (S.project cut c ls) = some d' ∧ c'.Matches cut allowed makes sim d' := by
  induction ls generalizing c d with
  | nil =>
      cases hrun
      exact ⟨d, rfl, h⟩
  | cons l ls ih =>
      obtain ⟨c₁, hstep, hrest⟩ := Option.bind_eq_some_iff.mp hrun
      obtain ⟨d₁, hd₁, hmatches⟩ := h.step hS (fun k hk => hbegin k (by simp [hk])) hstep
      obtain ⟨d', hd', hmatches'⟩ := ih hmatches (fun k hk => hbegin k (by simp [hk])) hrest
      refine ⟨d', ?_, hmatches'⟩
      rw [System.project, hstep]
      dsimp only
      rw [System.run_append, hd₁]
      exact hd'

end Config.Matches

end Async
