import GuardianshipAgency.Async.Lemmas.Ensures

/-!
# Runs of a system

What one step preserves, every run preserves. For a sound system the invariant is `Config.Ok`.
-/

namespace Async

variable {ε Op : Type} {Val : Op → Type} {W C Call Env Reply : Type}
variable {S : System ε Val W C Call Env Reply}

namespace System

/-! ## One step -/

/-- What an answer does: the call `i` awaits `op`, and either its answer is lost and nothing but the world
changes, or the call resumes. -/
theorem step_answer {c c' : Config ε Val W Call Reply} {i : Nat} {ch : C}
    (h : S.step c (.answer i ch) = some c') :
    ∃ th op next a w, c.threads[i]? = some th ∧ th.prog = .await op next ∧
      S.answer op ch c.world = some (a, w) ∧ c'.world = w ∧
      ((a = none ∧ c'.threads = c.threads) ∨
        ∃ r, a = some r ∧ c'.threads = c.threads.set i { th with resumed := w, prog := next r }) := by
  simp only [step] at h
  split at h
  · cases h
  · rename_i th hth
    split at h
    · cases h
    · rename_i op next hprog
      split at h
      · cases h
      · rename_i w hans
        cases h
        exact ⟨th, op, next, none, w, hth, hprog, hans, rfl, .inl ⟨rfl, rfl⟩⟩
      · rename_i r w hans
        cases h
        exact ⟨th, op, next, some r, w, hth, hprog, hans, rfl, .inr ⟨r, rfl, rfl⟩⟩

theorem step_env {c c' : Config ε Val W Call Reply} {e : Env} (h : S.step c (.env e) = some c') :
    ∃ w ks, S.env e c.world = some (w, ks) ∧ c' = S.beginAll { c with world := w } ks := by
  simp only [step] at h
  split at h
  · cases h
  · rename_i w ks henv
    cases h
    exact ⟨w, ks, henv, rfl⟩

/-! ## Runs -/

theorem run_append {c : Config ε Val W Call Reply} (ls₁ ls₂ : List (Label C Call Env)) :
    S.run c (ls₁ ++ ls₂) = (S.run c ls₁).bind fun c₁ => S.run c₁ ls₂ := by
  induction ls₁ generalizing c with
  | nil => rfl
  | cons l ls ih =>
      simp only [List.cons_append, run]
      cases S.step c l with
      | none => rfl
      | some c₁ => exact ih

theorem along_append {R : Config ε Val W Call Reply → Label C Call Env → Prop}
    {c c₁ : Config ε Val W Call Reply} {ls₁ ls₂ : List (Label C Call Env)} (h : S.run c ls₁ = some c₁) :
    S.Along R c (ls₁ ++ ls₂) ↔ S.Along R c ls₁ ∧ S.Along R c₁ ls₂ := by
  induction ls₁ generalizing c with
  | nil => cases h; simp [Along]
  | cons l ls ih =>
      cases hl : S.step c l with
      | none => simp [run, hl] at h
      | some c' =>
          have hls : S.run c' ls = some c₁ := by simpa [run, hl] using h
          simp only [List.cons_append, Along, hl, Option.some.injEq, forall_eq', ih hls, and_assoc]

theorem Along.mono {R R' : Config ε Val W Call Reply → Label C Call Env → Prop}
    {c : Config ε Val W Call Reply} {ls : List (Label C Call Env)} (h : S.Along R c ls)
    (hR : ∀ c l, R c l → R' c l) : S.Along R' c ls := by
  induction ls generalizing c with
  | nil => trivial
  | cons l ls ih => exact ⟨hR c l h.1, fun c' hc' => ih (h.2 c' hc')⟩

theorem along_of_mem {R : Config ε Val W Call Reply → Label C Call Env → Prop} {ls : List (Label C Call Env)}
    (hR : ∀ l ∈ ls, ∀ c, R c l) (c : Config ε Val W Call Reply) : S.Along R c ls := by
  induction ls generalizing c with
  | nil => trivial
  | cons l ls ih => exact ⟨hR l (by simp) c, fun c' _ => ih (fun l hl => hR l (by simp [hl])) c'⟩

theorem run_invariant {Inv : Config ε Val W Call Reply → Prop}
    {R : Config ε Val W Call Reply → Label C Call Env → Prop}
    (hstep : ∀ c l c', Inv c → R c l → S.step c l = some c' → Inv c')
    {c c' : Config ε Val W Call Reply} {ls : List (Label C Call Env)} (hc : Inv c) (hR : S.Along R c ls)
    (hrun : S.run c ls = some c') : Inv c' := by
  induction ls generalizing c with
  | nil => cases hrun; exact hc
  | cons l ls ih =>
      cases hl : S.step c l with
      | none => simp [run, hl] at hrun
      | some c₁ =>
          exact ih (hstep c l c₁ hc hR.1 hl) (hR.2 c₁ hl) (by simpa [run, hl] using hrun)

/-! ## Calls that begin -/

/-- If nothing happens to the world when calls arrive, they all begin in the world as it is. -/
theorem mem_beginAll (harrive : ∀ k w, S.arrive k w = w) {c : Config ε Val W Call Reply} {ks : List Call}
    {th : Thread ε Val W Call Reply} (hth : th ∈ (S.beginAll c ks).threads) :
    th ∈ c.threads ∨ ∃ k ∈ ks, th = S.start c.world k := by
  induction ks generalizing c with
  | nil => exact .inl hth
  | cons k ks ih =>
      rw [beginAll, harrive] at hth
      rcases ih hth with hth | ⟨k', hk', rfl⟩
      · rcases List.mem_append.mp hth with hth | hth
        · exact .inl hth
        · exact .inr ⟨k, .head _, List.mem_singleton.mp hth⟩
      · exact .inr ⟨k', .tail _ hk', rfl⟩

/-! ## What a call has still to do -/

variable (S) in
/-- Every call under way is at a point of its own body. -/
def InBody (c : Config ε Val W Call Reply) : Prop := ∀ th ∈ c.threads, (S.body th.call).Reaches th.prog

theorem InBody.beginAll {c : Config ε Val W Call Reply} {ks : List Call} (hc : S.InBody c) :
    S.InBody (S.beginAll c ks) := by
  induction ks generalizing c with
  | nil => exact hc
  | cons k ks ih =>
      apply ih
      intro th hth
      rcases List.mem_append.mp hth with hth | hth
      · exact hc th hth
      · rw [List.mem_singleton.mp hth]
        exact .refl _

theorem InBody.step {c c' : Config ε Val W Call Reply} {l : Label C Call Env} (hc : S.InBody c)
    (h : S.step c l = some c') : S.InBody c' := by
  cases l with
  | begin k =>
      cases h
      exact hc.beginAll
  | answer i ch =>
      obtain ⟨th, op, next, a, w, hth, hprog, -, -, ⟨-, hths⟩ | ⟨r, -, hths⟩⟩ := step_answer h
      · intro th' hth'
        exact hc th' (hths ▸ hth')
      · intro th' hth'
        rw [hths] at hth'
        rcases List.mem_or_eq_of_mem_set hth' with hth' | rfl
        · exact hc th' hth'
        · have hreach := hc th (List.mem_of_getElem? hth)
          rw [hprog] at hreach
          exact hreach.next r
  | env e =>
      obtain ⟨w, ks, -, rfl⟩ := step_env h
      have hw : S.InBody { c with world := w } := hc
      exact hw.beginAll

theorem InBody.run {w : W} {c : Config ε Val W Call Reply} {ls : List (Label C Call Env)}
    (h : S.run (.init w) ls = some c) : S.InBody c := by
  have hinit : S.InBody (.init w) := fun th hth => by simp [Config.init] at hth
  exact run_invariant (fun _ _ _ hc _ hstep => InBody.step hc hstep) hinit
    (along_of_mem (fun _ _ _ => trivial) (Config.init w)) h

end System

/-! ## Sound systems -/

section Sound

variable {P : Rely W} {allowed : Call → Prop} {T : Call → W → Terms W Op C}
variable {Q : Call → W → Except ε Reply → W → Prop}

theorem Thread.Ok.later {w w' : W} {th : Thread ε Val W Call Reply} (h : th.Ok S P allowed T Q w)
    (hrel : P.rel w w') : th.Ok S P allowed T Q w' :=
  { h with resumed := P.trans h.resumed hrel }

theorem Config.Ok.init {w : W} (h : P.inv w) : (Config.init w).Ok S P allowed T Q :=
  ⟨h, fun _ hth => by simp [Config.init] at hth⟩

theorem Config.Ok.beginAll (hS : S.Sound P allowed T Q) {c : Config ε Val W Call Reply} {ks : List Call}
    (hc : c.Ok S P allowed T Q) (hks : ∀ k ∈ ks, allowed k) : (S.beginAll c ks).Ok S P allowed T Q := by
  induction ks generalizing c with
  | nil => exact hc
  | cons k ks ih =>
      have hk := hks k (by simp)
      obtain ⟨hinv, hrel⟩ := hS.arrive k c.world hk hc.inv
      refine ih ⟨hinv, fun th hth => ?_⟩ fun k' hk' => hks k' (by simp [hk'])
      simp only [List.mem_append, List.mem_singleton] at hth
      rcases hth with hth | rfl
      · exact (hc.threads th hth).later hrel
      · exact ⟨hk, P.refl _, P.refl _, hS.body k c.world hk hc.inv hinv⟩

theorem Config.Ok.step (hS : S.Sound P allowed T Q) {c c' : Config ε Val W Call Reply}
    {l : Label C Call Env} (hc : c.Ok S P allowed T Q) (hl : Config.StepOk allowed T c l)
    (h : S.step c l = some c') : c'.Ok S P allowed T Q := by
  cases l with
  | begin k =>
      cases h
      exact hc.beginAll hS (by simpa [Config.StepOk] using hl)
  | answer i ch =>
      obtain ⟨th, op, next, a, w, hth, hprog, hans, rfl, hcase⟩ := System.step_answer h
      have hok := hc.threads th (List.mem_of_getElem? hth)
      have hens := hok.ensures
      rw [hprog] at hens
      obtain ⟨⟨hinv, hrel⟩, hnext⟩ :=
        (hens c.world hok.resumed hc.inv).2 ch a _ (hl th op next hth hprog) hans
      rcases hcase with ⟨-, hths⟩ | ⟨r, rfl, hths⟩
      · exact ⟨hinv, fun th' hth' => (hc.threads th' (hths ▸ hth')).later hrel⟩
      · refine ⟨hinv, fun th' hth' => ?_⟩
        rw [hths] at hth'
        rcases List.mem_or_eq_of_mem_set hth' with hth' | rfl
        · exact (hc.threads th' hth').later hrel
        · exact ⟨hok.allowed, P.trans hok.began (P.trans hok.resumed hrel), P.refl _, hnext r rfl⟩
  | env e =>
      obtain ⟨w, ks, henv, rfl⟩ := System.step_env h
      obtain ⟨hinv, hrel, hks⟩ := hS.env e c.world w ks hc.inv henv
      exact Config.Ok.beginAll hS ⟨hinv, fun th hth => (hc.threads th hth).later hrel⟩ hks

/-- Every run of a sound system that keeps to the assumptions keeps `Config.Ok`. -/
theorem Config.Ok.run (hS : S.Sound P allowed T Q) {c c' : Config ε Val W Call Reply}
    {ls : List (Label C Call Env)} (hc : c.Ok S P allowed T Q) (hls : S.Along (Config.StepOk allowed T) c ls)
    (h : S.run c ls = some c') : c'.Ok S P allowed T Q :=
  System.run_invariant (fun _ _ _ hc hl h => hc.step hS hl h) hc hls h

theorem Config.Ok.guard {c : Config ε Val W Call Reply} (hc : c.Ok S P allowed T Q)
    {th : Thread ε Val W Call Reply} (hth : th ∈ c.threads) {op : Op}
    {next : Except ε (Val op) → Prog ε Val Reply} (hprog : th.prog = .await op next) :
    (T th.call th.began).guard th.resumed c.world op := by
  have hok := hc.threads th hth
  have hens := hok.ensures
  rw [hprog] at hens
  exact (hens c.world hok.resumed hc.inv).1

theorem Config.Ok.settled {c : Config ε Val W Call Reply} (hc : c.Ok S P allowed T Q)
    {th : Thread ε Val W Call Reply} (hth : th ∈ c.threads) {r : Except ε Reply}
    (hprog : th.prog = .settled r) : Q th.call th.began r c.world := by
  have hok := hc.threads th hth
  have hens := hok.ensures
  rw [hprog] at hens
  exact hens c.world hok.resumed hc.inv

end Sound

end Async
