import GuardianshipAgency.Async.Lemmas.Pool

/-!
# Leases

Some calls are the second of two, made only right after a first one that succeeded. A program that awaits such a call
holds a lease. Where a first call succeeds only if nobody holds a lease, there is never more than one holder, and the
world stays for the holder as the first call left it.
-/

namespace Async

variable {ε Op : Type} {Val : Op → Type} {W C Call Env Reply α β : Type}

/-- A call that uses a lease comes right after one that gave it and did not reject. `held` are the uses allowed at
first. -/
def Prog.Leased (uses : Op → Prop) (gives : Op → Op → Prop) : (Op → Prop) → Prog ε Val α → Prop
  | _, .settled _ => True
  | held, .await op next =>
      (uses op → held op) ∧ (∀ e, (next (.error e)).Leased uses gives fun _ => False) ∧
        ∀ v, (next (.ok v)).Leased uses gives (gives op)

namespace Prog.Leased

variable {uses : Op → Prop} {gives : Op → Op → Prop} {held held' : Op → Prop} {p : Prog ε Val α}

theorem mono (h : p.Leased uses gives held) (hheld : ∀ op, held op → held' op) : p.Leased uses gives held' := by
  cases p with
  | settled r => trivial
  | await op next => exact ⟨fun hop => hheld op (h.1 hop), h.2⟩

theorem andThen {k : Except ε α → Prog ε Val β} (h : p.Leased uses gives held)
    (hk : ∀ r, (k r).Leased uses gives fun _ => False) : (p.andThen k).Leased uses gives held := by
  induction p generalizing held with
  | settled r => exact (hk r).mono fun _ => False.elim
  | await op next ih => exact ⟨h.1, fun e => ih _ (h.2.1 e), fun v => ih _ (h.2.2 v)⟩

theorem bind {f : α → Prog ε Val β} (h : p.Leased uses gives held)
    (hf : ∀ a, (f a).Leased uses gives fun _ => False) : (p >>= f).Leased uses gives held :=
  h.andThen fun r => by
    cases r with
    | ok a => exact hf a
    | error e => trivial

theorem tryCatch {hdl : ε → Prog ε Val α} (h : p.Leased uses gives held)
    (hhdl : ∀ e, (hdl e).Leased uses gives fun _ => False) : (tryCatch p hdl).Leased uses gives held :=
  h.andThen fun r => by
    cases r with
    | ok a => trivial
    | error e => exact hhdl e

/-- A program that never uses a lease. -/
theorem of_calls (h : p.Calls fun op => ¬uses op) : p.Leased uses gives held := by
  induction p generalizing held with
  | settled r => trivial
  | await op next ih => exact ⟨fun hop => absurd hop h.1, fun e => ih _ (h.2 _), fun v => ih _ (h.2 _)⟩

/-- A first call and then the second. -/
theorem call_call {op op' : Op} (h : ¬uses op) (hgives : uses op' → gives op op') :
    ((Prog.call op : Prog ε Val _) >>= fun _ => Prog.call op').Leased uses gives held :=
  ⟨fun hop => absurd hop h, fun _ => trivial, fun _ => ⟨hgives, fun _ => trivial, fun _ => trivial⟩⟩

theorem reaches {q : Prog ε Val α} (h : p.Leased uses gives held) (hq : p.Reaches q) :
    ∃ held', q.Leased uses gives held' := by
  induction hq generalizing held with
  | refl => exact ⟨held, h⟩
  | @answered op next r q _ ih =>
      cases r with
      | error e => exact ih (h.2.1 e)
      | ok v => exact ih (h.2.2 v)

end Prog.Leased

/-- `gives k op op'`: in a call `k`, the call `op` gives the lease that `op'` uses. `agrees k op w`: the world is still
as the call before left it for `op`. -/
structure Lease (Call Op W : Type) where
  uses : Op → Prop
  gives : Call → Op → Op → Prop
  inv : W → Prop
  agrees : Call → Op → W → Prop

/-- What is to be proved of a lease, call by call. -/
structure Lease.Sound (S : System ε Val W C Call Env Reply) (L : Lease Call Op W) : Prop where
  body : ∀ k, (S.body k).Leased L.uses (L.gives k) fun _ => False
  once : ∀ op ch w w', L.uses op → S.answer op ch w ≠ some (none, w')
  inv : ∀ k op ch w a w', L.inv w → (L.uses op → L.agrees k op w) → S.answer op ch w = some (a, w') → L.inv w'
  /-- A lease is given only where nobody holds one. -/
  gives : ∀ k op op' ch w v w', L.inv w → L.gives k op op' → S.answer op ch w = some (some (.ok v), w') →
    L.agrees k op' w' ∧ ∀ k' op'', L.uses op'' → ¬L.agrees k' op'' w
  keeps : ∀ k op op' ch w a w', ¬L.uses op → L.uses op' → L.inv w → L.agrees k op' w →
    S.answer op ch w = some (a, w') → L.agrees k op' w'
  arrive : ∀ k w, L.inv w → L.inv (S.arrive k w) ∧ ∀ k' op, L.agrees k' op w → L.agrees k' op (S.arrive k w)
  env : ∀ e w w' ks, L.inv w → S.env e w = some (w', ks) →
    L.inv w' ∧ ∀ k op, L.agrees k op w → L.agrees k op w'

/-- The call under way awaits `op`, which uses the lease. -/
def Thread.Holds (L : Lease Call Op W) (th : Thread ε Val W Call Reply) (op : Op) : Prop :=
  L.uses op ∧ ∃ next, th.prog = .await op next

structure Lease.Ok (L : Lease Call Op W) (c : Config ε Val W Call Reply) : Prop where
  inv : L.inv c.world
  agrees : ∀ th ∈ c.threads, ∀ op, th.Holds L op → L.agrees th.call op c.world
  alone : ∀ (i j : Nat) th th' op op', c.threads[i]? = some th → c.threads[j]? = some th' → th.Holds L op →
    th'.Holds L op' → i = j

namespace Lease

variable {S : System ε Val W C Call Env Reply} {L : Lease Call Op W} {c c' : Config ε Val W Call Reply}

theorem Ok.world (h : L.Ok c) {w : W} (hinv : L.inv w) (hagrees : ∀ k op, L.agrees k op c.world → L.agrees k op w) :
    L.Ok { c with world := w } :=
  ⟨hinv, fun th hth op hop => hagrees _ _ (h.agrees th hth op hop), h.alone⟩

theorem Sound.start_notHolds (hS : L.Sound S) (k : Call) (w : W) (op : Op) : ¬(S.start w k).Holds L op := by
  rintro ⟨huses, next, hprog⟩
  have hbody := hS.body k
  rw [show S.body k = .await op next from hprog] at hbody
  exact hbody.1 huses

theorem Ok.beginAll (hS : L.Sound S) (h : L.Ok c) (ks : List Call) : L.Ok (S.beginAll c ks) := by
  induction ks generalizing c with
  | nil => exact h
  | cons k ks ih =>
      obtain ⟨hinv, hagrees⟩ := hS.arrive k c.world h.inv
      have hnew (i : Nat) (th : Thread ε Val W Call Reply) (op : Op)
          (hth : (c.threads ++ [S.start (S.arrive k c.world) k])[i]? = some th) (hholds : th.Holds L op) :
          c.threads[i]? = some th := by
        rcases List.mem_append.mp (List.mem_of_getElem? hth) with hmem | hmem
        · by_cases hi : i < c.threads.length
          · rwa [List.getElem?_append_left hi] at hth
          · rw [List.getElem?_append_right (by omega), List.getElem?_singleton] at hth
            split at hth
            · cases hth
              exact absurd hholds (hS.start_notHolds k _ op)
            · cases hth
        · rw [List.mem_singleton.mp hmem] at hholds
          exact absurd hholds (hS.start_notHolds k _ op)
      refine ih ⟨hinv, fun th hth op hop => ?_, fun i j th th' op op' hth hth' hop hop' => ?_⟩
      · obtain ⟨i, hi⟩ := List.mem_iff_getElem?.mp hth
        exact hagrees _ _ (h.agrees th (List.mem_of_getElem? (hnew i th op hi hop)) op hop)
      · exact h.alone i j th th' op op' (hnew i th op hth hop) (hnew j th' op' hth' hop') hop hop'

/-- When a call gets an answer, it holds a lease afterwards only if the answer gave one. -/
theorem Sound.resumed (hS : L.Sound S) (hc : S.InBody c) {th : Thread ε Val W Call Reply} (hth : th ∈ c.threads)
    {op op' : Op} {next : Except ε (Val op) → Prog ε Val Reply} (hprog : th.prog = .await op next)
    {r : Except ε (Val op)} {next' : Except ε (Val op') → Prog ε Val Reply} (hnext : next r = .await op' next')
    (hop' : L.uses op') : (∃ v, r = .ok v) ∧ L.gives th.call op op' := by
  obtain ⟨held, hleased⟩ := (hS.body th.call).reaches (hc th hth)
  rw [hprog] at hleased
  cases r with
  | error e =>
      have hrest := hleased.2.1 e
      rw [hnext] at hrest
      exact (hrest.1 hop').elim
  | ok v =>
      have hrest := hleased.2.2 v
      rw [hnext] at hrest
      exact ⟨⟨v, rfl⟩, hrest.1 hop'⟩

theorem Ok.answer (hS : L.Sound S) (hc : S.InBody c) (h : L.Ok c) {i : Nat} {ch : C}
    (hstep : S.step c (.answer i ch) = some c') : L.Ok c' := by
  obtain ⟨th, op, next, a, w, hth, hprog, hans, rfl, hcase⟩ := System.step_answer hstep
  have hmem := List.mem_of_getElem? hth
  have huses : L.uses op → th.Holds L op := fun hop => ⟨hop, next, hprog⟩
  have hinv := hS.inv th.call op ch _ a _ h.inv (fun hop => h.agrees th hmem op (huses hop)) hans
  -- another call holds a lease only if this one does not
  have hother (j : Nat) (th' : Thread ε Val W Call Reply) (op' : Op) (hth' : c.threads[j]? = some th')
      (hop' : th'.Holds L op') (hj : i ≠ j) : L.agrees th'.call op' c'.world := by
    have hfree : ¬L.uses op := fun hop => hj (h.alone i j th th' op op' hth hth' (huses hop) hop')
    exact hS.keeps _ op op' ch _ a _ hfree hop'.1 h.inv
      (h.agrees th' (List.mem_of_getElem? hth') op' hop') hans
  rcases hcase with ⟨rfl, hths⟩ | ⟨r, rfl, hths⟩
  · have hfree : ¬L.uses op := fun hop => hS.once op ch _ _ hop hans
    refine ⟨hinv, fun th' hth' op' hop' => ?_, hths ▸ h.alone⟩
    rw [hths] at hth'
    obtain ⟨j, hj⟩ := List.mem_iff_getElem?.mp hth'
    by_cases hij : i = j
    · subst hij
      rw [hth] at hj
      cases hj
      obtain ⟨huses', next', hprog'⟩ := hop'
      rw [hprog] at hprog'
      cases hprog'
      exact absurd huses' hfree
    · exact hother j th' op' hj hop' hij
  · have hlt : i < c.threads.length := (List.getElem?_eq_some_iff.mp hth).1
    -- the call itself holds a lease only if it was just given one
    have hself (th' : Thread ε Val W Call Reply) (op' : Op) (hth' : c'.threads[i]? = some th')
        (hop' : th'.Holds L op') : L.agrees th'.call op' c'.world ∧ ∀ k'' op'', L.uses op'' →
          ¬L.agrees k'' op'' c.world := by
      rw [hths, List.getElem?_set_self hlt] at hth'
      cases hth'
      obtain ⟨huses', next', hprog'⟩ := hop'
      obtain ⟨⟨v, rfl⟩, hgives⟩ := hS.resumed hc hmem hprog hprog' huses'
      exact hS.gives th.call op op' ch _ v _ h.inv hgives hans
    have hold (j : Nat) (th' : Thread ε Val W Call Reply) (hth' : c'.threads[j]? = some th') (hj : i ≠ j) :
        c.threads[j]? = some th' := by
      rwa [hths, List.getElem?_set_ne hj] at hth'
    refine ⟨hinv, fun th' hth' op' hop' => ?_, fun j j' th' th'' op' op'' hth' hth'' hop' hop'' => ?_⟩
    · obtain ⟨j, hj⟩ := List.mem_iff_getElem?.mp hth'
      by_cases hij : i = j
      · subst hij
        exact (hself th' op' hj hop').1
      · exact hother j th' op' (hold j th' hj hij) hop' hij
    · by_cases hj : i = j <;> by_cases hj' : i = j'
      · exact hj.symm.trans hj'
      · subst hj
        have hagrees := h.agrees th'' (List.mem_of_getElem? (hold j' th'' hth'' hj')) op'' hop''
        exact absurd hagrees ((hself th' op' hth' hop').2 _ _ hop''.1)
      · subst hj'
        have hagrees := h.agrees th' (List.mem_of_getElem? (hold j th' hth' hj)) op' hop'
        exact absurd hagrees ((hself th'' op'' hth'' hop'').2 _ _ hop'.1)
      · exact h.alone j j' th' th'' op' op'' (hold j th' hth' hj) (hold j' th'' hth'' hj') hop' hop''

theorem Ok.step (hS : L.Sound S) (hc : S.InBody c) (h : L.Ok c) {l : Label C Call Env}
    (hstep : S.step c l = some c') : L.Ok c' := by
  cases l with
  | begin k =>
      cases hstep
      exact h.beginAll hS [k]
  | answer i ch => exact h.answer hS hc hstep
  | env e =>
      obtain ⟨w, ks, henv, rfl⟩ := System.step_env hstep
      obtain ⟨hinv, hagrees⟩ := hS.env e c.world w ks h.inv henv
      exact (h.world hinv hagrees).beginAll hS ks

theorem Ok.run (hS : L.Sound S) {w : W} (hw : L.inv w) {ls : List (Label C Call Env)}
    (hrun : S.run (.init w) ls = some c) : L.Ok c := by
  have hinit : L.Ok (Config.init w : Config ε Val W Call Reply) :=
    ⟨hw, fun th hth => (by cases hth), fun i j th th' op op' hth => (by cases hth)⟩
  have hbody : S.InBody (.init w) := fun th hth => by cases hth
  have hkeeps : ∀ c l c', (L.Ok c ∧ S.InBody c) → True → S.step c l = some c' → L.Ok c' ∧ S.InBody c' :=
    fun c l c' hc _ hstep => ⟨hc.1.step hS hc.2 hstep, hc.2.step hstep⟩
  exact (System.run_invariant hkeeps ⟨hinit, hbody⟩ (System.along_of_mem (fun _ _ _ => trivial) _) hrun).1

/-! ## Leases that are no longer given -/

/-- Nobody holds a lease, and in a world like this one nobody gets one. -/
structure Barred (S : System ε Val W C Call Env Reply) (L : Lease Call Op W) (P : W → Prop) : Prop where
  gives : ∀ k op op' ch w v w', P w → L.gives k op op' → S.answer op ch w ≠ some (some (.ok v), w')
  keeps : ∀ op ch w a w', ¬L.uses op → P w → S.answer op ch w = some (a, w') → P w'
  arrive : ∀ k w, P w → P (S.arrive k w)
  env : ∀ e w w' ks, P w → S.env e w = some (w', ks) → P w'

structure Idle (L : Lease Call Op W) (P : W → Prop) (c : Config ε Val W Call Reply) : Prop where
  world : P c.world
  free : ∀ th ∈ c.threads, ∀ op, ¬th.Holds L op

variable {P : W → Prop}

theorem Idle.beginAll (hS : L.Sound S) (hP : Barred S L P) (h : L.Idle P c) (ks : List Call) :
    L.Idle P (S.beginAll c ks) := by
  induction ks generalizing c with
  | nil => exact h
  | cons k ks ih =>
      refine ih ⟨hP.arrive k _ h.world, fun th hth op => ?_⟩
      rcases List.mem_append.mp hth with hth | hth
      · exact h.free th hth op
      · rw [List.mem_singleton.mp hth]
        exact hS.start_notHolds k _ op

theorem Idle.step (hS : L.Sound S) (hP : Barred S L P) (hc : S.InBody c) (h : L.Idle P c) {l : Label C Call Env}
    (hstep : S.step c l = some c') : L.Idle P c' := by
  cases l with
  | begin k =>
      cases hstep
      exact h.beginAll hS hP [k]
  | answer i ch =>
      obtain ⟨th, op, next, a, w, hth, hprog, hans, rfl, hcase⟩ := System.step_answer hstep
      have hmem := List.mem_of_getElem? hth
      have hworld := hP.keeps op ch _ a _ (fun hop => h.free th hmem op ⟨hop, next, hprog⟩) h.world hans
      rcases hcase with ⟨rfl, hths⟩ | ⟨r, rfl, hths⟩
      · exact ⟨hworld, hths ▸ h.free⟩
      · refine ⟨hworld, fun th' hth' op' hop' => ?_⟩
        rw [hths] at hth'
        rcases List.mem_or_eq_of_mem_set hth' with hth' | rfl
        · exact h.free th' hth' op' hop'
        · obtain ⟨huses', next', hprog'⟩ := hop'
          obtain ⟨⟨v, rfl⟩, hgives⟩ := hS.resumed hc hmem hprog hprog' huses'
          exact hP.gives th.call op op' ch _ v _ h.world hgives hans
  | env e =>
      obtain ⟨w, ks, henv, rfl⟩ := System.step_env hstep
      have hworld : L.Idle P { c with world := w } := ⟨hP.env e _ _ ks h.world henv, h.free⟩
      exact hworld.beginAll hS hP ks

theorem Idle.run (hS : L.Sound S) (hP : Barred S L P) (hc : S.InBody c) (h : L.Idle P c)
    {ls : List (Label C Call Env)} (hrun : S.run c ls = some c') : L.Idle P c' := by
  have hkeeps : ∀ c l c', (L.Idle P c ∧ S.InBody c) → True → S.step c l = some c' → L.Idle P c' ∧ S.InBody c' :=
    fun c l c' hc _ hstep => ⟨hc.1.step hS hP hc.2 hstep, hc.2.step hstep⟩
  exact (System.run_invariant hkeeps ⟨h, hc⟩ (System.along_of_mem (fun _ _ _ => trivial) _) hrun).1

end Lease

end Async
