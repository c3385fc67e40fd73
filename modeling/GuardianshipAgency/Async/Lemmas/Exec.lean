import GuardianshipAgency.Async.Ensures

/-!
# Programs run alone
-/

namespace Async

variable {ε Op : Type} {Val : Op → Type} {W C α β : Type} {M : Machine ε Val W C}

namespace Machine.Exec

theorem of_play {p : Prog ε Val α} {cs : List C} {r : Except ε α} {w w' : W}
    (h : M.play p w cs = some (r, w')) : M.Exec p w r w' := by
  fun_induction Machine.play M p w cs with
  | case1 r w => cases h; exact .settled
  | case2 => cases h
  | case3 => cases h
  | case4 => cases h
  | case5 w op next c cs w₁ ha ih => exact .retried ha (ih h)
  | case6 w op next c cs a w₁ ha ih => exact .answered ha (ih h)

theorem settled_inv {r₀ r : Except ε α} {w w' : W} (h : M.Exec (.settled r₀) w r w') : r = r₀ ∧ w' = w := by
  cases h
  exact ⟨rfl, rfl⟩

theorem await_inv {op : Op} {next : Except ε (Val op) → Prog ε Val α} {r : Except ε α} {w w' : W}
    (h : M.Exec (.await op next) w r w') :
    ∃ c a w₁, M.answer op c w = some (a, w₁) ∧
      ((a = none ∧ M.Exec (.await op next) w₁ r w') ∨ ∃ res, a = some res ∧ M.Exec (next res) w₁ r w') := by
  cases h with
  | answered ha hnext => exact ⟨_, _, _, ha, .inr ⟨_, rfl, hnext⟩⟩
  | retried ha hnext => exact ⟨_, _, _, ha, .inl ⟨rfl, hnext⟩⟩

/-- A call that is never sent again gets one answer. -/
theorem await_once {op : Op} {next : Except ε (Val op) → Prog ε Val α} {r : Except ε α} {w w' : W}
    (hop : ∀ c w w₁, M.answer op c w ≠ some (none, w₁)) (h : M.Exec (.await op next) w r w') :
    ∃ c res w₁, M.answer op c w = some (some res, w₁) ∧ M.Exec (next res) w₁ r w' := by
  obtain ⟨c, a, w₁, ha, ⟨rfl, -⟩ | ⟨res, rfl, hnext⟩⟩ := await_inv h
  · exact absurd ha (hop c w w₁)
  · exact ⟨c, res, w₁, ha, hnext⟩

theorem call_inv {op : Op} {r : Except ε (Val op)} {w w' : W} (h : M.Exec (Prog.call op) w r w') :
    ∃ c a w₁, M.answer op c w = some (a, w₁) ∧
      ((a = none ∧ M.Exec (Prog.call op) w₁ r w') ∨ (a = some r ∧ w' = w₁)) := by
  obtain ⟨c, a, w₁, ha, ⟨hnone, hnext⟩ | ⟨res, hres, hnext⟩⟩ := await_inv h
  · exact ⟨c, a, w₁, ha, .inl ⟨hnone, hnext⟩⟩
  · obtain ⟨rfl, hw⟩ := settled_inv hnext
    exact ⟨c, a, w₁, ha, .inr ⟨hres, hw⟩⟩

theorem andThen_inv {p : Prog ε Val α} {k : Except ε α → Prog ε Val β} {r : Except ε β} {w w' : W}
    (h : M.Exec (p.andThen k) w r w') : ∃ r₁ w₁, M.Exec p w r₁ w₁ ∧ M.Exec (k r₁) w₁ r w' := by
  generalize hq : p.andThen k = q at h
  induction h generalizing p with
  | @settled r w =>
      cases p with
      | settled r₁ => exact ⟨r₁, w, .settled, (show k r₁ = _ from hq) ▸ .settled⟩
      | await op next => cases hq
  | @answered op next c w a w₁ r w' ha hnext ih =>
      cases p with
      | settled r₁ => exact ⟨r₁, w, .settled, (show k r₁ = _ from hq) ▸ .answered ha hnext⟩
      | await op' next' =>
          cases hq
          obtain ⟨r₁, w₂, hp, hrest⟩ := ih rfl
          exact ⟨r₁, w₂, .answered ha hp, hrest⟩
  | @retried op next c w w₁ r w' ha hnext ih =>
      cases p with
      | settled r₁ => exact ⟨r₁, w, .settled, (show k r₁ = _ from hq) ▸ .retried ha hnext⟩
      | await op' next' =>
          obtain ⟨r₁, w₂, hp, hrest⟩ := ih hq
          cases hq
          exact ⟨r₁, w₂, .retried ha hp, hrest⟩

theorem bind_inv {p : Prog ε Val α} {f : α → Prog ε Val β} {r : Except ε β} {w w' : W}
    (h : M.Exec (p >>= f) w r w') :
    ∃ r₁ w₁, M.Exec p w r₁ w₁ ∧ ((∃ e, r₁ = .error e ∧ r = .error e ∧ w' = w₁) ∨
      ∃ a, r₁ = .ok a ∧ M.Exec (f a) w₁ r w') := by
  obtain ⟨r₁, w₁, hp, hk⟩ := andThen_inv h
  refine ⟨r₁, w₁, hp, ?_⟩
  cases r₁ with
  | ok a => exact .inr ⟨a, rfl, hk⟩
  | error e =>
      obtain ⟨hr, hw⟩ := settled_inv hk
      exact .inl ⟨e, rfl, hr, hw⟩

/-- What every call of a program does, the program does. -/
theorem of_calls {G : Op → Prop} (R : W → W → Prop) {p : Prog ε Val α} {r : Except ε α} {w w' : W}
    (hp : p.Calls G) (hrefl : ∀ w, R w w) (htrans : ∀ {w₁ w₂ w₃}, R w₁ w₂ → R w₂ w₃ → R w₁ w₃)
    (hans : ∀ op c w a w', G op → M.answer op c w = some (a, w') → R w w') (h : M.Exec p w r w') :
    R w w' := by
  induction h with
  | settled => exact hrefl _
  | answered ha _ ih => exact htrans (hans _ _ _ _ _ hp.1 ha) (ih (hp.2 _))
  | retried ha _ ih => exact htrans (hans _ _ _ _ _ hp.1 ha) (ih hp)

end Machine.Exec

/-! ## Replayed choices -/

theorem Machine.play_settled_inv {r₀ r : Except ε α} {w w' : W} {cs : List C}
    (h : M.play (.settled r₀) w cs = some (r, w')) : cs = [] ∧ r = r₀ ∧ w' = w := by
  cases cs with
  | nil => cases h; exact ⟨rfl, rfl, rfl⟩
  | cons c cs => cases h

theorem Machine.play_await_inv {op : Op} {next : Except ε (Val op) → Prog ε Val α} {r : Except ε α} {w w' : W}
    {cs : List C} (h : M.play (.await op next) w cs = some (r, w')) :
    ∃ c cs' a w₁, cs = c :: cs' ∧ M.answer op c w = some (a, w₁) ∧
      ((a = none ∧ M.play (.await op next) w₁ cs' = some (r, w')) ∨
        ∃ res, a = some res ∧ M.play (next res) w₁ cs' = some (r, w')) := by
  cases cs with
  | nil => cases h
  | cons c cs =>
      simp only [Machine.play] at h
      split at h
      · cases h
      · rename_i w₁ ha
        exact ⟨c, cs, none, w₁, rfl, ha, .inl ⟨rfl, h⟩⟩
      · rename_i a w₁ ha
        exact ⟨c, cs, some a, w₁, rfl, ha, .inr ⟨a, rfl, h⟩⟩

theorem Machine.play_await_once {op : Op} {next : Except ε (Val op) → Prog ε Val α} {r : Except ε α} {w w' : W}
    {cs : List C} (hop : ∀ c w w₁, M.answer op c w ≠ some (none, w₁))
    (h : M.play (.await op next) w cs = some (r, w')) :
    ∃ c cs' res w₁, cs = c :: cs' ∧ M.answer op c w = some (some res, w₁) ∧
      M.play (next res) w₁ cs' = some (r, w') := by
  obtain ⟨c, cs', a, w₁, rfl, ha, ⟨rfl, -⟩ | ⟨res, rfl, hnext⟩⟩ := play_await_inv h
  · exact absurd ha (hop c w w₁)
  · exact ⟨c, cs', res, w₁, rfl, ha, hnext⟩

end Async
