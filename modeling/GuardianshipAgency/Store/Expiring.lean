import Mathlib

/-!
# Stores whose entries expire

A store keeps a value and a deadline for each key. A value can be looked up strictly before its deadline.
-/

namespace Expiring

structure Entry (T V : Type) where
  value : V
  deadline : T

/-- What is kept under each key, expired or not. -/
def Store (T K V : Type) := K → Option (Entry T V)

namespace Store

variable {T K V : Type}

def empty : Store T K V := fun _ => none

def lookup [LT T] [DecidableLT T] (s : Store T K V) (now : T) (k : K) : Option V :=
  match s k with
  | some e => if now < e.deadline then some e.value else none
  | none => none

def write [DecidableEq K] (s : Store T K V) (k : K) (v : V) (deadline : T) : Store T K V :=
  Function.update s k (some { value := v, deadline })

def erase [DecidableEq K] (s : Store T K V) (k : K) : Store T K V := Function.update s k none

/-! ## Entries -/

section Entries

variable [DecidableEq K] (s : Store T K V) {k k' : K} (v : V) (d : T)

@[simp] theorem write_self : s.write k v d k = some { value := v, deadline := d } := Function.update_self ..

@[simp] theorem write_of_ne (h : k' ≠ k) : s.write k v d k' = s k' := Function.update_of_ne h ..

@[simp] theorem erase_self : s.erase k k = none := Function.update_self ..

@[simp] theorem erase_of_ne (h : k' ≠ k) : s.erase k k' = s k' := Function.update_of_ne h ..

end Entries

/-! ## Lookups -/

section Lookups

variable [LinearOrder T] {s s' : Store T K V} {now now' : T} {k : K} {v : V}

theorem lookup_eq_some :
    s.lookup now k = some v ↔ ∃ e, s k = some e ∧ now < e.deadline ∧ e.value = v := by
  unfold lookup
  cases s k with
  | none => simp
  | some e => simp

theorem lookup_congr (h : s k = s' k) : s.lookup now k = s'.lookup now k := by
  simp [lookup, h]

/-- As time passes entries can only disappear. -/
theorem lookup_of_le (h : now ≤ now') (hv : s.lookup now' k = some v) : s.lookup now k = some v := by
  obtain ⟨e, he, hlt, hval⟩ := lookup_eq_some.mp hv
  exact lookup_eq_some.mpr ⟨e, he, lt_of_le_of_lt h hlt, hval⟩

theorem lookup_write [DecidableEq K] (s : Store T K V) (k k' : K) (v : V) (d : T) :
    (s.write k v d).lookup now k' = if k' = k then (if now < d then some v else none) else s.lookup now k' := by
  by_cases h : k' = k
  · subst h
    simp [lookup]
  · rw [if_neg h, lookup_congr (write_of_ne _ _ _ h)]

theorem lookup_erase [DecidableEq K] (s : Store T K V) (k k' : K) :
    (s.erase k).lookup now k' = if k' = k then none else s.lookup now k' := by
  by_cases h : k' = k
  · subst h
    simp [lookup]
  · rw [if_neg h, lookup_congr (erase_of_ne _ h)]

theorem lookup_write_self [DecidableEq K] (d : T) :
    (s.write k v d).lookup now k = if now < d then some v else none := by
  simp [lookup]

end Lookups

/-! ## What holds of all values -/

/-- Every value kept satisfies `P`, expired or not. -/
def Forall (P : K → V → Prop) (s : Store T K V) : Prop := ∀ k e, s k = some e → P k e.value

section Forall

variable {P P' : K → V → Prop} {s : Store T K V}

theorem Forall.empty : (Store.empty : Store T K V).Forall P := fun _ _ h => by cases h

theorem Forall.lookup [LinearOrder T] (h : s.Forall P) {now : T} {k : K} {v : V}
    (hv : s.lookup now k = some v) : P k v := by
  obtain ⟨e, he, -, rfl⟩ := lookup_eq_some.mp hv
  exact h k e he

theorem Forall.mono (h : s.Forall P) (hP : ∀ k v, P k v → P' k v) : s.Forall P' :=
  fun k e he => hP k e.value (h k e he)

theorem Forall.write [DecidableEq K] (h : s.Forall P) {k : K} {v : V} (hv : P k v) (d : T) :
    (s.write k v d).Forall P := by
  intro k' e he
  by_cases hk : k' = k
  · subst hk
    simp only [write_self] at he
    cases he
    exact hv
  · rw [write_of_ne _ _ _ hk] at he
    exact h k' e he

theorem Forall.erase [DecidableEq K] (h : s.Forall P) (k : K) : (s.erase k).Forall P := by
  intro k' e he
  by_cases hk : k' = k
  · subst hk
    simp at he
  · rw [erase_of_ne _ hk] at he
    exact h k' e he

end Forall

end Store

end Expiring
