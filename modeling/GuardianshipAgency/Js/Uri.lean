import Mathlib

/-!
# `decodeURIComponent`
-/

namespace Js

/-! ## Escapes -/

def hexDigit? (c : Char) : Option Nat :=
  if '0' ≤ c ∧ c ≤ '9' then some (c.toNat - '0'.toNat)
  else if 'a' ≤ c ∧ c ≤ 'f' then some (c.toNat - 'a'.toNat + 10)
  else if 'A' ≤ c ∧ c ≤ 'F' then some (c.toNat - 'A'.toNat + 10)
  else none

/-- Each escape is read as the octet that it stands for. -/
def unescape : List Char → Option (List (Nat ⊕ Char))
  | [] => some []
  | '%' :: a :: b :: cs =>
      match hexDigit? a, hexDigit? b with
      | some a, some b => (unescape cs).map (.inl (16 * a + b) :: ·)
      | _, _ => none
  | c :: cs => if c = '%' then none else (unescape cs).map (.inr c :: ·)

/-- The octets as UTF-8: `n` more of a character are to come, whose code so far is `code`, and it must be at least
`least`. -/
def decodeOctets : Nat → Nat → Nat → List (Nat ⊕ Char) → Option (List Char)
  | 0, _, _, [] => some []
  | 0, _, _, .inr c :: items => (decodeOctets 0 0 0 items).map (c :: ·)
  | 0, _, _, .inl b :: items =>
      if b < 0x80 then (decodeOctets 0 0 0 items).map (Char.ofNat b :: ·)
      else if b < 0xc0 then none
      else if b < 0xe0 then decodeOctets 1 0x80 (b - 0xc0) items
      else if b < 0xf0 then decodeOctets 2 0x800 (b - 0xe0) items
      else if b < 0xf8 then decodeOctets 3 0x10000 (b - 0xf0) items
      else none
  | n + 1, least, code, .inl b :: items =>
      if b < 0x80 ∨ 0xc0 ≤ b then none
      else if n = 0 then
        if least ≤ 64 * code + (b - 0x80) ∧ (64 * code + (b - 0x80)).isValidChar then
          (decodeOctets 0 0 0 items).map (Char.ofNat (64 * code + (b - 0x80)) :: ·)
        else
          none
      else decodeOctets n least (64 * code + (b - 0x80)) items
  | _ + 1, _, _, _ => none

def decodeURIComponent (cs : List Char) : Option (List Char) := (unescape cs).bind (decodeOctets 0 0 0)

/-! ## Texts without escapes -/

variable {cs ds : List Char}

theorem unescape_of_notMem (h : '%' ∉ cs) : unescape cs = some (cs.map .inr) := by
  induction cs with
  | nil => rfl
  | cons c cs ih =>
      simp only [List.mem_cons, not_or] at h
      have hc : c ≠ '%' := fun hc => h.1 hc.symm
      rw [unescape, if_neg hc, ih h.2]
      · rfl
      · exact fun a b ds hcs => absurd hcs hc

theorem decodeOctets_inr (cs : List Char) : decodeOctets 0 0 0 (cs.map .inr) = some cs := by
  induction cs with
  | nil => rfl
  | cons c cs ih => simp [decodeOctets, ih]

theorem decodeURIComponent_of_notMem (h : '%' ∉ cs) : decodeURIComponent cs = some cs := by
  simp [decodeURIComponent, unescape_of_notMem h, decodeOctets_inr]

/-! ## Lengths -/

theorem unescape_length {items : List (Nat ⊕ Char)} (h : unescape cs = some items) :
    items.length ≤ cs.length ∧ (items.length = cs.length → '%' ∉ cs) := by
  induction cs using unescape.induct generalizing items with
  | case1 =>
      simp [unescape] at h
      simp [← h]
  | case2 a b cs x y hx hy ih =>
      simp only [unescape, hx, hy, Option.map_eq_some_iff] at h
      obtain ⟨rest, hrest, rfl⟩ := h
      have hle := (ih hrest).1
      simp only [List.length_cons]
      exact ⟨by omega, fun heq => by omega⟩
  | case3 a b cs hnone =>
      rw [unescape] at h
      split at h
      · next x y hx hy => exact absurd hy (hnone x y hx)
      · simp at h
  | case4 cs hshort => simp [unescape] at h
  | case5 c cs hshort hc ih =>
      rw [unescape, if_neg hc, Option.map_eq_some_iff] at h
      · obtain ⟨rest, hrest, rfl⟩ := h
        obtain ⟨hle, hplain⟩ := ih hrest
        simp only [List.length_cons]
        refine ⟨by omega, fun heq => ?_⟩
        simp only [List.mem_cons, not_or]
        exact ⟨fun h => hc h.symm, hplain (by omega)⟩
      · exact hshort

theorem decodeOctets_length_le {n least code : Nat} {items : List (Nat ⊕ Char)}
    (h : decodeOctets n least code items = some ds) : ds.length ≤ items.length := by
  induction items generalizing n least code ds with
  | nil =>
      cases n with
      | zero =>
          simp [decodeOctets] at h
          simp [← h]
      | succ n => simp [decodeOctets] at h
  | cons item items ih =>
      have hnext {f : List Char → List Char} (hf : ∀ es, (f es).length = es.length + 1)
          (h : (decodeOctets 0 0 0 items).map f = some ds) : ds.length ≤ (item :: items).length := by
        obtain ⟨es, hes, rfl⟩ := Option.map_eq_some_iff.mp h
        have hle := ih hes
        simp only [hf, List.length_cons]
        omega
      have hlater {n least code : Nat} (h : decodeOctets n least code items = some ds) :
          ds.length ≤ (item :: items).length := by
        have hle := ih h
        simp only [List.length_cons]
        omega
      rcases n with _ | n <;> rcases item with b | c <;> simp only [decodeOctets] at h
      · split_ifs at h
        · exact hnext (fun _ => rfl) h
        all_goals exact hlater h
      · exact hnext (fun _ => rfl) h
      · split_ifs at h
        · exact hnext (fun _ => rfl) h
        · exact hlater h
      · simp at h

/-- Only a text without escapes can be read as a text that is as long. -/
theorem decodeURIComponent_length (h : decodeURIComponent cs = some ds) :
    ds.length ≤ cs.length ∧ (ds.length = cs.length → '%' ∉ cs) := by
  obtain ⟨items, hitems, hds⟩ := Option.bind_eq_some_iff.mp h
  obtain ⟨hle, hplain⟩ := unescape_length hitems
  have hle' := decodeOctets_length_le hds
  exact ⟨hle'.trans hle, fun heq => hplain (by omega)⟩

end Js
