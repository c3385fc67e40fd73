import GuardianshipAgency.Js.Stringify

/-!
# Numbers are read as they are written
-/

namespace Js

namespace Json

/-! ## Digits -/

theorem digitsVal_eq (ds : List Char) : digitsVal ds = Nat.ofDigitChars 10 ds 0 := by
  simp only [digitsVal, Nat.ofDigitChars_eq_foldl, Nat.mul_comm]

theorem digitsVal_append (ds es : List Char) :
    digitsVal (ds ++ es) = digitsVal ds * 10 ^ es.length + digitsVal es := by
  rw [digitsVal_eq, Nat.ofDigitChars_append, Nat.ofDigitChars_eq_ofDigitChars_zero, digitsVal_eq, digitsVal_eq,
    Nat.mul_comm]

theorem digitsVal_zeros (n : ℕ) : digitsVal (List.replicate n '0') = 0 := by simp [digitsVal_eq]

theorem digitsVal_toDigits (n : ℕ) : digitsVal (Nat.toDigits 10 n) = n := by
  rw [digitsVal_eq, Nat.ofDigitChars_ten_toDigits]

/-- A text that no digit follows. -/
def EndsDigits (cs : List Char) : Prop := ∀ c, cs.head? = some c → c.isDigit = false

theorem span_digits {ds cs : List Char} (hds : ∀ c ∈ ds, c.isDigit = true) (hcs : EndsDigits cs) :
    (ds ++ cs).span Char.isDigit = (ds, cs) := by
  have hstop : cs.takeWhile Char.isDigit = [] ∧ cs.dropWhile Char.isDigit = cs := by
    cases cs with
    | nil => exact ⟨rfl, rfl⟩
    | cons c cs => simp [hcs c rfl]
  rw [List.span_eq_takeWhile_dropWhile, List.takeWhile_append_of_pos hds, List.dropWhile_append_of_pos hds,
    hstop.1, hstop.2, List.append_nil]

/-! ## The parts of a number -/

/-- A text that no number goes on with. -/
def EndsNumber (cs : List Char) : Prop := ∀ c, cs.head? = some c → c.isDigit = false ∧ c ≠ '.' ∧ c ≠ 'e' ∧ c ≠ 'E'

theorem EndsNumber.digits {cs : List Char} (h : EndsNumber cs) : EndsDigits cs := fun c hc => (h c hc).1

theorem fraction_none {cs : List Char} (h : ∀ c, cs.head? = some c → c ≠ '.') : fraction cs = some ([], cs) := by
  unfold fraction
  split
  · exact absurd rfl (h '.' rfl)
  · rfl

theorem fraction_digits {fs cs : List Char} (hfs : ∀ c ∈ fs, c.isDigit = true) (hne : fs ≠ []) (hcs : EndsDigits cs) :
    fraction ('.' :: (fs ++ cs)) = some (fs, cs) := by
  have hempty : fs.isEmpty = false := by simpa using hne
  simp only [fraction, span_digits hfs hcs, hempty, Bool.false_eq_true, if_false]

theorem exponent_none {cs : List Char} (h : EndsNumber cs) : exponent cs = some (0, cs) := by
  cases cs with
  | nil => rfl
  | cons c cs =>
      obtain ⟨-, -, he, hE⟩ := h c rfl
      simp [exponent, he, hE]

theorem exponent_plus {es cs : List Char} (hes : ∀ c ∈ es, c.isDigit = true) (hne : es ≠ []) (hcs : EndsDigits cs) :
    exponent ('e' :: '+' :: (es ++ cs)) = some ((digitsVal es : ℤ), cs) := by
  have hempty : es.isEmpty = false := by simpa using hne
  simp only [exponent, beq_self_eq_true, Bool.true_or, if_true, span_digits hes hcs, hempty, Bool.false_eq_true,
    if_false]

theorem exponent_minus {es cs : List Char} (hes : ∀ c ∈ es, c.isDigit = true) (hne : es ≠ []) (hcs : EndsDigits cs) :
    exponent ('e' :: '-' :: (es ++ cs)) = some (-(digitsVal es : ℤ), cs) := by
  have hempty : es.isEmpty = false := by simpa using hne
  simp only [exponent, beq_self_eq_true, Bool.true_or, if_true, span_digits hes hcs, hempty, Bool.false_eq_true,
    if_false]

theorem shift_eq (m : ℚ) (n : ℤ) :
    (if n < 0 then m / ((10 ^ n.natAbs : ℕ) : ℚ) else m * ((10 ^ n.natAbs : ℕ) : ℚ)) = m * 10 ^ n := by
  split
  · next hneg =>
      have hn : n = -(n.natAbs : ℤ) := by omega
      rw [div_eq_mul_inv]
      conv_rhs => rw [hn, zpow_neg, zpow_natCast]
      push_cast
      rfl
  · next hpos =>
      have hn : n = (n.natAbs : ℤ) := by omega
      conv_rhs => rw [hn, zpow_natCast]
      push_cast
      rfl

/-- Digits, a fraction and an exponent make a number. -/
theorem number_parts {ds fs cs₁ cs₂ cs₃ : List Char} {ex : ℤ} (hds : ∀ c ∈ ds, c.isDigit = true) (hne : ds ≠ [])
    (hzero : ds.length ≤ 1 ∨ ds.head? ≠ some '0') (hcs : EndsDigits cs₁) (hfraction : fraction cs₁ = some (fs, cs₂))
    (hexponent : exponent cs₂ = some (ex, cs₃)) :
    number (ds ++ cs₁) = some ((digitsVal (ds ++ fs) : ℚ) * 10 ^ (ex - fs.length), cs₃) := by
  obtain ⟨d, ds', rfl⟩ := List.exists_cons_of_ne_nil hne
  have hminus : d ≠ '-' := by
    rintro rfl
    exact absurd (hds '-' (by simp)) (by decide)
  have hspan := span_digits hds hcs
  have hok : ¬((d :: ds').isEmpty = true ∨ (d :: ds').length > 1 ∧ (d :: ds').head? = some '0') := by
    rintro (hempty | ⟨hlength, hhead⟩)
    · cases hempty
    · rcases hzero with h | h
      · omega
      · exact h hhead
  rw [List.cons_append] at hspan ⊢
  unfold number
  split
  rename_i neg cs he
  split at he
  · rename_i r hr
    cases hr
    exact absurd rfl hminus
  · cases he
    simp only [hspan, if_neg hok, hfraction, hexponent, Option.bind_eq_bind, Option.bind_some, shift_eq,
      Bool.false_eq_true, if_false, Option.pure_def]

/-! ## The digits of a positive number -/

theorem toDigits_head {n : ℕ} (hn : 0 < n) : (Nat.toDigits 10 n).head? ≠ some '0' := by
  induction n using Nat.strongRecOn with
  | ind n ih =>
      rcases Nat.lt_or_ge n 10 with hlt | hge
      · rw [Nat.toDigits_of_lt_base hlt]
        interval_cases n <;> decide
      · rw [Nat.toDigits_of_base_le (by norm_num) hge, List.head?_append_of_ne_nil _ Nat.toDigits_ne_nil]
        exact ih (n / 10) (by omega) (by omega)

/-- Zeros at the end, taken off a text. -/
theorem zeros_split (ds : List Char) :
    ∃ z, ds = (ds.reverse.dropWhile (· == '0')).reverse ++ List.replicate z '0' := by
  refine ⟨(ds.reverse.takeWhile (· == '0')).length, ?_⟩
  have hzeros : ds.reverse.takeWhile (· == '0') =
      List.replicate (ds.reverse.takeWhile (· == '0')).length '0' :=
    List.eq_replicate_of_mem fun c hc => by simpa using List.mem_takeWhile_imp hc
  have hsplit := List.takeWhile_append_dropWhile (p := (· == '0')) (l := ds.reverse)
  rw [hzeros] at hsplit
  rw [← List.reverse_replicate, ← List.reverse_append, hsplit, List.reverse_reverse]

section Significant

variable {q : ℚ}

/-- The whole number whose digits are written, and the number of its decimals. -/
def scaled (q : ℚ) : ℕ × ℕ :=
  let k := decimals (Nat.log2 q.den + 1) q
  ((q * 10 ^ k).num.natAbs, k)

theorem scaled_pos (hq : 0 < q) : 0 < (scaled q).1 := by
  have hpos : 0 < q * 10 ^ (scaled q).2 := by positivity
  exact Int.natAbs_pos.mpr (Rat.num_pos.mpr hpos).ne'

theorem significant_spec (q : ℚ) : ∃ z, Nat.toDigits 10 (scaled q).1 = (significant q).1 ++ List.replicate z '0' ∧
    (significant q).2 = ((significant q).1.length : ℤ) + z - (scaled q).2 := by
  obtain ⟨z, hz⟩ := zeros_split (Nat.toDigits 10 (scaled q).1)
  refine ⟨z, hz, ?_⟩
  have hlength := congrArg List.length hz
  rw [List.length_append, List.length_replicate] at hlength
  have hsecond : (significant q).2 = ((Nat.toDigits 10 (scaled q).1).length : ℤ) - (scaled q).2 := rfl
  rw [hsecond, hlength]
  push_cast
  rfl

theorem significant_digits (q : ℚ) : ∀ c ∈ (significant q).1, c.isDigit = true := by
  obtain ⟨z, hz, -⟩ := significant_spec q
  intro c hc
  refine Nat.isDigit_of_mem_toDigits (b := 10) (by norm_num) le_rfl (n := (scaled q).1) ?_
  rw [hz]
  exact List.mem_append_left _ hc

theorem significant_ne_nil (hq : 0 < q) : (significant q).1 ≠ [] := by
  obtain ⟨z, hz, -⟩ := significant_spec q
  intro hnil
  have hval := digitsVal_toDigits (scaled q).1
  rw [hz, hnil, List.nil_append, digitsVal_zeros] at hval
  exact (scaled_pos hq).ne hval

theorem significant_head (hq : 0 < q) : (significant q).1.head? ≠ some '0' := by
  obtain ⟨z, hz, -⟩ := significant_spec q
  have hhead := toDigits_head (scaled_pos hq)
  rwa [hz, List.head?_append_of_ne_nil _ (significant_ne_nil hq)] at hhead

theorem positiveShown_eq (q : ℚ) : positiveShown q = (scaled q).1 / 10 ^ (scaled q).2 := by
  obtain ⟨z, hz, hplace⟩ := significant_spec q
  have hval := digitsVal_toDigits (scaled q).1
  rw [hz, digitsVal_append, digitsVal_zeros, List.length_replicate, Nat.add_zero] at hval
  have hexp : (significant q).2 - ((significant q).1.length : ℤ) = (z : ℤ) - (scaled q).2 := by omega
  rw [positiveShown, hexp, zpow_sub₀ (by norm_num), zpow_natCast, zpow_natCast, ← mul_div_assoc, ← hval]
  push_cast
  rfl

end Significant

/-! ## The layouts of a number -/

theorem isDigit_of_mem_zeros {n : ℕ} {c : Char} (hc : c ∈ List.replicate n '0') : c.isDigit = true := by
  rw [List.eq_of_mem_replicate hc]
  rfl

section Layouts

variable {ds rest : List Char} (hds : ∀ c ∈ ds, c.isDigit = true) (hne : ds ≠ []) (hhead : ds.head? ≠ some '0')
variable (hrest : EndsNumber rest)
include hds hne hhead hrest

theorem number_plain {n : ℤ} (hn : (ds.length : ℤ) ≤ n) :
    number ((ds ++ List.replicate (n.toNat - ds.length) '0') ++ rest) =
      some ((digitsVal ds : ℚ) * 10 ^ (n - ds.length), rest) := by
  have hall : ∀ c ∈ ds ++ List.replicate (n.toNat - ds.length) '0', c.isDigit = true := fun c hc =>
    (List.mem_append.mp hc).elim (hds c) isDigit_of_mem_zeros
  have hfraction := fraction_none fun c hc => (hrest c hc).2.1
  have hexp : n - (ds.length : ℤ) = ((n.toNat - ds.length : ℕ) : ℤ) := by omega
  rw [number_parts hall (by simp [hne]) (.inr (by rwa [List.head?_append_of_ne_nil _ hne])) hrest.digits hfraction
    (exponent_none hrest)]
  simp only [List.append_nil, digitsVal_append, digitsVal_zeros, List.length_replicate, hexp, List.length_nil]
  norm_num

theorem number_point {n : ℤ} (hpos : 0 < n) (hn : n < ds.length) :
    number ((ds.take n.toNat ++ ['.'] ++ ds.drop n.toNat) ++ rest) =
      some ((digitsVal ds : ℚ) * 10 ^ (n - ds.length), rest) := by
  have htake : ds.take n.toNat ≠ [] := by
    rw [Ne, List.take_eq_nil_iff]
    rintro (h | h)
    · omega
    · exact hne h
  have hdrop : ds.drop n.toNat ≠ [] := by
    rw [Ne, List.drop_eq_nil_iff]
    omega
  have hpoint : EndsDigits ('.' :: (ds.drop n.toNat ++ rest)) := fun c hc => by
    cases hc
    rfl
  have hfraction := fraction_digits (fun c hc => hds c (List.mem_of_mem_drop hc)) hdrop hrest.digits
  have hheadTake : (ds.take n.toNat).head? ≠ some '0' := by
    have hsplit : (ds.take n.toNat ++ ds.drop n.toNat).head? = (ds.take n.toNat).head? :=
      List.head?_append_of_ne_nil _ htake
    rw [List.take_append_drop] at hsplit
    rwa [← hsplit]
  have hnumber := number_parts (fun c hc => hds c (List.mem_of_mem_take hc)) htake (.inr hheadTake) hpoint hfraction
    (exponent_none hrest)
  have hexp : (0 : ℤ) - ((ds.drop n.toNat).length : ℤ) = n - ds.length := by
    rw [List.length_drop]
    omega
  rw [List.take_append_drop, hexp] at hnumber
  simpa using hnumber

omit hhead in
theorem number_small {n : ℤ} (hn : n ≤ 0) :
    number (("0.".toList ++ List.replicate n.natAbs '0' ++ ds) ++ rest) =
      some ((digitsVal ds : ℚ) * 10 ^ (n - ds.length), rest) := by
  have hall : ∀ c ∈ List.replicate n.natAbs '0' ++ ds, c.isDigit = true := fun c hc =>
    (List.mem_append.mp hc).elim isDigit_of_mem_zeros (hds c)
  have hpoint : EndsDigits ('.' :: (List.replicate n.natAbs '0' ++ ds ++ rest)) := fun c hc => by
    cases hc
    rfl
  have hfraction := fraction_digits hall (by simp [hne]) hrest.digits
  have hzero : ∀ c ∈ ['0'], c.isDigit = true := by simp
  have hnumber := number_parts hzero (List.cons_ne_nil _ _) (.inl le_rfl) hpoint hfraction (exponent_none hrest)
  have hexp : (0 : ℤ) - ((List.replicate n.natAbs '0' ++ ds).length : ℤ) = n - ds.length := by
    rw [List.length_append, List.length_replicate]
    omega
  have hval : digitsVal (['0'] ++ (List.replicate n.natAbs '0' ++ ds)) = digitsVal ds := by
    rw [← List.append_assoc, digitsVal_append, show ['0'] ++ List.replicate n.natAbs '0' =
      List.replicate (n.natAbs + 1) '0' from (List.replicate_succ).symm, digitsVal_zeros, Nat.zero_mul, Nat.zero_add]
  rw [hval, hexp] at hnumber
  simpa using hnumber

omit hne hhead hrest in
/-- With an exponent a point follows the first digit, if there are others. -/
theorem number_mantissa {m cs : List Char} {n : ℤ}
    (hm : (∃ d, ds = [d] ∧ m = [d]) ∨ ∃ d d' ds', ds = d :: d' :: ds' ∧ m = d :: '.' :: d' :: ds')
    (hcs : ∀ c, cs.head? = some c → c.isDigit = false ∧ c ≠ '.') (hexponent : exponent cs = some (n - 1, rest)) :
    number (m ++ cs) = some ((digitsVal ds : ℚ) * 10 ^ (n - ds.length), rest) := by
  rcases hm with ⟨d, rfl, rfl⟩ | ⟨d, d', ds', rfl, rfl⟩
  · have hnumber := number_parts hds (List.cons_ne_nil _ _) (.inl le_rfl) (fun c hc => (hcs c hc).1)
      (fraction_none fun c hc => (hcs c hc).2) hexponent
    simpa using hnumber
  · have hd : ∀ c ∈ [d], c.isDigit = true := fun c hc => hds c (by simp_all)
    have hpoint : EndsDigits ('.' :: (d' :: ds' ++ cs)) := fun c hc => by
      cases hc
      rfl
    have hfraction := fraction_digits (fun c hc => hds c (List.mem_cons_of_mem d hc)) (List.cons_ne_nil d' ds')
      fun c hc => (hcs c hc).1
    have hnumber := number_parts hd (List.cons_ne_nil _ _) (.inl le_rfl) hpoint hfraction hexponent
    have hexp : n - ((d :: d' :: ds').length : ℤ) = n - 1 - (d' :: ds').length := by
      simp only [List.length_cons]
      omega
    rw [hexp]
    simpa using hnumber

end Layouts

/-! ## Reading a number -/

theorem number_positiveText {q : ℚ} (hq : 0 < q) {rest : List Char} (hrest : EndsNumber rest) :
    number ((positiveText q).toList ++ rest) = some (positiveShown q, rest) := by
  have hdigits := significant_digits q
  have hne := significant_ne_nil hq
  have hhead := significant_head hq
  rw [positiveShown]
  unfold positiveText
  generalize significant q = s at hdigits hne hhead ⊢
  obtain ⟨ds, n⟩ := s
  dsimp only at hdigits hne hhead ⊢
  split_ifs with hplain hpoint hsmall
  · rw [String.toList_ofList]
    exact number_plain hdigits hne hhead hrest hplain.1
  · rw [String.toList_ofList]
    exact number_point hdigits hne hhead hrest hpoint.1 (by omega)
  · rw [String.toList_ofList]
    exact number_small hdigits hne hrest hsmall.2
  all_goals
    have hes : ∀ c ∈ Nat.toDigits 10 (n - 1).natAbs, c.isDigit = true := fun c hc =>
      Nat.isDigit_of_mem_toDigits (by norm_num) le_rfl hc
    have hletter : ∀ {cs : List Char} (c : Char), ('e' :: cs).head? = some c → c.isDigit = false ∧ c ≠ '.' := by
      rintro cs c ⟨⟩
      decide
    simp only [String.toList_append, String.toList_ofList, Nat.toString_eq_ofList_toDigits, List.append_assoc]
    refine number_mantissa hdigits ?_ hletter ?_
    · rcases ds with _ | ⟨d, _ | ⟨d', ds'⟩⟩
      · exact absurd rfl hne
      · exact .inl ⟨d, rfl, rfl⟩
      · exact .inr ⟨d, d', ds', rfl, rfl⟩
  · refine (exponent_plus hes Nat.toDigits_ne_nil hrest.digits).trans ?_
    rw [digitsVal_toDigits, Int.natAbs_of_nonneg (by omega)]
  · refine (exponent_minus hes Nat.toDigits_ne_nil hrest.digits).trans ?_
    rw [digitsVal_toDigits, Int.ofNat_natAbs_of_nonpos (by omega), neg_neg]

theorem number_minus {c : Char} (hc : c ≠ '-') (cs : List Char) :
    number ('-' :: c :: cs) = (number (c :: cs)).map fun x => (-x.1, x.2) := by
  conv_rhs => unfold number
  split
  rename_i neg cs₁ hplain
  split at hplain
  · next h =>
      cases h
      exact absurd rfl hc
  cases hplain
  unfold number
  split
  rename_i neg cs₂ hminus
  split at hminus
  · next h =>
      cases h
      cases hminus
      dsimp only
      split
      · rfl
      · cases fraction ((c :: cs).span Char.isDigit).2 with
        | none => rfl
        | some x =>
            cases he : exponent x.2 with
            | none => simp [he]
            | some y => simp [he]
  · next h => exact absurd rfl (h _)

theorem positiveText_head {q : ℚ} (hq : 0 < q) : ∃ c, (positiveText q).toList.head? = some c ∧ c.isDigit = true := by
  have hdigits := significant_digits q
  have hne := significant_ne_nil hq
  unfold positiveText
  generalize significant q = s at hdigits hne ⊢
  obtain ⟨ds, n⟩ := s
  obtain ⟨d, ds', rfl⟩ := List.exists_cons_of_ne_nil hne
  have hd : d.isDigit = true := hdigits d List.mem_cons_self
  dsimp only
  split_ifs with hplain hpoint hsmall
  · exact ⟨d, by simp, hd⟩
  · obtain ⟨m, hm⟩ : ∃ m, n.toNat = m + 1 := ⟨n.toNat - 1, by omega⟩
    exact ⟨d, by simp [hm], hd⟩
  · exact ⟨'0', by simp, rfl⟩
  all_goals
    cases ds' <;> exact ⟨d, by simp, hd⟩

theorem number_numberText (q : ℚ) {rest : List Char} (hrest : EndsNumber rest) :
    number ((numberText (some q)).toList ++ rest) = some (numberShown q, rest) := by
  simp only [numberText, numberShown, beq_iff_eq]
  split_ifs with hzero hneg
  · have hdigit : ∀ c ∈ ['0'], c.isDigit = true := by simp
    have hnumber := number_parts hdigit (List.cons_ne_nil _ _) (.inl le_rfl) hrest.digits
      (fraction_none fun c hc => (hrest c hc).2.1) (exponent_none hrest)
    simpa [digitsVal] using hnumber
  · have hpos : 0 < -q := neg_pos.mpr hneg
    obtain ⟨c, hhead, hdigit⟩ := positiveText_head hpos
    have hminus : c ≠ '-' := by
      rintro rfl
      cases hdigit
    obtain ⟨cs, hcs⟩ := List.head?_eq_some_iff.mp hhead
    have hread := number_positiveText hpos hrest
    rw [hcs] at hread
    rw [String.toList_append, List.append_assoc, hcs]
    exact (number_minus hminus (cs ++ rest)).trans (by rw [← List.cons_append, hread]; rfl)
  · exact number_positiveText (lt_of_le_of_ne (not_lt.mp hneg) (Ne.symm hzero)) hrest

theorem numberText_head (q : ℚ) : ∃ c, (numberText (some q)).toList.head? = some c ∧ (c = '-' ∨ c.isDigit = true) := by
  simp only [numberText, beq_iff_eq]
  split_ifs with hzero hneg
  · exact ⟨'0', rfl, .inr rfl⟩
  · exact ⟨'-', by simp, .inl rfl⟩
  · obtain ⟨c, hhead, hdigit⟩ := positiveText_head (lt_of_le_of_ne (not_lt.mp hneg) (Ne.symm hzero))
    exact ⟨c, hhead, .inr hdigit⟩

/-! ## Decimal fractions -/

/-- Each prime factor of a divisor of a power of ten is there at most `log2` times. -/
theorem dvd_pow_log2 {d k : ℕ} (h : d ∣ 10 ^ k) : d ∣ 10 ^ Nat.log2 d := by
  have hd : d ≠ 0 := fun hd => by simp [hd] at h
  rw [show (10 : ℕ) = 2 * 5 from rfl, mul_pow] at h
  obtain ⟨a, b, ha, hb, rfl⟩ := exists_dvd_and_dvd_of_dvd_mul h
  obtain ⟨i, -, rfl⟩ := (Nat.dvd_prime_pow Nat.prime_two).mp ha
  obtain ⟨j, -, rfl⟩ := (Nat.dvd_prime_pow Nat.prime_five).mp hb
  have hi : i ≤ Nat.log2 (2 ^ i * 5 ^ j) :=
    (Nat.le_log2 hd).mpr (Nat.le_mul_of_pos_right _ (by positivity))
  have hj : j ≤ Nat.log2 (2 ^ i * 5 ^ j) :=
    (Nat.le_log2 hd).mpr ((Nat.pow_le_pow_left (by norm_num) j).trans (Nat.le_mul_of_pos_left _ (by positivity)))
  conv_rhs => rw [show (10 : ℕ) = 2 * 5 from rfl, mul_pow]
  exact mul_dvd_mul (pow_dvd_pow 2 hi) (pow_dvd_pow 5 hj)

/-- A decimal fraction is a whole number after its last decimal. -/
theorem den_dvd_iff {q : ℚ} {k : ℕ} : q.den ∣ 10 ^ k ↔ ∃ m : ℤ, q * 10 ^ k = m := by
  constructor
  · rintro ⟨c, hc⟩
    refine ⟨q.num * c, ?_⟩
    have hpow : (10 : ℚ) ^ k = q.den * c := by exact_mod_cast hc
    rw [hpow, ← mul_assoc, Rat.mul_den_eq_num]
    push_cast
    rfl
  · rintro ⟨m, hm⟩
    have hdvd := Rat.den_dvd m (10 ^ k)
    have hq : (m : ℚ) / ((10 ^ k : ℤ) : ℚ) = q := by
      rw [← hm]
      push_cast
      exact mul_div_cancel_right₀ q (by positivity)
    rw [Rat.divInt_eq_div, hq] at hdvd
    exact_mod_cast hdvd

theorem decimals_spec {q : ℚ} {fuel : ℕ} (h : q.den ∣ 10 ^ fuel) : ∃ m : ℤ, q * 10 ^ decimals fuel q = m := by
  induction fuel generalizing q with
  | zero => exact den_dvd_iff.mp h
  | succ fuel ih =>
      rw [decimals]
      split
      · next hden =>
          refine den_dvd_iff.mp ?_
          rw [beq_iff_eq.mp hden]
          exact one_dvd _
      · obtain ⟨m, hm⟩ := den_dvd_iff.mp h
        have hnext : (q * 10).den ∣ 10 ^ fuel := den_dvd_iff.mpr ⟨m, by rw [← hm, pow_succ']; ring⟩
        obtain ⟨m', hm'⟩ := ih hnext
        exact ⟨m', by rw [← hm', pow_succ']; ring⟩

theorem positiveShown_of_dvd {q : ℚ} {k : ℕ} (hq : 0 < q) (h : q.den ∣ 10 ^ k) : positiveShown q = q := by
  obtain ⟨m, hm⟩ := decimals_spec ((dvd_pow_log2 h).trans (pow_dvd_pow 10 (Nat.le_succ _)))
  have hpos : (0 : ℚ) < m := by
    rw [← hm]
    positivity
  have hscaled : ((scaled q).1 : ℚ) = q * 10 ^ (scaled q).2 := by
    have hnum : (scaled q).1 = m.natAbs := by
      rw [scaled]
      dsimp only
      rw [hm, Rat.num_intCast]
    rw [hnum, show (scaled q).2 = decimals (Nat.log2 q.den + 1) q from rfl, hm, Nat.cast_natAbs,
      abs_of_pos (by exact_mod_cast hpos)]
  rw [positiveShown_eq, hscaled]
  exact mul_div_cancel_right₀ q (by positivity)

/-- The text of a decimal fraction says which it is. -/
theorem numberShown_eq {q : ℚ} {k : ℕ} (h : q.den ∣ 10 ^ k) : numberShown q = q := by
  simp only [numberShown, beq_iff_eq]
  split_ifs with hzero hneg
  · exact hzero.symm
  · rw [positiveShown_of_dvd (neg_pos.mpr hneg) (by rwa [Rat.den_neg_eq_den]), neg_neg]
  · exact positiveShown_of_dvd (lt_of_le_of_ne (not_lt.mp hneg) (Ne.symm hzero)) h

/-! ## Texts of numbers -/

def Decimal (p : Option ℚ) : Prop := ∀ q, p = some q → ∃ k : ℕ, q.den ∣ 10 ^ k

/-- Different numbers have different texts. -/
theorem numberText_inj {p p' : Option ℚ} (hp : Decimal p) (hp' : Decimal p') (h : numberText p = numberText p') :
    p = p' := by
  have hnan : ∀ q : ℚ, numberText none ≠ numberText (some q) := fun q he => by
    obtain ⟨c, hhead, hc⟩ := numberText_head q
    rw [← he] at hhead
    cases hhead
    rcases hc with hc | hc <;> cases hc
  cases p with
  | none =>
      cases p' with
      | none => rfl
      | some q' => exact absurd h (hnan q')
  | some q =>
      cases p' with
      | none => exact absurd h.symm (hnan q)
      | some q' =>
          obtain ⟨k, hk⟩ := hp q rfl
          obtain ⟨k', hk'⟩ := hp' q' rfl
          have hends : EndsNumber [] := fun c hc => by cases hc
          have hread := number_numberText q hends
          rw [h, number_numberText q' hends, numberShown_eq hk, numberShown_eq hk'] at hread
          rw [(Prod.mk.inj (Option.some.inj hread)).1]

theorem decimal_digits (cs : List Char) : Decimal (digits cs) := by
  intro q hq
  unfold digits at hq
  split at hq
  · cases hq
  · cases hq
    exact ⟨0, by simp⟩

theorem decimal_parseInt (text : String) : Decimal (parseInt text) := by
  intro q hq
  unfold parseInt at hq
  split at hq
  · next cs _ =>
      obtain ⟨p, hp, rfl⟩ := Option.map_eq_some_iff.mp hq
      obtain ⟨k, hk⟩ := decimal_digits cs p hp
      exact ⟨k, by rwa [Rat.den_neg_eq_den]⟩
  · next cs _ => exact decimal_digits cs q hq
  · exact decimal_digits _ q hq

theorem blank_notMem_digits {ds : List Char} (h : ∀ c ∈ ds, c.isDigit = true) : ' ' ∉ ds :=
  fun hc => absurd (h _ hc) (by decide)

theorem blank_notMem_positiveText (q : ℚ) : ' ' ∉ (positiveText q).toList := by
  have hds := blank_notMem_digits (significant_digits q)
  unfold positiveText
  generalize significant q = s at hds ⊢
  obtain ⟨ds, n⟩ := s
  dsimp only at hds ⊢
  split_ifs with hplain hpoint hsmall
  · simp [hds]
  · have htake : ' ' ∉ ds.take n.toNat := fun hc => hds (List.mem_of_mem_take hc)
    have hdrop : ' ' ∉ ds.drop n.toNat := fun hc => hds (List.mem_of_mem_drop hc)
    simp [htake, hdrop]
  · simp [hds]
  all_goals
    have hexp : ' ' ∉ Nat.toDigits 10 (n - 1).natAbs := blank_notMem_digits fun c hc =>
      Nat.isDigit_of_mem_toDigits (by norm_num) le_rfl hc
    split <;> simp_all

theorem blank_notMem_numberText (p : Option ℚ) : ' ' ∉ (numberText p).toList := by
  cases p with
  | none => decide
  | some q =>
      simp only [numberText, beq_iff_eq]
      split_ifs with hzero hneg
      · decide
      · simp [blank_notMem_positiveText]
      · exact blank_notMem_positiveText q

end Json

end Js
