import GuardianshipAgency.Js.Lemmas.Numbers

/-!
# `JSON.parse` after `JSON.stringify`
-/

namespace Js.Json

/-! ## Strings -/

theorem hexVal_digitChar {d : ℕ} (hd : d < 16) : hexVal d.digitChar = some d := by
  interval_cases d <;> decide

theorem bind_cons (o : Option (List ℕ × List Char)) (u : ℕ) :
    (do let (us, rest) ← o; return (u :: us, rest)) = o.map fun x => (u :: x.1, x.2) := by
  cases o <;> rfl

theorem stringBody_escape {e : Char} {u : ℕ} (he : stringBody.escape e = some u) (hu : e ≠ 'u') (cs : List Char) :
    stringBody ('\\' :: e :: cs) = (stringBody cs).map fun x => (u :: x.1, x.2) := by
  rw [stringBody.eq_3 e cs fun _ _ _ _ _ h _ => hu h, he]
  exact bind_cons _ u

theorem stringBody_control {c : Char} (hc : c.toNat < 0x20) (cs : List Char) :
    stringBody ('\\' :: 'u' :: '0' :: '0' :: (c.toNat / 16).digitChar :: (c.toNat % 16).digitChar :: cs) =
      (stringBody cs).map fun x => (c.toNat :: x.1, x.2) := by
  have hhex : hex4 '0' '0' (c.toNat / 16).digitChar (c.toNat % 16).digitChar = some c.toNat := by
    have hunits : ((0 * 16 + 0) * 16 + c.toNat / 16) * 16 + c.toNat % 16 = c.toNat := by omega
    simp only [hex4, hexVal_digitChar (show c.toNat / 16 < 16 by omega),
      hexVal_digitChar (show c.toNat % 16 < 16 by omega), show hexVal '0' = some 0 by decide]
    exact congrArg some hunits
  rw [stringBody.eq_2, hhex]
  exact bind_cons _ _

theorem stringBody_plain {c : Char} (hquote : c ≠ '"') (hslash : c ≠ '\\') (hc : ¬c.toNat < 0x20) (cs : List Char) :
    stringBody (c :: cs) = (stringBody cs).map fun x => (c.toNat :: x.1, x.2) := by
  rw [stringBody.eq_4 c cs hquote (fun _ _ _ _ _ h _ => hslash h) fun _ _ h _ => hslash h, if_neg hc]
  exact bind_cons _ _

theorem stringBody_quoteChar (c : Char) (cs : List Char) :
    stringBody (quoteChar c ++ cs) = (stringBody cs).map fun x => (c.toNat :: x.1, x.2) := by
  unfold quoteChar
  split_ifs with hquote hslash hb hf hn hr ht hcontrol
  · rw [hquote]
    exact stringBody_escape rfl (by decide) cs
  · rw [hslash]
    exact stringBody_escape rfl (by decide) cs
  · rw [hb]
    exact stringBody_escape rfl (by decide) cs
  · rw [hf]
    exact stringBody_escape rfl (by decide) cs
  · rw [hn]
    exact stringBody_escape rfl (by decide) cs
  · rw [hr]
    exact stringBody_escape rfl (by decide) cs
  · rw [ht]
    exact stringBody_escape rfl (by decide) cs
  · exact stringBody_control hcontrol cs
  · exact stringBody_plain hquote hslash hcontrol cs

theorem stringBody_quote (cs rest : List Char) :
    stringBody (cs.flatMap quoteChar ++ '"' :: rest) = some (cs.map Char.toNat, rest) := by
  induction cs with
  | nil => rfl
  | cons c cs ih =>
      rw [List.flatMap_cons, List.append_assoc, stringBody_quoteChar, ih]
      rfl

theorem unit_toNat (c : Char) : decodeUnits.unit c.toNat = c := by
  have hvalid : c.toNat < 0xD800 ∨ 0xDFFF < c.toNat ∧ c.toNat < 0x110000 := c.valid
  rw [decodeUnits.unit, if_neg (by omega), Char.ofNat_toNat]

/-- No character is half of a surrogate pair. -/
theorem decodeUnits_toNat (cs : List Char) : decodeUnits (cs.map Char.toNat) = cs := by
  induction cs with
  | nil => rfl
  | cons c cs ih =>
      cases cs with
      | nil => simp [decodeUnits, unit_toNat]
      | cons c' cs =>
          have hvalid : c.toNat < 0xD800 ∨ 0xDFFF < c.toNat ∧ c.toNat < 0x110000 := c.valid
          simp only [List.map_cons] at ih ⊢
          rw [decodeUnits.eq_1, if_neg (by omega), unit_toNat, ih]

/-! ## Values -/

theorem skipWs_cons {c : Char} (hc : c ≠ ' ' ∧ c ≠ '\t' ∧ c ≠ '\n' ∧ c ≠ '\r') (cs : List Char) :
    skipWs (c :: cs) = c :: cs := by
  simp [skipWs, hc]

theorem value_number {c : Char} (hc : c = '-' ∨ c.isDigit = true) (n : ℕ) (cs : List Char) :
    value (n + 1) (c :: cs) = (number (c :: cs)).map fun x => (.num x.1, x.2) := by
  have hother : ∀ c', c'.isDigit = false → c' ≠ '-' → c ≠ c' := by
    rintro c' hdigit hminus rfl
    rcases hc with rfl | hc
    · exact hminus rfl
    · exact absurd hc (by simp [hdigit])
  have hskip := skipWs_cons ⟨hother ' ' rfl (by decide), hother '\t' rfl (by decide), hother '\n' rfl (by decide),
    hother '\r' rfl (by decide)⟩ cs
  rw [value, hskip]
  split
  · next h => exact absurd (List.cons.inj h).1 (hother _ rfl (by decide))
  · next h => exact absurd (List.cons.inj h).1 (hother _ rfl (by decide))
  · next h => exact absurd (List.cons.inj h).1 (hother _ rfl (by decide))
  · next h => exact absurd (List.cons.inj h).1 (hother _ rfl (by decide))
  · next h => exact absurd (List.cons.inj h).1 (hother _ rfl (by decide))
  · next h => exact absurd (List.cons.inj h).1 (hother _ rfl (by decide))
  · rfl

theorem value_num (n : ℕ) (q : ℚ) {rest : List Char} (hrest : EndsNumber rest) :
    value (n + 1) (chars (.num q) ++ rest) = some (shown (.num q), rest) := by
  rw [chars, shown]
  split
  case isFalse => rfl
  obtain ⟨c, hhead, hc⟩ := numberText_head q
  obtain ⟨cs, hcs⟩ := List.head?_eq_some_iff.mp hhead
  have hnumber := number_numberText q hrest
  rw [hcs, List.cons_append] at hnumber ⊢
  rw [value_number hc, hnumber]
  rfl

theorem value_quote (n : ℕ) (cs : List Char) :
    value (n + 1) ('"' :: cs) = (stringBody cs).map fun x => (.str (String.ofList (decodeUnits x.1)), x.2) := rfl

theorem value_str (n : ℕ) (s : String) (rest : List Char) :
    value (n + 1) (quote s ++ rest) = some (.str s, rest) := by
  simp only [quote, List.cons_append, List.append_assoc, List.nil_append, value_quote, stringBody_quote,
    Option.map_some, decodeUnits_toNat, String.ofList_toList]

/-- What follows an item of an array, or a member of an object. -/
theorem endsNumber_cons {c : Char} (hc : c = ',' ∨ c = ']' ∨ c = '}') (cs : List Char) : EndsNumber (c :: cs) := by
  rintro c' ⟨⟩
  rcases hc with rfl | rfl | rfl <;> decide

theorem endsNumber_items (xs : List Json) (rest : List Char) : EndsNumber (itemsChars xs ++ rest) := by
  cases xs with
  | nil => exact endsNumber_cons (.inr (.inl rfl)) _
  | cons x xs => exact endsNumber_cons (.inl rfl) _

theorem endsNumber_members (kvs : List (String × Json)) (rest : List Char) :
    EndsNumber (membersChars kvs ++ rest) := by
  cases kvs with
  | nil => exact endsNumber_cons (.inr (.inr rfl)) _
  | cons kv kvs => exact endsNumber_cons (.inl rfl) _

/-! ## Arrays and objects -/

/-- A text does not begin with white space or with a closing bracket. -/
theorem chars_head (v : Json) : ∃ c cs, chars v = c :: cs ∧
    (c ≠ ' ' ∧ c ≠ '\t' ∧ c ≠ '\n' ∧ c ≠ '\r') ∧ c ≠ ']' := by
  cases v with
  | null => exact ⟨_, _, rfl, by decide⟩
  | bool b => cases b <;> exact ⟨_, _, rfl, by decide⟩
  | num q =>
      rw [chars]
      split
      case isFalse => exact ⟨_, _, rfl, by decide⟩
      obtain ⟨c, hhead, hc⟩ := numberText_head q
      obtain ⟨cs, hcs⟩ := List.head?_eq_some_iff.mp hhead
      refine ⟨c, cs, hcs, ?_⟩
      rcases hc with rfl | hc
      · decide
      · refine ⟨⟨?_, ?_, ?_, ?_⟩, ?_⟩ <;> rintro rfl <;> cases hc
  | str s => exact ⟨_, _, rfl, by decide⟩
  | arr xs => cases xs <;> exact ⟨_, _, rfl, by decide⟩
  | obj kvs => rcases kvs with _ | ⟨⟨k, v⟩, kvs⟩ <;> exact ⟨_, _, rfl, by decide⟩

theorem value_array (n : ℕ) (x : Json) (cs : List Char) :
    value (n + 1) ('[' :: (chars x ++ cs)) = elements n [] (chars x ++ cs) := by
  obtain ⟨c, cs', hcs, hws, hbracket⟩ := chars_head x
  have hskip : skipWs ('[' :: (c :: (cs' ++ cs))) = '[' :: (c :: (cs' ++ cs)) := rfl
  rw [hcs, List.cons_append]
  simp only [value, hskip, skipWs_cons hws]
  split
  · next h => exact absurd (List.cons.inj h).1 hbracket
  · rfl

theorem value_object (n : ℕ) (k : String) (cs : List Char) :
    value (n + 1) ('{' :: (quote k ++ cs)) = members n [] (quote k ++ cs) := rfl

theorem elements_last {n : ℕ} {cs rest : List Char} {x : Json} (h : value n cs = some (x, ']' :: rest))
    (acc : List Json) : elements (n + 1) acc cs = some (.arr (acc ++ [x]), rest) := by
  simp only [elements, h]
  rfl

theorem elements_more {n : ℕ} {cs rest : List Char} {x : Json} (h : value n cs = some (x, ',' :: rest))
    (acc : List Json) : elements (n + 1) acc cs = elements n (acc ++ [x]) rest := by
  simp only [elements, h]
  rfl

section Members

variable {n : ℕ} {cs rest : List Char} {v : Json} (acc : List (String × Json)) (k : String)

theorem skipWs_quote : skipWs (quote k ++ ':' :: cs) = '"' :: (k.toList.flatMap quoteChar ++ '"' :: ':' :: cs) := by
  simp only [quote, List.cons_append, List.append_assoc, List.nil_append]
  rfl

theorem skipWs_colon : skipWs (':' :: cs) = ':' :: cs := rfl

theorem members_last (h : value n cs = some (v, '}' :: rest)) :
    members (n + 1) acc (quote k ++ ':' :: cs) = some (.obj (member acc k v), rest) := by
  simp only [members, skipWs_quote, stringBody_quote k.toList (':' :: cs), skipWs_colon, h, decodeUnits_toNat,
    String.ofList_toList]
  rfl

theorem members_more (h : value n cs = some (v, ',' :: rest)) :
    members (n + 1) acc (quote k ++ ':' :: cs) = members n (member acc k v) rest := by
  simp only [members, skipWs_quote, stringBody_quote k.toList (':' :: cs), skipWs_colon, h, decodeUnits_toNat,
    String.ofList_toList]
  rfl

end Members

mutual
theorem value_chars : (v : Json) → (n : ℕ) → (rest : List Char) → (chars v).length ≤ n → EndsNumber rest →
    value n (chars v ++ rest) = some (shown v, rest)
  | v, 0, rest, hn, _ => by
      obtain ⟨c, cs, hcs, -⟩ := chars_head v
      simp [hcs] at hn
  | .null, n + 1, rest, _, _ => rfl
  | .bool true, n + 1, rest, _, _ => rfl
  | .bool false, n + 1, rest, _, _ => rfl
  | .num q, n + 1, rest, _, hrest => value_num n q hrest
  | .str s, n + 1, rest, _, _ => value_str n s rest
  | .arr [], n + 1, rest, _, _ => rfl
  | .arr (x :: xs), n + 1, rest, hn, _ => by
      simp only [chars, List.length_cons, List.length_append] at hn
      simp only [chars, List.cons_append, List.append_assoc]
      rw [value_array]
      exact elements_items xs x n [] rest (by simp only [List.length_append]; omega)
        fun m hm => value_chars x m _ hm (endsNumber_items xs rest)
  | .obj [], n + 1, rest, _, _ => rfl
  | .obj ((k, v) :: kvs), n + 1, rest, hn, _ => by
      simp only [chars, List.length_cons, List.length_append] at hn
      simp only [chars, List.cons_append, List.append_assoc]
      rw [value_object]
      exact members_items kvs k v n [] rest (by simp only [List.length_append]; omega)
        fun m hm => value_chars v m _ hm (endsNumber_members kvs rest)

theorem elements_items : (xs : List Json) → (x : Json) → (n : ℕ) → (acc : List Json) → (rest : List Char) →
    (chars x ++ itemsChars xs).length ≤ n →
    (∀ m, (chars x).length ≤ m →
      value m (chars x ++ (itemsChars xs ++ rest)) = some (shown x, itemsChars xs ++ rest)) →
    elements n acc (chars x ++ (itemsChars xs ++ rest)) = some (.arr (acc ++ shown x :: shownItems xs), rest)
  | [], x, n, acc, rest, hn, hx => by
      simp only [itemsChars, List.length_append, List.length_singleton] at hn
      obtain ⟨m, rfl⟩ : ∃ m, n = m + 1 := ⟨n - 1, by omega⟩
      rw [elements_last (hx m (by omega))]
      rfl
  | y :: ys, x, n, acc, rest, hn, hx => by
      simp only [itemsChars, List.length_append, List.length_cons] at hn
      obtain ⟨m, rfl⟩ : ∃ m, n = m + 1 := ⟨n - 1, by omega⟩
      rw [itemsChars, List.cons_append] at hx
      rw [itemsChars, List.cons_append, elements_more (hx m (by omega))]
      have hys := elements_items ys y m (acc ++ [shown x]) rest (by simp only [List.length_append]; omega)
        fun m hm => value_chars y m _ hm (endsNumber_items ys rest)
      simp only [List.cons_append, List.append_assoc, shownItems, List.nil_append] at hys ⊢
      exact hys

theorem members_items : (kvs : List (String × Json)) → (k : String) → (v : Json) → (n : ℕ) →
    (acc : List (String × Json)) → (rest : List Char) → (quote k).length + (chars v ++ membersChars kvs).length ≤ n →
    (∀ m, (chars v).length ≤ m →
      value m (chars v ++ (membersChars kvs ++ rest)) = some (shown v, membersChars kvs ++ rest)) →
    members n acc (quote k ++ ':' :: (chars v ++ (membersChars kvs ++ rest))) =
      some (.obj (shownMembers (member acc k (shown v)) kvs), rest)
  | [], k, v, n, acc, rest, hn, hv => by
      simp only [membersChars, List.length_append, List.length_singleton] at hn
      obtain ⟨m, rfl⟩ : ∃ m, n = m + 1 := ⟨n - 1, by omega⟩
      rw [members_last _ _ (hv m (by omega))]
      rfl
  | (k', v') :: kvs, k, v, n, acc, rest, hn, hv => by
      simp only [membersChars, List.length_append, List.length_cons] at hn
      obtain ⟨m, rfl⟩ : ∃ m, n = m + 1 := ⟨n - 1, by omega⟩
      rw [membersChars, List.cons_append] at hv
      rw [membersChars, List.cons_append, members_more _ _ (hv m (by omega))]
      have hkvs := members_items kvs k' v' m (member acc k (shown v)) rest
        (by simp only [List.length_append]; omega) fun m hm => value_chars v' m _ hm (endsNumber_members kvs rest)
      simp only [List.cons_append, List.append_assoc, shownMembers] at hkvs ⊢
      exact hkvs
end

/-- A text that was written is read, and says what `shown` says. -/
theorem parse_stringify (v : Json) : parse (stringify v) = .ok (shown v) := by
  have hread := value_chars v (2 * (chars v).length + 2) [] (by omega) fun c hc => by cases hc
  rw [List.append_nil] at hread
  rw [parse, stringify, String.toList_ofList, hread]
  rfl

/-! ## Exact values -/

theorem member_of_notMem {kvs : List (String × Json)} {k : String} (h : k ∉ kvs.map Prod.fst) (v : Json) :
    member kvs k v = kvs ++ [(k, v)] := by
  rw [member, List.filter_eq_self.mpr]
  intro kv hkv
  have hne : kv.1 ≠ k := fun he => h (he ▸ List.mem_map_of_mem hkv)
  simpa using hne

theorem shownMembers_eq {acc kvs : List (String × Json)} (h : ((acc ++ kvs).map Prod.fst).Nodup) :
    shownMembers acc kvs = acc ++ kvs.map fun kv => (kv.1, shown kv.2) := by
  induction kvs generalizing acc with
  | nil => simp [shownMembers]
  | cons kv kvs ih =>
      obtain ⟨k, v⟩ := kv
      have hk : k ∉ acc.map Prod.fst := by
        rw [List.map_append, List.nodup_append] at h
        exact fun hmem => h.2.2 k hmem k (by simp) rfl
      have hnodup : (((acc ++ [(k, shown v)]) ++ kvs).map Prod.fst).Nodup := by simpa using h
      rw [shownMembers, member_of_notMem hk, ih hnodup]
      simp

mutual
theorem shown_of_plain : (v : Json) → Plain v → finite v = true → shown v = v
  | .null, _, _ => rfl
  | .bool _, _, _ => rfl
  | .num q, h, hfinite => by
      obtain ⟨k, hk⟩ := h
      rw [finite] at hfinite
      rw [shown, if_pos hfinite, numberShown_eq hk]
  | .str _, _, _ => rfl
  | .arr xs, h, hfinite => by rw [shown, shownItems_of_plain xs h hfinite]
  | .obj kvs, h, hfinite => by
      rw [shown, shownMembers_eq (by simpa using h.1), List.nil_append, shownMembers_of_plain kvs h.2 hfinite]

theorem shownItems_of_plain : (xs : List Json) → PlainItems xs → finiteItems xs = true → shownItems xs = xs
  | [], _, _ => rfl
  | x :: xs, h, hfinite => by
      obtain ⟨hx, hxs⟩ := Bool.and_eq_true_iff.mp hfinite
      rw [shownItems, shown_of_plain x h.1 hx, shownItems_of_plain xs h.2 hxs]

theorem shownMembers_of_plain : (kvs : List (String × Json)) → PlainMembers kvs → finiteMembers kvs = true →
    (kvs.map fun kv => (kv.1, shown kv.2)) = kvs
  | [], _, _ => rfl
  | (_, v) :: kvs, h, hfinite => by
      obtain ⟨hv, hkvs⟩ := Bool.and_eq_true_iff.mp hfinite
      rw [List.map_cons, shown_of_plain v h.1 hv, shownMembers_of_plain kvs h.2 hkvs]
end

theorem shown_of_exact {v : Json} (h : Exact v) : shown v = v := shown_of_plain v h.plain h.finite

theorem parse_stringify_of_exact {v : Json} (h : Exact v) : parse (stringify v) = .ok v := by
  rw [parse_stringify, shown_of_exact h]

/-! ## Values that were read are plain -/

theorem plainItems_append {xs : List Json} {x : Json} (hxs : PlainItems xs) (hx : Plain x) : PlainItems (xs ++ [x]) := by
  induction xs with
  | nil => exact ⟨hx, trivial⟩
  | cons y ys ih => exact ⟨hxs.1, ih hxs.2⟩

theorem plainMembers_iff {kvs : List (String × Json)} : PlainMembers kvs ↔ ∀ kv ∈ kvs, Plain kv.2 := by
  induction kvs with
  | nil => simp [PlainMembers]
  | cons kv kvs ih => simp [PlainMembers, ih]

theorem plain_member {kvs : List (String × Json)} {v : Json} (hkvs : Plain (.obj kvs)) (hv : Plain v) (k : String) :
    Plain (.obj (member kvs k v)) := by
  refine ⟨?_, plainMembers_iff.mpr fun kv hkv => ?_⟩
  · rw [member, List.map_append, List.nodup_append]
    refine ⟨hkvs.1.sublist (List.filter_sublist.map Prod.fst), List.nodup_singleton k, ?_⟩
    intro k' hk' k'' hk'' he
    obtain ⟨kv, hkv, rfl⟩ := List.mem_map.mp hk'
    have hne : kv.1 ≠ k := by simpa using (List.mem_filter.mp hkv).2
    exact hne (he.trans (List.mem_singleton.mp hk''))
  · rcases List.mem_append.mp hkv with hkv | hkv
    · exact plainMembers_iff.mp hkvs.2 kv (List.mem_filter.mp hkv).1
    · rw [List.mem_singleton.mp hkv]
      exact hv

theorem plain_number {cs rest : List Char} {q : ℚ} (h : number cs = some (q, rest)) : Plain (.num q) := by
  have hdecimal (m : ℕ) (n : ℤ) : ∃ k : ℕ, ∃ i : ℤ, (m : ℚ) * 10 ^ n * 10 ^ k = i := by
    obtain ⟨k, hk⟩ := Int.eq_ofNat_of_zero_le (show 0 ≤ n + n.natAbs by omega)
    refine ⟨n.natAbs, m * 10 ^ k, ?_⟩
    rw [mul_assoc, ← zpow_natCast, ← zpow_add₀ (by norm_num), hk, zpow_natCast]
    push_cast
    rfl
  unfold number at h
  split at h
  rename_i neg cs' hsign
  dsimp only at h
  split at h
  · cases h
  · obtain ⟨⟨fs, cs₁⟩, -, h⟩ := Option.bind_eq_some_iff.mp h
    obtain ⟨⟨ex, cs₂⟩, -, h⟩ := Option.bind_eq_some_iff.mp h
    cases h
    rw [shift_eq]
    obtain ⟨k, i, hi⟩ := hdecimal (digitsVal ((cs'.span Char.isDigit).1 ++ fs)) (ex - fs.length)
    cases neg with
    | true => exact ⟨k, den_dvd_iff.mpr ⟨-i, by simp only [if_true, neg_mul, hi, Int.cast_neg]⟩⟩
    | false => exact ⟨k, den_dvd_iff.mpr ⟨i, hi⟩⟩

theorem plain_value (n : ℕ) :
    (∀ cs v rest, value n cs = some (v, rest) → Plain v) ∧
      (∀ xs cs v rest, PlainItems xs → elements n xs cs = some (v, rest) → Plain v) ∧
        ∀ kvs cs v rest, Plain (.obj kvs) → members n kvs cs = some (v, rest) → Plain v := by
  induction n with
  | zero =>
      refine ⟨?_, ?_, ?_⟩
      · rintro cs v rest ⟨⟩
      · rintro xs cs v rest - ⟨⟩
      · rintro kvs cs v rest - ⟨⟩
  | succ n ih =>
      obtain ⟨hvalue, helements, hmembers⟩ := ih
      refine ⟨fun cs v rest h => ?_, fun xs cs v rest hxs h => ?_, fun kvs cs v rest hkvs h => ?_⟩
      · rw [value] at h
        split at h
        · split at h
          · cases h
            exact ⟨List.nodup_nil, trivial⟩
          · exact hmembers [] _ _ _ ⟨List.nodup_nil, trivial⟩ h
        · split at h
          · cases h
            trivial
          · exact helements [] _ _ _ trivial h
        · obtain ⟨x, -, he⟩ := Option.map_eq_some_iff.mp h
          cases he
          trivial
        · cases h
          trivial
        · cases h
          trivial
        · cases h
          trivial
        · obtain ⟨x, hx, he⟩ := Option.map_eq_some_iff.mp h
          cases he
          exact plain_number hx
      · rw [elements] at h
        split at h
        · cases h
        · next x cs' hx =>
            have hxs' := plainItems_append hxs (hvalue _ _ _ hx)
            split at h
            · exact helements _ _ _ _ hxs' h
            · cases h
              exact hxs'
            · cases h
      · rw [members] at h
        split at h
        · split at h
          · cases h
          · split at h
            · split at h
              · cases h
              · next hv =>
                  have hkvs' := plain_member hkvs (hvalue _ _ _ hv)
                  dsimp only at h
                  split at h
                  · exact hmembers _ _ _ _ (hkvs' _) h
                  · cases h
                    exact hkvs' _
                  · cases h
            · cases h
        · cases h

theorem plain_parse {text : String} {v : Json} (h : parse text = .ok v) : Plain v := by
  rw [parse] at h
  split at h
  · next hv =>
      split at h
      · cases h
        exact (plain_value _).1 _ _ _ hv
      · cases h
  · cases h

theorem exact_parse {text : String} {v : Json} (h : parse text = .ok v) (hfinite : v.finite = true) : Exact v :=
  ⟨plain_parse h, hfinite⟩

/-! ## Parts of exact values -/

theorem plainItems_iff {xs : List Json} : PlainItems xs ↔ ∀ x ∈ xs, Plain x := by
  induction xs with
  | nil => simp [PlainItems]
  | cons x xs ih => simp [PlainItems, ih]

theorem finiteItems_iff {xs : List Json} : finiteItems xs = true ↔ ∀ x ∈ xs, x.finite = true := by
  induction xs with
  | nil => simp [finiteItems]
  | cons x xs ih => simp [finiteItems, ih]

theorem exact_arr {xs : List Json} (h : ∀ x ∈ xs, Exact x) : Exact (.arr xs) :=
  ⟨plainItems_iff.mpr fun x hx => (h x hx).plain, finiteItems_iff.mpr fun x hx => (h x hx).finite⟩

theorem finiteMembers_iff {kvs : List (String × Json)} :
    finiteMembers kvs = true ↔ ∀ kv ∈ kvs, kv.2.finite = true := by
  induction kvs with
  | nil => simp [finiteMembers]
  | cons kv kvs ih => simp [finiteMembers, ih]

theorem exact_obj {kvs : List (String × Json)} :
    Exact (.obj kvs) ↔ (kvs.map Prod.fst).Nodup ∧ ∀ kv ∈ kvs, Exact kv.2 := by
  constructor
  · rintro ⟨hplain, hfinite⟩
    exact ⟨hplain.1, fun kv hkv => ⟨plainMembers_iff.mp hplain.2 kv hkv, finiteMembers_iff.mp hfinite kv hkv⟩⟩
  · rintro ⟨hnodup, hmembers⟩
    exact ⟨⟨hnodup, plainMembers_iff.mpr fun kv hkv => (hmembers kv hkv).plain⟩,
      finiteMembers_iff.mpr fun kv hkv => (hmembers kv hkv).finite⟩

theorem exact_str (s : String) : Exact (.str s) := ⟨trivial, rfl⟩

theorem exact_null : Exact .null := ⟨trivial, rfl⟩

/-! ## Object literals -/

theorem nodup_ofFields {fields : List (String × Option Json)} (h : (fields.map Prod.fst).Nodup) :
    ((fields.filterMap fun kv => kv.2.map fun v => (kv.1, v)).map Prod.fst).Nodup := by
  refine h.sublist ?_
  induction fields with
  | nil => exact .slnil
  | cons kv fields ih =>
      obtain ⟨k, _ | v⟩ := kv
      · exact (ih (List.nodup_cons.mp h).2).cons k
      · exact (ih (List.nodup_cons.mp h).2).cons_cons k

theorem notMem_ofFields {fields : List (String × Option Json)} {k : String} (h : k ∉ fields.map Prod.fst) :
    (fields.filterMap fun kv => kv.2.map fun v => (kv.1, v)).find? (fun kv => kv.1 == k) = none := by
  refine List.find?_eq_none.mpr fun kv hkv => ?_
  obtain ⟨kv', hkv', he⟩ := List.mem_filterMap.mp hkv
  obtain ⟨v, -, rfl⟩ := Option.map_eq_some_iff.mp he
  have hne : kv'.1 ≠ k := fun hk => h (hk ▸ List.mem_map_of_mem hkv')
  simpa using hne

/-- A field is read from the text of an object literal as what was written there. -/
theorem field_shown_ofFields {fields : List (String × Option Json)} (hnodup : (fields.map Prod.fst).Nodup)
    {k : String} {v : Option Json} (h : (k, v) ∈ fields) :
    field (some (shown (ofFields fields))) k = v.map shown := by
  have hshown : shown (ofFields fields) =
      .obj ((fields.filterMap fun kv => kv.2.map fun v => (kv.1, v)).map fun kv => (kv.1, shown kv.2)) := by
    rw [ofFields, shown, shownMembers_eq (by simpa using nodup_ofFields hnodup), List.nil_append]
  rw [hshown]
  simp only [field, prop, Except.toOption, Option.join_some, List.find?_map, Function.comp_def]
  clear hshown
  induction fields with
  | nil => cases h
  | cons kv fields ih =>
      obtain ⟨hnew, hrest⟩ := List.nodup_cons.mp hnodup
      rcases List.mem_cons.mp h with rfl | hmem
      · cases v with
        | none => simp [notMem_ofFields hnew]
        | some v => simp
      · have hne : kv.1 ≠ k := fun he => hnew (he ▸ List.mem_map_of_mem hmem)
        obtain ⟨k', _ | v'⟩ := kv
        · simpa using ih hrest hmem
        · simpa [hne] using ih hrest hmem

end Js.Json
