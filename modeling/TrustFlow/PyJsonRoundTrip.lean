import Mathlib.Data.List.Forall2
import Mathlib.Data.Nat.Digits.Lemmas
import TrustFlow.PyJson

/-! # JSON round trips

What `json.dumps` writes is read back by `json.loads`.  A pair of surrogates that a text holds is
written as the escapes of the character that the pair stands for, and is read back as that
character.

* `scanString_write`, `scanNumber_write` — the leaves;
* `scanEnclosed_enclose` — what lists and dictionaries have in common;
* `loads_write`, `loads_dumps` — a JSON value is read back with the pairs in its texts joined;
* `ascii_write` — the text is ASCII. -/

namespace TrustFlow.PyJson

open PyValue (nested_induction allItems_iff allAttrs_iff)

variable {γ : Type}

/-! ## Texts -/

section Strings

variable {c d : CodePoint} {t rest : PyStr}

theorem shortEscapes_read {e : CodePoint × CodePoint}
    (h : shortEscapes.find? (fun e => e.1 = c) = some e) :
    e.1 = c ∧ e.2 ≠ ch 'u' ∧
      List.find? (fun x => x.2 = e.2) (shortEscapes ++ [(codePoint 47, codePoint 47)]) =
        some e := by
  have hall : (shortEscapes.all fun e => e.2 ≠ ch 'u' ∧
      List.find? (fun x => x.2 = e.2) (shortEscapes ++ [(codePoint 47, codePoint 47)]) =
        some e) = true := by
    decide
  have hread := List.all_eq_true.mp hall e (List.mem_of_find?_eq_some h)
  exact ⟨by simpa using List.find?_some h, of_decide_eq_true hread⟩

theorem hexVal?_hexDigit (n : Nat) : hexVal? (hexDigit n) = some (n % 16) := by
  have hall : ∀ k < 16, hexVal? (hexDigit k) = some k := by decide
  have hmod : hexDigit n = hexDigit (n % 16) := by simp only [hexDigit, Nat.mod_mod]
  rw [hmod, hall _ (Nat.mod_lt n (by decide))]

theorem readHex4_unicodeEscape {n : Nat} (h : n < 0x10000) (rest : PyStr) :
    readHex4 (hexDigit (n / 4096) :: hexDigit (n / 256) :: hexDigit (n / 16) :: hexDigit n ::
      rest) = some (codePoint n, rest) := by
  have hsum : 4096 * (n / 4096 % 16) + 256 * (n / 256 % 16) + 16 * (n / 16 % 16) + n % 16 = n := by
    omega
  simp only [readHex4, hexVal?_hexDigit, Option.bind_eq_bind, Option.bind_some, hsum]
  rfl

/-- How a code point is written, and what is known of it then. -/
theorem escapeChar_cases (c : CodePoint) :
    (∃ e, shortEscapes.find? (fun e => e.1 = c) = some e ∧ escapeChar c = [backslash, e.2]) ∨
      (c ≠ quote ∧ c ≠ backslash ∧ 0x20 ≤ c.val ∧ c.val ≤ 0x7E ∧ escapeChar c = [c]) ∨
      (c.val < 0x10000 ∧ escapeChar c = unicodeEscape c.val) ∨
      (0x10000 ≤ c.val ∧ escapeChar c = unicodeEscape (highOf c) ++ unicodeEscape (lowOf c)) := by
  unfold escapeChar
  cases hshort : shortEscapes.find? fun e => e.1 = c with
  | some e => exact .inl ⟨e, rfl, rfl⟩
  | none =>
    have hnone := List.find?_eq_none.mp hshort
    have hquote : c ≠ quote := by
      rintro rfl
      exact hnone (quote, quote) (by decide) (by decide)
    have hbackslash : c ≠ backslash := by
      rintro rfl
      exact hnone (backslash, backslash) (by decide) (by decide)
    right
    by_cases hplain : 0x20 ≤ c.val ∧ c.val ≤ 0x7E
    · exact .inl ⟨hquote, hbackslash, hplain.1, hplain.2, if_pos hplain⟩
    · right
      by_cases hbmp : c.val < 0x10000
      · exact .inl ⟨hbmp, by simp only [if_neg hplain, if_pos hbmp]⟩
      · exact .inr ⟨by omega, by simp only [if_neg hplain, if_neg hbmp]⟩

theorem readLow_unicodeEscape {n : Nat} (h : n < 0x10000) (t : PyStr) :
    readLow (unicodeEscape n ++ t) =
      if (codePoint n).isLow then some (codePoint n, t) else none := by
  simp only [readLow, unicodeEscape, List.cons_append, List.nil_append, and_self, if_true,
    readHex4_unicodeEscape h]

theorem shortEscapes_val {e : CodePoint × CodePoint}
    (h : shortEscapes.find? (fun e => e.1 = c) = some e) : c.val < 0x80 := by
  have hall : (shortEscapes.all fun e => e.1.val < 0x80) = true := by decide
  rw [← (shortEscapes_read h).1]
  exact of_decide_eq_true (List.all_eq_true.mp hall e (List.mem_of_find?_eq_some h))

/-- The first escape of a code point outside of the BMP is a high surrogate, the second a low
    one. -/
theorem highOf_bounds (c : CodePoint) : 0xD800 ≤ highOf c ∧ highOf c < 0xDC00 := by
  have hlt := c.isLt
  simp only [highOf]
  omega

theorem lowOf_bounds (c : CodePoint) : 0xDC00 ≤ lowOf c ∧ lowOf c ≤ 0xDFFF := by
  simp only [lowOf]
  omega

/-- Of all that is written, only a low surrogate looks like one. -/
theorem readLow_escapeChar (c : CodePoint) (t : PyStr) :
    readLow (escapeChar c ++ t) = if c.isLow then some (c, t) else none := by
  rcases escapeChar_cases c with ⟨e, he, hwrite⟩ | ⟨_, hbackslash, _, hle, hwrite⟩ |
    ⟨hbmp, hwrite⟩ | ⟨hastral, hwrite⟩
  · have hval := shortEscapes_val he
    rw [hwrite, isLow_eq_false (.inl (by omega))]
    simp [readLow, (shortEscapes_read he).2.1]
  · rw [hwrite, isLow_eq_false (.inl (by omega))]
    cases t with
    | nil => rfl
    | cons d t => simp [readLow, hbackslash]
  · rw [hwrite, readLow_unicodeEscape hbmp, codePoint_self]
  · have hhigh := (highOf_bounds c).2
    have hnot : (codePoint (highOf c)).isLow = false :=
      isLow_eq_false (.inl (by rw [codePoint_val (by omega)]; exact hhigh))
    rw [hwrite, List.append_assoc, readLow_unicodeEscape (by omega), hnot,
      isLow_eq_false (.inr (by omega)), if_neg Bool.false_ne_true, if_neg Bool.false_ne_true]

theorem readEscape_unicodeEscape {n : Nat} (h : n < 0x10000) (t : PyStr) :
    readEscape ((unicodeEscape n).tail ++ t) =
      some (if (codePoint n).isHigh then joinNext (codePoint n) t else (codePoint n, t)) := by
  simp only [readEscape, unicodeEscape, List.tail_cons, List.cons_append, List.nil_append, if_true,
    readHex4_unicodeEscape h]

theorem joinPair_astral (h : 0x10000 ≤ c.val) :
    joinPair (codePoint (highOf c)) (codePoint (lowOf c)) = c := by
  have hlt := c.isLt
  have hhigh := highOf_bounds c
  have hlow := lowOf_bounds c
  apply Fin.ext
  simp only [joinPair, codePoint_val (show highOf c < 0x110000 by omega),
    codePoint_val (show lowOf c < 0x110000 by omega)]
  simp only [highOf, lowOf]
  omega

theorem scanString_unicodeEscape {n : Nat} {r : CodePoint × PyStr}
    (h : readEscape ((unicodeEscape n).tail ++ t) = some r) (fuel : Nat) :
    scanString (fuel + 1) (unicodeEscape n ++ t) =
      (scanString fuel r.2).map (Prod.map (r.1 :: ·) id) := by
  have hne : backslash ≠ quote := by decide
  simp only [unicodeEscape, List.cons_append, List.tail_cons] at h
  simp only [unicodeEscape, List.cons_append, scanString, if_neg hne, if_true, h]

/-- A code point is read back, unless it is a high surrogate before a low one. -/
theorem scanString_escapeChar (fuel : Nat) (h : c.isHigh = true → readLow t = none) :
    scanString (fuel + 1) (escapeChar c ++ t) =
      (scanString fuel t).map (Prod.map (c :: ·) id) := by
  rcases escapeChar_cases c with ⟨e, he, hwrite⟩ | ⟨hquote, hbackslash, hge, _, hwrite⟩ |
    ⟨hbmp, hwrite⟩ | ⟨hastral, hwrite⟩
  · obtain ⟨rfl, hu, hread⟩ := shortEscapes_read he
    have hne : backslash ≠ quote := by decide
    simp only [hwrite, List.cons_append, List.nil_append, scanString, if_neg hne, if_true,
      readEscape, if_neg hu, hread, Option.map_some]
  · have hcontrol : ¬ c.val < 0x20 := by omega
    simp only [hwrite, List.cons_append, List.nil_append, scanString, if_neg hquote,
      if_neg hbackslash, if_neg hcontrol]
  · have hread := readEscape_unicodeEscape hbmp t
    rw [codePoint_self] at hread
    rw [hwrite, scanString_unicodeEscape hread]
    by_cases hhigh : c.isHigh = true
    · simp only [hhigh, if_true, joinNext, h hhigh]
    · simp only [if_neg hhigh]
  · -- Outside of the BMP two escapes were written, which are read as one code point.
    have hhigh := highOf_bounds c
    have hlow := lowOf_bounds c
    have hisHigh : (codePoint (highOf c)).isHigh = true := by
      simp only [CodePoint.isHigh, codePoint_val (show highOf c < 0x110000 by omega),
        Bool.and_eq_true, decide_eq_true_eq]
      omega
    have hisLow : (codePoint (lowOf c)).isLow = true := by
      simp only [CodePoint.isLow, codePoint_val (show lowOf c < 0x110000 by omega),
        Bool.and_eq_true, decide_eq_true_eq]
      omega
    have hread := readEscape_unicodeEscape (show highOf c < 0x10000 by omega)
      (unicodeEscape (lowOf c) ++ t)
    rw [if_pos hisHigh, joinNext, readLow_unicodeEscape (by omega), if_pos hisLow] at hread
    rw [hwrite, List.append_assoc, scanString_unicodeEscape hread]
    simp only [joinPair_astral hastral]

theorem escapeChar_surrogate (h : 0xD800 ≤ c.val) (h' : c.val ≤ 0xDFFF) :
    escapeChar c = unicodeEscape c.val := by
  -- Only the third way of writing is left for a surrogate.
  rcases escapeChar_cases c with ⟨e, he, _⟩ | ⟨_, _, _, hle, _⟩ | ⟨_, hwrite⟩ | ⟨hastral, _⟩
  · have hval := shortEscapes_val he
    omega
  · omega
  · exact hwrite
  · omega

theorem scanString_pair (fuel : Nat) (hc : c.isHigh = true) (hd : d.isLow = true) :
    scanString (fuel + 1) (escapeChar c ++ (escapeChar d ++ t)) =
      (scanString fuel t).map (Prod.map (joinPair c d :: ·) id) := by
  have hrange : 0xD800 ≤ c.val ∧ c.val ≤ 0xDBFF := by
    simpa [CodePoint.isHigh] using hc
  have hread := readEscape_unicodeEscape (show c.val < 0x10000 by omega) (escapeChar d ++ t)
  rw [codePoint_self, if_pos hc, joinNext, readLow_escapeChar, if_pos hd] at hread
  rw [escapeChar_surrogate hrange.1 (by omega), scanString_unicodeEscape hread]

theorem escapeChar_joinPair (hc : c.isHigh = true) (hd : d.isLow = true) :
    escapeChar (joinPair c d) = escapeChar c ++ escapeChar d := by
  have hhigh : 0xD800 ≤ c.val ∧ c.val ≤ 0xDBFF := by
    simpa [CodePoint.isHigh] using hc
  have hlow : 0xDC00 ≤ d.val ∧ d.val ≤ 0xDFFF := by
    simpa [CodePoint.isLow] using hd
  have hval : (joinPair c d).val = 0x10000 + (c.val - 0xD800) * 0x400 + (d.val - 0xDC00) := by
    simp only [joinPair]
    omega
  rw [escapeChar_surrogate hhigh.1 (by omega), escapeChar_surrogate (by omega) hlow.2]
  rcases escapeChar_cases (joinPair c d) with ⟨e, he, _⟩ | ⟨_, _, _, hle, _⟩ | ⟨hbmp, _⟩ |
    ⟨_, hwrite⟩
  · have hshort := shortEscapes_val he
    omega
  · omega
  · omega
  · have hhighOf : highOf (joinPair c d) = c.val := by
      rw [highOf, hval]
      omega
    have hlowOf : lowOf (joinPair c d) = d.val := by
      rw [lowOf, hval]
      omega
    rw [hwrite, hhighOf, hlowOf]

theorem length_le_escape (s : PyStr) : s.length ≤ (s.flatMap escapeChar).length := by
  induction s with
  | nil => simp
  | cons c s ih =>
    have hpos : 0 < (escapeChar c).length := by
      rcases escapeChar_cases c with ⟨e, _, hwrite⟩ | ⟨_, _, _, _, hwrite⟩ | ⟨_, hwrite⟩ |
        ⟨_, hwrite⟩ <;> simp [hwrite, unicodeEscape]
    simp only [List.flatMap_cons, List.length_append, List.length_cons]
    omega

theorem scanString_write (s : PyStr) (fuel : Nat) (hfuel : s.length < fuel) (rest : PyStr) :
    scanString fuel (s.flatMap escapeChar ++ quote :: rest) = .ok (joinPairs s, rest) := by
  -- The recursion of `joinPairs` looks one code point ahead, as the scanner does.
  induction s using joinPairs.induct generalizing fuel with
  | case1 =>
    obtain ⟨fuel, rfl⟩ := Nat.exists_eq_add_of_lt hfuel
    simp [scanString, joinPairs]
  | case2 c =>
    obtain ⟨fuel, rfl⟩ : ∃ n, fuel = n + 2 := ⟨fuel - 2, by simp at hfuel; omega⟩
    have hread := scanString_escapeChar (t := quote :: rest) (fuel + 1) (c := c) fun _ => by
      have hne : quote ≠ backslash := by decide
      cases rest <;> simp [readLow, hne]
    simp only [List.flatMap_cons, List.flatMap_nil, List.append_nil, hread]
    simp [scanString, joinPairs, Except.map]
  | case3 c d s hpair ih =>
    obtain ⟨fuel, rfl⟩ : ∃ n, fuel = n + 1 := ⟨fuel - 1, by simp at hfuel; omega⟩
    obtain ⟨hc, hd⟩ := Bool.and_eq_true_iff.mp hpair
    have hlen : s.length < fuel := by
      simp only [List.length_cons] at hfuel
      omega
    simp only [List.flatMap_cons, List.append_assoc, scanString_pair fuel hc hd, ih fuel hlen]
    rw [joinPairs, if_pos hpair]
    rfl
  | case4 c d s hpair ih =>
    obtain ⟨fuel, rfl⟩ : ∃ n, fuel = n + 1 := ⟨fuel - 1, by simp at hfuel; omega⟩
    have hlow : c.isHigh = true →
        readLow ((d :: s).flatMap escapeChar ++ quote :: rest) = none := by
      intro hc
      have hd : d.isLow = false := by
        cases hd : d.isLow with
        | false => rfl
        | true => exact absurd (by rw [hc, hd]; rfl) hpair
      rw [List.flatMap_cons, List.append_assoc, readLow_escapeChar, hd]
      rfl
    have hlen : (d :: s).length < fuel := by
      simp only [List.length_cons] at hfuel ⊢
      omega
    rw [List.flatMap_cons, List.append_assoc, scanString_escapeChar fuel hlow, ih fuel hlen,
      joinPairs, if_neg hpair]
    rfl

end Strings

/-! ## Numbers -/

/-- What may follow a value. -/
def Delimits (rest : PyStr) : Prop :=
  ∀ c ∈ rest.head?, isWs c = true ∨ c = comma ∨ c = codePoint 93 ∨ c = codePoint 125

section Numbers

variable {c d : CodePoint} {t rest : PyStr}

/-- A delimiter does not continue a number. -/
theorem Delimits.head (h : Delimits (c :: t)) :
    isDigit c = false ∧ c.val ≠ 46 ∧ c.val ≠ 69 ∧ c.val ≠ 101 := by
  have hval : c.val = 32 ∨ c.val = 9 ∨ c.val = 10 ∨ c.val = 13 ∨ c.val = 44 ∨ c.val = 93 ∨
      c.val = 125 := by
    rcases h c rfl with hws | rfl | rfl | rfl
    · simp only [isWs, Bool.or_eq_true, decide_eq_true_eq] at hws
      omega
    · exact .inr (.inr (.inr (.inr (.inl rfl))))
    · exact .inr (.inr (.inr (.inr (.inr (.inl rfl)))))
    · exact .inr (.inr (.inr (.inr (.inr (.inr rfl)))))
  refine ⟨?_, by omega, by omega, by omega⟩
  simp only [isDigit, Bool.and_eq_false_iff, decide_eq_false_iff_not]
  omega

theorem Delimits.takeWhile (h : Delimits rest) :
    rest.takeWhile isDigit = [] ∧ rest.dropWhile isDigit = rest := by
  cases rest with
  | nil => exact ⟨rfl, rfl⟩
  | cons c t => simp [h.head.1]

theorem Delimits.scanFraction (h : Delimits rest) : scanFraction rest = ([], rest) := by
  cases rest with
  | nil => rfl
  | cons c t => simp [PyJson.scanFraction, h.head.2.1]

theorem Delimits.scanExponent (h : Delimits rest) : scanExponent rest = ([], rest) := by
  cases rest with
  | nil => rfl
  | cons c t => simp [PyJson.scanExponent, h.head.2.2.1, h.head.2.2.2]

theorem digitsVal_append (digits : PyStr) (d : CodePoint) :
    digitsVal (digits ++ [d]) = 10 * digitsVal digits + (d.val - 48) := by
  simp [digitsVal, List.foldl_append]

theorem digit_val {d : Nat} (h : d < 10) : (codePoint (48 + d)).val = 48 + d :=
  codePoint_val (by omega)

theorem digitsVal_digits {l : List Nat} (h : ∀ d ∈ l, d < 10) :
    digitsVal (l.reverse.map fun d => codePoint (48 + d)) = Nat.ofDigits 10 l := by
  induction l with
  | nil => rfl
  | cons d l ih =>
    obtain ⟨hd, hl⟩ := List.forall_mem_cons.mp h
    rw [List.reverse_cons, List.map_append, List.map_singleton, digitsVal_append, ih hl,
      digit_val hd, Nat.ofDigits_cons]
    omega

theorem isDigit_digit {d : Nat} (h : d < 10) : isDigit (codePoint (48 + d)) = true := by
  simp only [isDigit, digit_val h, Bool.and_eq_true, decide_eq_true_eq]
  omega

/-- A number is written as a zero, or as digits that do not start with one. -/
theorem writeNat_spec (n : Nat) : ∃ c digits, writeNat n = c :: digits ∧ isDigit c = true ∧
    digits.all isDigit = true ∧ (c.val = 48 → digits = []) ∧ digitsVal (c :: digits) = n := by
  rw [writeNat]
  split
  next hzero =>
    subst hzero
    exact ⟨_, [], rfl, by decide, rfl, fun _ => rfl, rfl⟩
  next hne =>
    have hlt : ∀ d ∈ Nat.digits 10 n, d < 10 := fun d hd => Nat.digits_lt_base (by decide) hd
    have hnil : Nat.digits 10 n ≠ [] := Nat.digits_ne_nil_iff_ne_zero.mpr hne
    have hlast : (Nat.digits 10 n).getLast hnil ≠ 0 := Nat.getLast_digit_ne_zero 10 hne
    have hval := digitsVal_digits hlt
    rw [Nat.ofDigits_digits] at hval
    obtain ⟨d, l, hl⟩ := List.exists_cons_of_ne_nil (mt List.reverse_eq_nil_iff.mp hnil)
    have hhead : d = (Nat.digits 10 n).getLast hnil := by
      rw [← List.head_reverse (by simpa using hnil)]
      simp [hl]
    have hmem : ∀ k ∈ d :: l, k < 10 := fun k hk => hlt k (List.mem_reverse.mp (hl ▸ hk))
    obtain ⟨hd, hrest⟩ := List.forall_mem_cons.mp hmem
    rw [hl] at hval ⊢
    refine ⟨_, _, rfl, isDigit_digit hd, ?_, fun hzero => ?_, hval⟩
    · simp only [List.all_map, List.all_eq_true]
      exact fun k hk => isDigit_digit (hrest k hk)
    · rw [digit_val hd] at hzero
      exact absurd (hhead.symm.trans (by omega)) hlast

theorem scanDigits_write (n : Nat) (h : Delimits rest) :
    ∃ digits, scanDigits (writeNat n ++ rest) = some (digits, rest) ∧ digitsVal digits = n := by
  obtain ⟨c, digits, hwrite, hc, hdigits, hzero, hval⟩ := writeNat_spec n
  refine ⟨c :: digits, ?_, hval⟩
  rw [hwrite, List.cons_append, scanDigits]
  split
  next hc => rw [hzero hc, List.nil_append]
  next =>
    have hall := List.all_eq_true.mp hdigits
    rw [List.takeWhile_append_of_pos hall, List.dropWhile_append_of_pos hall,
      h.takeWhile.1, h.takeWhile.2, List.append_nil]

theorem scanNumber_write (n : Int) (h : Delimits rest) :
    scanNumber (writeInt n ++ rest) = .ok (.int n, rest) := by
  obtain ⟨digits, hscan, hval⟩ := scanDigits_write n.natAbs h
  by_cases hn : n < 0
  · rw [writeInt, if_pos hn, scanNumber, List.cons_append]
    simp only [splitMinus, if_true, hscan, h.scanFraction, h.scanExponent, and_self, hval]
    rw [Int.ofNat_natAbs_of_nonpos (by omega), Int.neg_neg]
  · obtain ⟨c, ds, hwrite, hc, _⟩ := writeNat_spec n.natAbs
    have hne : c ≠ minus := by
      rintro rfl
      exact absurd hc (by decide)
    have hsplit : splitMinus (writeNat n.natAbs ++ rest) = (false, writeNat n.natAbs ++ rest) := by
      rw [hwrite, List.cons_append, splitMinus, if_neg hne]
    rw [writeInt, if_neg hn, scanNumber]
    simp only [hsplit, hscan, h.scanFraction, h.scanExponent, and_self, if_true, hval]
    rw [if_neg Bool.false_ne_true, Int.natAbs_of_nonneg (by omega)]

theorem writeInt_head (n : Int) :
    ∃ c t, writeInt n = c :: t ∧ 45 ≤ c.val ∧ c.val ≤ 57 := by
  rw [writeInt]
  split
  · exact ⟨minus, _, rfl, by decide, by decide⟩
  · obtain ⟨c, digits, hwrite, hc, _⟩ := writeNat_spec n.natAbs
    have hrange : 48 ≤ c.val ∧ c.val ≤ 57 := by
      simpa [isDigit] using hc
    exact ⟨c, digits, hwrite, by omega, hrange.2⟩

/-- A constant does not start like a number. -/
def wordLike : PyStr → Bool
  | c :: d :: _ => !isDigit c && (c ≠ minus || !isDigit d)
  | _ => false

theorem scanConstant_eq_none (h : ∀ lit, lit <+: t → wordLike lit = false) :
    scanConstant (γ := γ) t = none := by
  have hwords : ((constants (γ := γ)).all fun lit => wordLike lit.1) = true := rfl
  rw [scanConstant, Option.map_eq_none_iff, List.find?_eq_none]
  intro lit hlit htext
  have hword := List.all_eq_true.mp hwords lit hlit
  rw [h lit.1 (List.isPrefixOf_iff_prefix.mp htext)] at hword
  cases hword

theorem scanConstant_writeInt (n : Int) (rest : PyStr) :
    scanConstant (γ := γ) (writeInt n ++ rest) = none := by
  obtain ⟨c, digits, hwrite, hc, _⟩ := writeNat_spec n.natAbs
  apply scanConstant_eq_none
  intro lit hlit
  match lit, hlit with
  | [], _ => rfl
  | [_], _ => rfl
  | a :: b :: lit, hlit =>
    rw [writeInt] at hlit
    split at hlit
    · rw [hwrite, List.cons_append, List.cons_append] at hlit
      obtain ⟨rfl, hsecond⟩ := List.cons_prefix_cons.mp hlit
      obtain ⟨rfl, _⟩ := List.cons_prefix_cons.mp hsecond
      simp [wordLike, hc]
    · rw [hwrite, List.cons_append] at hlit
      obtain ⟨rfl, _⟩ := List.cons_prefix_cons.mp hlit
      simp [wordLike, hc]

end Numbers

/-! ## Lists and dictionaries -/

/-- What a value starts with. -/
def Starts (text : PyStr) : Prop :=
  ∃ c t, text = c :: t ∧ isWs c = false ∧ c ≠ codePoint 93 ∧ c ≠ codePoint 125 ∧ c.val < 0x80

section Parts

variable {α : Type} {part : PyStr → Except PyError (Scanned α)} {close : CodePoint} {lay : Layout}
  {level : Nat} {text rest : PyStr} {texts : List PyStr} {x : α} {xs : List α}

/-- The part is read from its text, whatever follows. -/
structure Reads (part : PyStr → Except PyError (Scanned α)) (text : PyStr) (x : α) : Prop where
  starts : Starts text
  reads : ∀ rest, Delimits rest → part (text ++ rest) = .ok (x, rest)

theorem skipWs_append {ws : PyStr} (h : ws.all isWs = true) (t : PyStr) :
    skipWs (ws ++ t) = skipWs t :=
  List.dropWhile_append_of_pos (List.all_eq_true.mp h)

theorem skipWs_cons {c : CodePoint} (h : isWs c = false) (t : PyStr) :
    skipWs (c :: t) = c :: t := by
  rw [skipWs, List.dropWhile_cons, h]
  rfl

theorem Starts.skipWs (h : Starts text) (t : PyStr) : skipWs (text ++ t) = text ++ t := by
  obtain ⟨c, t', rfl, hws, _⟩ := h
  exact skipWs_cons hws _

/-- The end of a list or a dictionary. -/
theorem delimits_close (ws : PyStr) (hws : ws.all isWs = true)
    (hclose : close = codePoint 93 ∨ close = codePoint 125) (rest : PyStr) :
    Delimits (ws ++ close :: rest) ∧ skipWs (ws ++ close :: rest) = close :: rest := by
  have hnot : isWs close = false := by
    rcases hclose with rfl | rfl <;> rfl
  refine ⟨?_, by rw [skipWs_append hws, skipWs_cons hnot]⟩
  intro c hc
  cases ws with
  | nil =>
    obtain rfl := Option.some.inj hc
    exact .inr (.inr hclose)
  | cons d ws =>
    obtain rfl := Option.some.inj hc
    exact .inl (List.all_eq_true.mp hws _ List.mem_cons_self)

theorem scanParts_write (lay : Layout) (level : Nat)
    (hclose : close = codePoint 93 ∨ close = codePoint 125)
    (h : List.Forall₂ (Reads part) (text :: texts) (x :: xs)) (fuel : Nat)
    (hfuel : texts.length < fuel) (rest : PyStr) :
    scanParts part close fuel (text ++ (texts.flatMap (fun text =>
      comma :: (lay.afterComma (level + 1) ++ text)) ++ (lay.newline level ++ close :: rest))) =
        .ok (x :: xs, rest) := by
  have hcomma : comma ≠ close := by
    rcases hclose with rfl | rfl <;> decide
  -- On the parts behind the first one; each round reads one part and the comma behind it.
  induction texts generalizing text x xs fuel with
  | nil =>
    obtain ⟨hpart, hnil⟩ := List.forall₂_cons.mp h
    cases hnil
    obtain ⟨fuel, rfl⟩ := Nat.exists_eq_add_of_lt hfuel
    obtain ⟨hdelimits, hskip⟩ := delimits_close _ (lay.newline_ws level) hclose rest
    simp only [List.length_nil, Nat.zero_add, List.flatMap_nil, List.nil_append, scanParts,
      hpart.reads _ hdelimits, ok_bind, hskip, if_true]
  | cons text' texts ih =>
    obtain ⟨hpart, hparts⟩ := List.forall₂_cons.mp h
    obtain ⟨x', xs, rfl⟩ : ∃ x' xs', xs = x' :: xs' := by
      cases hparts with
      | cons => exact ⟨_, _, rfl⟩
    obtain ⟨fuel, rfl⟩ : ∃ n, fuel = n + 1 := ⟨fuel - 1, by simp at hfuel; omega⟩
    have hlen : texts.length < fuel := by
      simp only [List.length_cons] at hfuel
      omega
    have hnext := ih hparts fuel hlen
    have hstarts := (List.forall₂_cons.mp hparts).1.starts
    have hdelimits : ∀ t, Delimits (comma :: t) := by
      intro t c hc
      obtain rfl := Option.some.inj hc
      exact .inr (.inl rfl)
    have hnot : isWs comma = false := rfl
    simp only [List.flatMap_cons, List.cons_append, List.append_assoc, scanParts,
      hpart.reads _ (hdelimits _), ok_bind, skipWs_cons hnot, if_neg hcomma, if_true,
      skipWs_append (lay.afterComma_ws _), hstarts.skipWs, hnext]
    rfl

theorem length_le_flatMap (texts : List PyStr) (ws : PyStr) :
    texts.length ≤ (texts.flatMap fun text => comma :: (ws ++ text)).length := by
  induction texts with
  | nil => simp
  | cons text texts ih =>
    simp only [List.flatMap_cons, List.length_append, List.length_cons]
    omega

theorem scanEnclosed_enclose (lay : Layout) (level : Nat) (open' : CodePoint)
    (hclose : close = codePoint 93 ∨ close = codePoint 125)
    (h : List.Forall₂ (Reads part) texts xs) (rest : PyStr) :
    ∃ body, enclose lay level open' close texts = open' :: body ∧
      scanEnclosed part close (body ++ rest) = .ok (xs, rest) := by
  cases h with
  | nil =>
    refine ⟨[close], rfl, ?_⟩
    have hskip := (delimits_close [] rfl hclose rest).2
    simp only [List.nil_append] at hskip
    simp only [scanEnclosed, List.cons_append, List.nil_append, hskip, if_true]
  | @cons text x texts xs hpart hparts =>
    refine ⟨_, rfl, ?_⟩
    -- A part does not start like an empty list or object ends.
    obtain ⟨c, t, htext, hws, hbracket, hbrace, _⟩ := id hpart.starts
    have hne : c ≠ close := by
      rcases hclose with rfl | rfl
      · exact hbracket
      · exact hbrace
    have hfuel := length_le_flatMap texts (lay.afterComma (level + 1))
    have hparts' := scanParts_write lay level hclose (.cons hpart hparts)
      ((lay.newline (level + 1) ++ (text ++ (texts.flatMap (fun text =>
        comma :: (lay.afterComma (level + 1) ++ text)) ++
          (lay.newline level ++ close :: rest)))).length)
      (by simp only [List.length_append, List.length_cons]; omega) rest
    simp only [List.append_assoc, List.cons_append, List.nil_append, scanEnclosed,
      skipWs_append (lay.newline_ws _)]
    simp only [htext, List.cons_append, skipWs_cons hws, if_neg hne] at hparts' ⊢
    exact hparts'

/-- A part is shorter than what it is enclosed in. -/
theorem length_lt_enclose (lay : Layout) (level : Nat) (open' close : CodePoint)
    (h : text ∈ texts) :
    text.length < (enclose lay level open' close texts).length := by
  cases texts with
  | nil => cases h
  | cons first texts =>
    simp only [enclose, List.length_cons, List.length_append]
    rcases List.mem_cons.mp h with rfl | hmem
    · omega
    · obtain ⟨before, after, rfl⟩ := List.append_of_mem hmem
      simp only [List.flatMap_append, List.flatMap_cons, List.length_append, List.length_cons]
      omega

theorem scanMember_write {value : PyStr → Except PyError (Scanned α)} {key : PyStr}
    (hkey : Joined key) (h : Reads value text x) :
    Reads (scanMember value) (writeStr key ++ colon :: (lay.afterColon ++ text)) (key, x) where
  starts := ⟨quote, _, rfl, rfl, by decide, by decide, by decide⟩
  reads rest hrest := by
    have hnot : isWs colon = false := rfl
    have hlen : key.length < (key.flatMap escapeChar ++ quote :: colon ::
        (lay.afterColon ++ (text ++ rest))).length := by
      have hle := length_le_escape key
      simp only [List.length_append, List.length_cons]
      omega
    have hscan := scanString_write key _ hlen (colon :: (lay.afterColon ++ (text ++ rest)))
    simp only [scanMember, writeStr, List.cons_append, List.append_assoc, List.nil_append, expect,
      if_true, ok_bind, hscan, skipWs_cons hnot, skipWs_append lay.afterColon_ws, h.starts.skipWs,
      h.reads rest hrest, joinPairs_of_joined hkey]
    rfl

end Parts

/-! ## Values -/

/-- JSON has no instances of classes, one item for each key, and here no floats. -/
def JsonNode : JsonValue γ → Prop
  | .scalar (.float _) => False
  | .dict items => (Dict.keys items).Nodup ∧ ∀ key ∈ Dict.keys items, Joined key
  | .object _ _ => False
  | _ => True

def IsJson (v : JsonValue γ) : Prop := v.All JsonNode

mutual

/-- The value with the pairs of surrogates in its texts joined. -/
def joinTexts : JsonValue γ → JsonValue γ
  | .str s => .str (joinPairs s)
  | .list items => .list (joinItems items)
  | .dict items => .dict (joinMembers items)
  | .object cls attrs => .object cls (joinMembers attrs)
  | v => v

def joinItems : List (JsonValue γ) → List (JsonValue γ)
  | [] => []
  | v :: items => joinTexts v :: joinItems items

def joinMembers : List (PyStr × JsonValue γ) → List (PyStr × JsonValue γ)
  | [] => []
  | (key, v) :: items => (key, joinTexts v) :: joinMembers items

end

/-- The texts of a value have no pair of surrogates. -/
def JoinedNode {κ : Type} : PyValue γ κ → Prop
  | .str s => Joined s
  | _ => True

section Values

variable {lay : Layout} {level : Nat}

theorem writeItems_eq (items : List (JsonValue γ)) :
    writeItems lay level items = items.map (write lay level) := by
  induction items with
  | nil => rfl
  | cons v items ih => rw [writeItems, ih, List.map_cons]

theorem writeMembers_eq (items : List (PyStr × JsonValue γ)) :
    writeMembers lay level items = items.map fun kv =>
      writeStr kv.1 ++ colon :: (lay.afterColon ++ write lay level kv.2) := by
  induction items with
  | nil => rfl
  | cons kv items ih => rw [writeMembers, ih, List.map_cons]

theorem joinItems_eq (items : List (JsonValue γ)) : joinItems items = items.map joinTexts := by
  induction items with
  | nil => rfl
  | cons v items ih => rw [joinItems, ih, List.map_cons]

theorem joinMembers_eq (items : List (PyStr × JsonValue γ)) :
    joinMembers items = items.map fun kv => (kv.1, joinTexts kv.2) := by
  induction items with
  | nil => rfl
  | cons kv items ih => rw [joinMembers, ih, List.map_cons]

theorem keys_joinMembers (items : List (PyStr × JsonValue γ)) :
    Dict.keys (joinMembers items) = Dict.keys items := by
  rw [joinMembers_eq, Dict.keys, Dict.keys, List.map_map]
  rfl

theorem joinMembers_of_joined {items : List (PyStr × JsonValue γ)}
    (h : ∀ kv ∈ items, joinTexts kv.2 = kv.2) : joinMembers items = items := by
  rw [joinMembers_eq]
  refine Eq.trans (List.map_congr_left fun kv hkv => ?_) (List.map_id' items)
  rw [h kv hkv]

theorem joinTexts_of_joined (v : JsonValue γ) (h : v.All JoinedNode) : joinTexts v = v := by
  induction v using nested_induction with
  | none | scalar => rfl
  | str s => rw [joinTexts, joinPairs_of_joined h]
  | list items ih =>
    have hitems := allItems_iff.mp h.2
    rw [joinTexts, joinItems_eq]
    exact congrArg _ ((List.map_congr_left fun v hv => ih v hv (hitems v hv)).trans
      (List.map_id' items))
  | dict items ih | object cls items ih =>
    have hitems := allAttrs_iff.mp h.2
    rw [joinTexts, joinMembers_of_joined fun kv hkv => ih kv hkv (hitems kv hkv)]

theorem joinTexts_joined (v : JsonValue γ) : (joinTexts v).All JoinedNode := by
  induction v using nested_induction with
  | none | scalar => exact trivial
  | str s => exact joined_joinPairs s
  | list items ih =>
    refine ⟨trivial, allItems_iff.mpr ?_⟩
    rw [joinItems_eq]
    exact List.forall_mem_map.mpr ih
  | dict items ih | object cls items ih =>
    refine ⟨trivial, allAttrs_iff.mpr ?_⟩
    rw [joinMembers_eq]
    exact List.forall_mem_map.mpr ih

@[simp] theorem joinTexts_joinTexts (v : JsonValue γ) :
    joinTexts (joinTexts v) = joinTexts v :=
  joinTexts_of_joined _ (joinTexts_joined v)

@[simp] theorem isNone_joinTexts (v : JsonValue γ) : (joinTexts v).isNone = v.isNone := by
  cases v <;> rfl

theorem writeStr_joinPairs (s : PyStr) : writeStr (joinPairs s) = writeStr s := by
  have hescapes : (joinPairs s).flatMap escapeChar = s.flatMap escapeChar := by
    induction s using joinPairs.induct with
    | case1 => rfl
    | case2 c => rfl
    | case3 c d s hpair ih =>
      obtain ⟨hc, hd⟩ := Bool.and_eq_true_iff.mp hpair
      rw [joinPairs, if_pos hpair]
      simp only [List.flatMap_cons, ih, escapeChar_joinPair hc hd, List.append_assoc]
    | case4 c d s hpair ih =>
      rw [joinPairs, if_neg hpair, List.flatMap_cons, ih]
      rfl
  rw [writeStr, writeStr, hescapes]

/-- A pair is written as the character that it stands for. -/
theorem write_joinTexts (v : JsonValue γ) (level : Nat) :
    write lay level (joinTexts v) = write lay level v := by
  induction v using nested_induction generalizing level with
  | none | scalar | object => rfl
  | str s => exact writeStr_joinPairs s
  | list items ih =>
    rw [joinTexts, write, write, writeItems_eq, writeItems_eq, joinItems_eq, List.map_map]
    exact congrArg _ (List.map_congr_left fun v hv => ih v hv _)
  | dict items ih =>
    rw [joinTexts, write, write, writeMembers_eq, writeMembers_eq, joinMembers_eq, List.map_map]
    refine congrArg _ (List.map_congr_left fun kv hkv => ?_)
    rw [Function.comp_apply, ih kv hkv]

theorem enclose_starts {open' close : CodePoint} {texts : List PyStr}
    (h : open' = codePoint 91 ∨ open' = codePoint 123) :
    Starts (enclose lay level open' close texts) := by
  have hopen : isWs open' = false ∧ open' ≠ codePoint 93 ∧ open' ≠ codePoint 125 ∧
      open'.val < 0x80 := by
    rcases h with rfl | rfl <;> decide
  cases texts <;> exact ⟨open', _, rfl, hopen⟩

theorem write_starts (lay : Layout) (level : Nat) {v : JsonValue γ} (h : IsJson v) :
    Starts (write lay level v) := by
  cases v with
  | none => exact ⟨_, _, rfl, rfl, by decide, by decide, by decide⟩
  | scalar x =>
    cases x with
    | bool b => cases b <;> exact ⟨_, _, rfl, rfl, by decide, by decide, by decide⟩
    | float text => cases h
    | int n =>
      obtain ⟨c, t, hwrite, hge, hle⟩ := writeInt_head n
      refine ⟨c, t, hwrite, ?_, ?_, ?_, by omega⟩
      · simp only [isWs, Bool.or_eq_false_iff, decide_eq_false_iff_not]
        omega
      · rintro rfl
        exact absurd hle (by decide)
      · rintro rfl
        exact absurd hle (by decide)
  | str s => exact ⟨quote, _, rfl, rfl, by decide, by decide, by decide⟩
  | list items => exact enclose_starts (.inl rfl)
  | dict items => exact enclose_starts (.inr rfl)
  | object cls attrs => cases h.1

theorem scanValue_writeInt (n : Int) (fuel : Nat) {rest : PyStr} (h : Delimits rest) :
    scanValue (γ := γ) (fuel + 1) (writeInt n ++ rest) = .ok (.scalar (.int n), rest) := by
  have hscan := scanNumber_write n h
  have hconst := scanConstant_writeInt (γ := γ) n rest
  obtain ⟨c, t, hwrite, hge, hle⟩ := writeInt_head n
  have hquote : c ≠ quote := by
    rintro rfl
    exact absurd hge (by decide)
  have hbracket : c.val ≠ 91 := by omega
  have hbrace : c.val ≠ 123 := by omega
  simp only [hwrite, List.cons_append] at hscan hconst ⊢
  simp only [scanValue, if_neg hquote, if_neg hbracket, if_neg hbrace, hconst, hscan, ok_bind]
  rfl

theorem scanValue_list {items : List (JsonValue γ)} {fuel : Nat} {xs : List (JsonValue γ)}
    (h : List.Forall₂ (Reads (scanValue fuel)) (items.map (write lay (level + 1))) xs)
    (rest : PyStr) :
    scanValue (fuel + 1) (write lay level (.list items) ++ rest) = .ok (.list xs, rest) := by
  obtain ⟨body, hbody, hscan⟩ := scanEnclosed_enclose lay level (codePoint 91) (.inl rfl) h rest
  have hquote : codePoint 91 ≠ quote := by decide
  have hval : (codePoint 91).val = 91 := rfl
  rw [write, writeItems_eq, hbody, List.cons_append]
  simp only [scanValue, if_neg hquote, hval, if_true, hscan, ok_bind]
  rfl

theorem scanValue_dict {items xs : List (PyStr × JsonValue γ)} {fuel : Nat}
    (h : List.Forall₂ (Reads (scanMember (scanValue fuel))) (items.map fun kv =>
      writeStr kv.1 ++ colon :: (lay.afterColon ++ write lay (level + 1) kv.2)) xs)
    (hkeys : (Dict.keys xs).Nodup) (rest : PyStr) :
    scanValue (fuel + 1) (write lay level (.dict items) ++ rest) = .ok (.dict xs, rest) := by
  obtain ⟨body, hbody, hscan⟩ := scanEnclosed_enclose lay level (codePoint 123) (.inr rfl) h rest
  have hquote : codePoint 123 ≠ quote := by decide
  have hval : (codePoint 123).val = 123 := rfl
  have hset := Dict.foldl_set (d := []) hkeys
  rw [List.nil_append] at hset
  rw [write, writeMembers_eq, hbody, List.cons_append]
  simp only [scanValue, if_neg hquote, hval, if_true, hscan, ok_bind, hset]
  rfl

theorem reads_succ {v x : JsonValue γ} {fuel : Nat} (hv : IsJson v)
    (hfuel : (write lay level v).length ≤ fuel)
    (h : ∀ n, fuel = n + 1 → ∀ rest, Delimits rest →
      scanValue (n + 1) (write lay level v ++ rest) = .ok (x, rest)) :
    Reads (scanValue fuel) (write lay level v) x := by
  have hstarts := write_starts lay level hv
  obtain ⟨n, rfl⟩ : ∃ n, fuel = n + 1 := by
    obtain ⟨c, t, hwrite, _⟩ := id hstarts
    rw [hwrite, List.length_cons] at hfuel
    exact ⟨fuel - 1, by omega⟩
  exact ⟨hstarts, h n rfl⟩

/-- A value is read from what is written for it, with the length of that as fuel. -/
theorem scanValue_write (lay : Layout) (v : JsonValue γ) (h : IsJson v) (level fuel : Nat)
    (hfuel : (write lay level v).length ≤ fuel) :
    Reads (scanValue fuel) (write lay level v) (joinTexts v) := by
  induction v using nested_induction generalizing level fuel with
  | none => exact reads_succ h hfuel fun n _ rest _ => rfl
  | scalar x =>
    refine reads_succ h hfuel fun n _ rest hrest => ?_
    cases x with
    | bool b => cases b <;> rfl
    | int k => exact scanValue_writeInt k n hrest
    | float text => cases h
  | str s =>
    refine reads_succ h hfuel fun n _ rest _ => ?_
    have hle := length_le_escape s
    have hscan := scanString_write s (s.flatMap escapeChar ++ quote :: rest).length
      (by simp only [List.length_append, List.length_cons]; omega) rest
    simp only [write, writeStr, List.cons_append, List.append_assoc, List.nil_append, scanValue,
      if_true, hscan, ok_bind, joinTexts]
    rfl
  | list items ih =>
    have hitems := allItems_iff.mp h.2
    refine reads_succ h hfuel ?_
    rintro n rfl rest _
    rw [joinTexts, joinItems_eq]
    refine scanValue_list ?_ rest
    rw [List.forall₂_map_left_iff, List.forall₂_map_right_iff, List.forall₂_same]
    intro v hv
    refine ih v hv (hitems v hv) (level + 1) n ?_
    have hlen := length_lt_enclose lay level (codePoint 91) (codePoint 93)
      (List.mem_map_of_mem (f := write lay (level + 1)) hv)
    rw [write, writeItems_eq] at hfuel
    omega
  | dict items ih =>
    obtain ⟨⟨hnodup, hjoined⟩, hall⟩ := h
    have hitems := allAttrs_iff.mp hall
    refine reads_succ ⟨⟨hnodup, hjoined⟩, hall⟩ hfuel ?_
    rintro n rfl rest _
    have hkeys : (Dict.keys (items.map fun kv => (kv.1, joinTexts kv.2))).Nodup := by
      rw [Dict.keys, List.map_map]
      exact hnodup
    rw [joinTexts, joinMembers_eq]
    refine scanValue_dict ?_ hkeys rest
    rw [List.forall₂_map_left_iff, List.forall₂_map_right_iff, List.forall₂_same]
    intro kv hkv
    refine scanMember_write (hjoined kv.1 (List.mem_map_of_mem hkv))
      (ih kv hkv (hitems kv hkv) (level + 1) n ?_)
    have hlen := length_lt_enclose lay level (codePoint 123) (codePoint 125)
      (List.mem_map_of_mem (f := fun kv : PyStr × JsonValue γ =>
        writeStr kv.1 ++ colon :: (lay.afterColon ++ write lay (level + 1) kv.2)) hkv)
    rw [write, writeMembers_eq] at hfuel
    simp only [List.length_append, List.length_cons] at hlen
    omega
  | object cls attrs => cases h.1

theorem serializable_of_isJson (v : JsonValue γ) (h : IsJson v) : serializable v = true := by
  induction v using nested_induction with
  | none | scalar | str => rfl
  | list items ih =>
    have hitems := allItems_iff.mp h.2
    have hall : ∀ l : List (JsonValue γ), (∀ v ∈ l, serializable v = true) →
        serializableItems l = true := by
      intro l hl
      induction l with
      | nil => rfl
      | cons v l ihl =>
        obtain ⟨hv, hl⟩ := List.forall_mem_cons.mp hl
        rw [serializableItems, hv, ihl hl, Bool.and_self]
    exact hall items fun v hv => ih v hv (hitems v hv)
  | dict items ih =>
    have hitems := allAttrs_iff.mp h.2
    have hall : ∀ l : List (PyStr × JsonValue γ), (∀ kv ∈ l, serializable kv.2 = true) →
        serializableMembers l = true := by
      intro l hl
      induction l with
      | nil => rfl
      | cons kv l ihl =>
        obtain ⟨hkv, hl⟩ := List.forall_mem_cons.mp hl
        rw [serializableMembers, hkv, ihl hl, Bool.and_self]
    exact hall items fun kv hkv => ih kv hkv (hitems kv hkv)
  | object cls attrs => cases h.1

/-- Whatever the layout, a value is read back from its text with the pairs in its texts joined. -/
theorem loads_write (lay : Layout) (v : JsonValue γ) (h : IsJson v) :
    loads (write lay 0 v) = .ok (joinTexts v) := by
  obtain ⟨hstarts, hreads⟩ := scanValue_write lay v h 0 _ le_rfl
  have hscan := hreads [] (fun _ hc => by cases hc)
  have hskip := hstarts.skipWs []
  rw [List.append_nil] at hscan hskip
  have hbom : (write lay 0 v).head? ≠ some (codePoint 0xFEFF) := by
    obtain ⟨c, t, hwrite, _, _, _, hlt⟩ := hstarts
    rw [hwrite]
    rintro hc
    obtain rfl := Option.some.inj hc
    exact absurd hlt (by decide)
  rw [loads, if_neg hbom, hskip, hscan, ok_bind]
  rfl

theorem loads_dumps (indent : Option Nat) (v : JsonValue γ) (h : IsJson v) :
    ∃ text, dumps indent v = .ok text ∧ loads text = .ok (joinTexts v) :=
  ⟨_, if_pos (serializable_of_isJson v h), loads_write _ v h⟩

theorem isJson_joinTexts (v : JsonValue γ) (h : IsJson v) : IsJson (joinTexts v) := by
  induction v using nested_induction with
  | none => exact trivial
  | str s => exact trivial
  | scalar x => exact h
  | list items ih =>
    refine ⟨trivial, allItems_iff.mpr ?_⟩
    rw [joinItems_eq]
    exact List.forall_mem_map.mpr fun v hv => ih v hv (allItems_iff.mp h.2 v hv)
  | dict items ih =>
    refine ⟨?_, allAttrs_iff.mpr ?_⟩
    · rw [JsonNode, keys_joinMembers]
      exact h.1
    · rw [joinMembers_eq]
      exact List.forall_mem_map.mpr fun kv hkv => ih kv hkv (allAttrs_iff.mp h.2 kv hkv)
  | object cls attrs => cases h.1

theorem dumps_joinTexts (indent : Option Nat) (v : JsonValue γ) (h : IsJson v) :
    dumps indent (joinTexts v) = dumps indent v := by
  rw [dumps, dumps, serializable_of_isJson v h,
    serializable_of_isJson _ (isJson_joinTexts v h), write_joinTexts]

/-! ## ASCII -/

def Ascii (s : PyStr) : Prop := ∀ c ∈ s, c.val < 0x80

theorem ascii_append {s t : PyStr} (hs : Ascii s) (ht : Ascii t) : Ascii (s ++ t) :=
  List.forall_mem_append.mpr ⟨hs, ht⟩

theorem ascii_cons {c : CodePoint} {s : PyStr} (hc : c.val < 0x80) (hs : Ascii s) :
    Ascii (c :: s) :=
  List.forall_mem_cons.mpr ⟨hc, hs⟩

theorem ascii_flatMap {α : Type} {l : List α} {f : α → PyStr} (h : ∀ x ∈ l, Ascii (f x)) :
    Ascii (l.flatMap f) := by
  intro c hc
  obtain ⟨x, hx, hc⟩ := List.mem_flatMap.mp hc
  exact h x hx c hc

theorem ascii_ws {s : PyStr} (h : s.all isWs = true) : Ascii s := by
  intro c hc
  have hws := List.all_eq_true.mp h c hc
  simp only [isWs, Bool.or_eq_true, decide_eq_true_eq] at hws
  omega

theorem hexDigit_val (n : Nat) : (hexDigit n).val < 0x80 := by
  have hlt : n % 16 < 16 := Nat.mod_lt n (by decide)
  rw [hexDigit, codePoint_val] <;> split <;> omega

theorem ascii_unicodeEscape (n : Nat) : Ascii (unicodeEscape n) :=
  ascii_cons (by decide) (ascii_cons (by decide) (ascii_cons (hexDigit_val _)
    (ascii_cons (hexDigit_val _) (ascii_cons (hexDigit_val _) (ascii_cons (hexDigit_val _)
      (List.forall_mem_nil _))))))

theorem ascii_escapeChar (c : CodePoint) : Ascii (escapeChar c) := by
  rcases escapeChar_cases c with ⟨e, he, hwrite⟩ | ⟨_, _, _, hle, hwrite⟩ | ⟨_, hwrite⟩ |
    ⟨_, hwrite⟩ <;> rw [hwrite]
  · have hall : (shortEscapes.all fun e => e.2.val < 0x80) = true := by decide
    have hval := of_decide_eq_true (List.all_eq_true.mp hall e (List.mem_of_find?_eq_some he))
    exact ascii_cons (by decide) (ascii_cons hval (List.forall_mem_nil _))
  · exact ascii_cons (by omega) (List.forall_mem_nil _)
  · exact ascii_unicodeEscape _
  · exact ascii_append (ascii_unicodeEscape _) (ascii_unicodeEscape _)

theorem ascii_writeStr (s : PyStr) : Ascii (writeStr s) :=
  ascii_cons (by decide) (ascii_append (ascii_flatMap fun c _ => ascii_escapeChar c)
    (ascii_cons (by decide) (List.forall_mem_nil _)))

theorem ascii_writeInt (n : Int) : Ascii (writeInt n) := by
  have hnat : Ascii (writeNat n.natAbs) := by
    rw [writeNat]
    split
    next => exact ascii_cons (by decide) (List.forall_mem_nil _)
    next =>
      refine List.forall_mem_map.mpr fun d hd => ?_
      have hlt : d < 10 := Nat.digits_lt_base (by decide) (List.mem_reverse.mp hd)
      rw [digit_val hlt]
      omega
  rw [writeInt]
  split
  next => exact ascii_cons (by decide) hnat
  next => exact hnat

theorem ascii_enclose {open' close : CodePoint} (hopen : open'.val < 0x80)
    (hclose : close.val < 0x80) {parts : List PyStr} (h : ∀ part ∈ parts, Ascii part) :
    Ascii (enclose lay level open' close parts) := by
  have hend : Ascii [close] := ascii_cons hclose (List.forall_mem_nil _)
  cases parts with
  | nil => exact ascii_cons hopen hend
  | cons part parts =>
    obtain ⟨hpart, hparts⟩ := List.forall_mem_cons.mp h
    have hrest : Ascii (parts.flatMap fun part =>
        comma :: (lay.afterComma (level + 1) ++ part)) :=
      ascii_flatMap fun part hp => ascii_cons (by decide)
        (ascii_append (ascii_ws (lay.afterComma_ws _)) (hparts part hp))
    exact ascii_cons hopen (ascii_append (ascii_append (ascii_append (ascii_append
      (ascii_ws (lay.newline_ws _)) hpart) hrest) (ascii_ws (lay.newline_ws _))) hend)

theorem ascii_write (v : JsonValue γ) (h : IsJson v) (level : Nat) :
    Ascii (write lay level v) := by
  have hword : ∀ s, ((py s).all fun c => c.val < 0x80) = true → Ascii (py s) :=
    fun s hs c hc => of_decide_eq_true (List.all_eq_true.mp hs c hc)
  induction v using nested_induction generalizing level with
  | none => exact hword _ (by decide)
  | scalar x =>
    cases x with
    | bool b => cases b <;> exact hword _ (by decide)
    | int n => exact ascii_writeInt n
    | float text => cases h
  | str s => exact ascii_writeStr s
  | list items ih =>
    refine ascii_enclose (by decide) (by decide) ?_
    rw [writeItems_eq]
    exact List.forall_mem_map.mpr fun v hv => ih v hv (allItems_iff.mp h.2 v hv) _
  | dict items ih =>
    refine ascii_enclose (by decide) (by decide) ?_
    rw [writeMembers_eq]
    refine List.forall_mem_map.mpr fun kv hkv => ascii_append (ascii_writeStr kv.1) ?_
    exact ascii_cons (by decide) (ascii_append (ascii_ws lay.afterColon_ws)
      (ih kv hkv (allAttrs_iff.mp h.2 kv hkv) _))
  | object cls attrs => cases h.1

/-- What is written is the same text after it went through UTF-8. -/
theorem ofUtf8?_write (v : JsonValue γ) (h : IsJson v) :
    PyStr.ofUtf8? (write lay level v).utf8 = some (write lay level v) :=
  ofUtf8?_utf8 fun c hc => .inl (Nat.lt_trans (ascii_write v h level c hc) (by decide))

end Values

end TrustFlow.PyJson
