import TrustFlow.Data.Base64
import Mathlib.Data.List.DropRight

/-! # Reading base64

The decoders of `cppcodec::base64_rfc4648` and `cppcodec::base64_url_unpadded`.  A
text is a list of six-bit digits; four of them are three bytes, and two or three at
the end are one or two bytes.  Both decoders give back what their encoders were
given (`base64Decode_encode`, `base64UrlUnpaddedDecode_encode`). -/

namespace TrustFlow

/-! ## Digits -/

def base64Value (c : UInt8) : Option Nat :=
  if base64Alphabet.idxOf c < base64Alphabet.length then some (base64Alphabet.idxOf c) else none

def base64UrlDigit (n : Nat) : UInt8 :=
  if base64Digit n = 43 then 45 else if base64Digit n = 47 then 95 else base64Digit n

def base64UrlValue (c : UInt8) : Option Nat :=
  if c = 45 then some 62 else if c = 95 then some 63
  else if c = 43 ∨ c = 47 then none else base64Value c

/-- The bytes of a list of digits.  A digit alone is no byte, and the bits that are left over at
    the end are dropped. -/
def base64Groups : List Nat → Option Bytes
  | [] => some []
  | [_] => none
  | [a, b] => some [UInt8.ofNat (a * 4 + b / 16)]
  | [a, b, c] => some [UInt8.ofNat (a * 4 + b / 16), UInt8.ofNat (b % 16 * 16 + c / 4)]
  | a :: b :: c :: d :: rest =>
    (base64Groups rest).map fun bs =>
      UInt8.ofNat (a * 4 + b / 16) :: UInt8.ofNat (b % 16 * 16 + c / 4) ::
        UInt8.ofNat (c % 4 * 64 + d) :: bs

def base64UrlUnpaddedDecode (text : Bytes) : Option Bytes :=
  (text.mapM base64UrlValue).bind base64Groups

/-- With padding, which fills up the last group of four. -/
def base64Decode (text : Bytes) : Option Bytes :=
  let digits := text.rdropWhile fun c => c = 61
  if text.length % 4 = 0 ∧ text.length ≤ digits.length + 2 then
    (digits.mapM base64Value).bind base64Groups
  else none

example : base64Decode (str "Rmxvdw==") = some (str "Flow") := by decide

example : base64UrlUnpaddedDecode (str "-_8AAQ") = some [251, 255, 0, 1] := by decide

/-! ## The digits of a byte string -/

def base64Digits : Bytes → List Nat
  | [] => []
  | [a] => [a.toNat / 4, a.toNat % 4 * 16]
  | [a, b] => [a.toNat / 4, a.toNat % 4 * 16 + b.toNat / 16, b.toNat % 16 * 4]
  | a :: b :: c :: rest =>
    (a.toNat / 4) :: (a.toNat % 4 * 16 + b.toNat / 16) :: (b.toNat % 16 * 4 + c.toNat / 64) ::
      (c.toNat % 64) :: base64Digits rest

/-- The length of the padding behind the digits. -/
def base64Padding (bs : Bytes) : Nat := (3 - bs.length % 3) % 3

theorem base64Padding_group (a b c : UInt8) (rest : Bytes) :
    base64Padding (a :: b :: c :: rest) = base64Padding rest := by
  simp only [base64Padding, List.length_cons]
  omega

theorem base64Encode_eq (bs : Bytes) :
    base64Encode bs =
      (base64Digits bs).map base64Digit ++ List.replicate (base64Padding bs) 61 := by
  fun_induction base64Encode bs with
  | case1 => rfl
  | case2 a => rfl
  | case3 a b => rfl
  | case4 a b c rest ih =>
    rw [ih, base64Padding_group, base64Digits]
    rfl

theorem base64Digits_lt (bs : Bytes) : ∀ n ∈ base64Digits bs, n < 64 := by
  fun_induction base64Digits bs with
  | case1 => simp
  | case2 a =>
    have ha := a.toNat_lt
    simp only [List.forall_mem_cons]
    exact ⟨by omega, by omega, by simp⟩
  | case3 a b =>
    have ha := a.toNat_lt
    have hb := b.toNat_lt
    simp only [List.forall_mem_cons]
    exact ⟨by omega, by omega, by omega, by simp⟩
  | case4 a b c rest ih =>
    have ha := a.toNat_lt
    have hb := b.toNat_lt
    have hc := c.toNat_lt
    simp only [List.forall_mem_cons]
    exact ⟨by omega, by omega, by omega, by omega, ih⟩

theorem ofNat_eq_of_toNat {b : UInt8} {n : Nat} (h : n = b.toNat) : UInt8.ofNat n = b := by
  rw [h, UInt8.ofNat_toNat]

theorem base64Groups_digits (bs : Bytes) : base64Groups (base64Digits bs) = some bs := by
  fun_induction base64Digits bs with
  | case1 => rfl
  | case2 a =>
    simp only [base64Groups, Option.some.injEq, List.cons.injEq, and_true]
    exact ofNat_eq_of_toNat (by omega)
  | case3 a b =>
    have hb := b.toNat_lt
    simp only [base64Groups, Option.some.injEq, List.cons.injEq, and_true]
    exact ⟨ofNat_eq_of_toNat (by omega), ofNat_eq_of_toNat (by omega)⟩
  | case4 a b c rest ih =>
    have hb := b.toNat_lt
    have hc := c.toNat_lt
    simp only [base64Groups, ih, Option.map_some, Option.some.injEq, List.cons.injEq, and_true]
    exact ⟨ofNat_eq_of_toNat (by omega), ofNat_eq_of_toNat (by omega),
      ofNat_eq_of_toNat (by omega)⟩

/-! ## Reading what was written -/

theorem base64Value_digit {n : Nat} (h : n < 64) : base64Value (base64Digit n) = some n := by
  have hn : n < base64Alphabet.length := by rwa [base64Alphabet_length]
  have hidx : base64Alphabet.idxOf (base64Digit n) = n := by
    rw [base64Digit, List.getD_eq_getElem _ _ hn]
    exact base64Alphabet_nodup.idxOf_getElem n hn
  rw [base64Value, hidx, if_pos hn]

theorem base64UrlValue_digit {n : Nat} (h : n < 64) :
    base64UrlValue (base64UrlDigit n) = some n := by
  have hplus : base64Digit 62 = 43 := by decide
  have hslash : base64Digit 63 = 47 := by decide
  rw [base64UrlDigit]
  split
  next hdigit =>
    have hn := base64Digit_inj h (by decide) (hdigit.trans hplus.symm)
    simp [base64UrlValue, hn]
  next hnePlus =>
    split
    next hdigit =>
      have hn := base64Digit_inj h (by decide) (hdigit.trans hslash.symm)
      simp [base64UrlValue, hn]
    next hneSlash =>
      -- Neither character of the other alphabet is a digit of this one.
      have hminus : base64Digit n ≠ 45 := (base64Digit_ne (by decide) (by decide) n).symm
      have hunder : base64Digit n ≠ 95 := (base64Digit_ne (by decide) (by decide) n).symm
      simp [base64UrlValue, hminus, hunder, hnePlus, hneSlash, base64Value_digit h]

theorem mapM_of_forall {α β : Type} {f : α → Option β} {g : β → α} {l : List β}
    (h : ∀ b ∈ l, f (g b) = some b) : (l.map g).mapM f = some l := by
  induction l with
  | nil => rfl
  | cons b l ih =>
    rw [List.forall_mem_cons] at h
    simp [h.1, ih h.2]

theorem base64UrlUnpaddedEncode_eq (bs : Bytes) :
    base64UrlUnpaddedEncode bs = (base64Digits bs).map base64UrlDigit := by
  have hkept : ((base64Digits bs).map base64Digit).filter (fun c => decide (c ≠ 61)) =
      (base64Digits bs).map base64Digit := by
    apply List.filter_eq_self.mpr
    intro c hc
    obtain ⟨n, _, rfl⟩ := List.mem_map.mp hc
    exact decide_eq_true (base64Digit_ne (by decide) (by decide) n).symm
  have hpadding : (List.replicate (base64Padding bs) (61 : UInt8)).filter
      (fun c => decide (c ≠ 61)) = [] := by
    simp
  rw [base64UrlUnpaddedEncode, base64Encode_eq, List.filter_append, hkept, hpadding,
    List.append_nil, List.map_map]
  rfl

theorem not_mem_base64UrlUnpaddedEncode {c : UInt8} (h : base64UrlValue c = none) (bs : Bytes) :
    c ∉ base64UrlUnpaddedEncode bs := by
  intro hmem
  rw [base64UrlUnpaddedEncode_eq] at hmem
  obtain ⟨n, hn, rfl⟩ := List.mem_map.mp hmem
  rw [base64UrlValue_digit (base64Digits_lt bs n hn)] at h
  cases h

theorem zero_not_mem_base64Encode (bs : Bytes) : 0 ∉ base64Encode bs := by
  intro hmem
  rw [base64Encode_eq, List.mem_append] at hmem
  rcases hmem with hdigit | hpadding
  · obtain ⟨n, hn, hzero⟩ := List.mem_map.mp hdigit
    have hvalue := base64Value_digit (base64Digits_lt bs n hn)
    rw [hzero] at hvalue
    exact absurd hvalue.symm (by simp [show base64Value 0 = none by decide])
  · exact absurd (List.eq_of_mem_replicate hpadding) (by decide)

theorem isUtf8_base64Encode (bs : Bytes) : IsUtf8 (base64Encode bs) := by
  refine isUtf8_of_ascii fun c hc => ?_
  by_contra hlarge
  have halphabet : base64Alphabet.all (· < 128) = true := by decide
  have hdigit : c ∉ base64Alphabet := fun hmem =>
    hlarge (of_decide_eq_true (List.all_eq_true.mp halphabet c hmem))
  refine absurd hc (not_mem_base64Encode hdigit ?_ ?_ bs) <;>
    rintro rfl <;> exact hlarge (by decide)

theorem base64UrlUnpaddedDecode_encode (bs : Bytes) :
    base64UrlUnpaddedDecode (base64UrlUnpaddedEncode bs) = some bs := by
  rw [base64UrlUnpaddedDecode, base64UrlUnpaddedEncode_eq,
    mapM_of_forall fun n hn => base64UrlValue_digit (base64Digits_lt bs n hn)]
  exact base64Groups_digits bs

theorem base64Digits_length (bs : Bytes) :
    ((base64Digits bs).length + base64Padding bs) % 4 = 0 ∧ base64Padding bs ≤ 2 := by
  fun_induction base64Digits bs with
  | case1 => decide
  | case2 a => simp [base64Padding]
  | case3 a b => simp [base64Padding]
  | case4 a b c rest ih =>
    simp only [List.length_cons, base64Padding_group]
    omega

theorem rdropWhile_padding {xs : Bytes} (k : Nat) (h : (61 : UInt8) ∉ xs) :
    (xs ++ List.replicate k 61).rdropWhile (fun c => decide (c = 61)) = xs := by
  induction k with
  | zero =>
    rw [List.replicate_zero, List.append_nil]
    apply List.rdropWhile_eq_self_iff.mpr
    intro hne hlast
    exact h (of_decide_eq_true hlast ▸ List.getLast_mem hne)
  | succ k ih =>
    rw [List.replicate_succ', ← List.append_assoc, List.rdropWhile_concat_pos _ _ _ (by decide),
      ih]

theorem base64Decode_encode (bs : Bytes) : base64Decode (base64Encode bs) = some bs := by
  have hdigits : (61 : UInt8) ∉ (base64Digits bs).map base64Digit := by
    intro hmem
    obtain ⟨n, _, hn⟩ := List.mem_map.mp hmem
    exact base64Digit_ne (by decide) (by decide) n hn.symm
  obtain ⟨hlength, hpadding⟩ := base64Digits_length bs
  rw [base64Decode, base64Encode_eq, rdropWhile_padding _ hdigits]
  simp only [List.length_append, List.length_map, List.length_replicate]
  rw [if_pos ⟨hlength, by omega⟩,
    mapM_of_forall fun n hn => base64Value_digit (base64Digits_lt bs n hn)]
  exact base64Groups_digits bs

end TrustFlow
