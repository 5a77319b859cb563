import TrustFlow.Data.Bytes
import Mathlib.Data.List.GetD
import Mathlib.Data.List.Nodup

/-! # Base64

The encoders of `cppcodec::base64_rfc4648`, the standard alphabet with padding,
and of `cppcodec::base64_url_unpadded`, which writes `-` and `_` for `+` and `/`
and no padding. -/

namespace TrustFlow

def base64Alphabet : Bytes :=
  str "ABCDEFGHIJKLMNOPQRSTUVWXYZabcdefghijklmnopqrstuvwxyz0123456789+/"

def base64Digit (n : Nat) : UInt8 := base64Alphabet.getD n 0

def base64Encode : Bytes → Bytes
  | [] => []
  | [a] =>
    [base64Digit (a.toNat / 4), base64Digit (a.toNat % 4 * 16), 61, 61]
  | [a, b] =>
    [base64Digit (a.toNat / 4), base64Digit (a.toNat % 4 * 16 + b.toNat / 16),
      base64Digit (b.toNat % 16 * 4), 61]
  | a :: b :: c :: rest =>
    base64Digit (a.toNat / 4) :: base64Digit (a.toNat % 4 * 16 + b.toNat / 16) ::
      base64Digit (b.toNat % 16 * 4 + c.toNat / 64) :: base64Digit (c.toNat % 64) ::
      base64Encode rest

example : base64Encode (str "TrustFlow") = str "VHJ1c3RGbG93" := by decide

example : base64Encode (str "Flow") = str "Rmxvdw==" := by decide

def base64UrlUnpaddedEncode (bs : Bytes) : Bytes :=
  ((base64Encode bs).filter (· ≠ 61)).map fun c => if c = 43 then 45 else if c = 47 then 95 else c

example : base64UrlUnpaddedEncode [251, 255, 0, 1] = str "-_8AAQ" := by decide

/-! ## Texts -/

theorem base64Alphabet_nodup : base64Alphabet.Nodup := by
  -- Compared as numbers, which evaluate faster than bytes.
  have hcodes : (base64Alphabet.map UInt8.toNat).Nodup := by decide
  exact hcodes.of_map _

theorem base64Alphabet_length : base64Alphabet.length = 64 := by decide

theorem base64Digit_ne {c : UInt8} (hc : c ∉ base64Alphabet) (hzero : c ≠ 0) (n : Nat) :
    c ≠ base64Digit n := by
  rintro rfl
  rw [base64Digit] at hc hzero
  by_cases hn : n < base64Alphabet.length
  · rw [List.getD_eq_getElem _ _ hn] at hc
    exact hc (List.getElem_mem _)
  · exact hzero (List.getD_eq_default _ _ (by omega))

theorem base64Digit_inj {m n : Nat} (hm : m < 64) (hn : n < 64)
    (h : base64Digit m = base64Digit n) : m = n := by
  rw [← base64Alphabet_length] at hm hn
  rw [base64Digit, base64Digit, List.getD_eq_getElem _ _ hm, List.getD_eq_getElem _ _ hn] at h
  exact (base64Alphabet_nodup.getElem_inj_iff).mp h

/-- Texts of byte strings of one length differ where the byte strings do. -/
theorem base64Encode_inj : ∀ {as bs : Bytes}, as.length = bs.length →
    base64Encode as = base64Encode bs → as = bs
  | [], [], _, _ => rfl
  | [a], [a'], _, h => by
    simp only [base64Encode, List.cons.injEq] at h
    have ha := a.toNat_lt
    have ha' := a'.toNat_lt
    have h₁ := base64Digit_inj (by omega) (by omega) h.1
    have h₂ := base64Digit_inj (by omega) (by omega) h.2.1
    rw [UInt8.toNat_inj.mp (show a.toNat = a'.toNat by omega)]
  | [a, b], [a', b'], _, h => by
    simp only [base64Encode, List.cons.injEq] at h
    have ha := a.toNat_lt
    have ha' := a'.toNat_lt
    have hb := b.toNat_lt
    have hb' := b'.toNat_lt
    have h₁ := base64Digit_inj (by omega) (by omega) h.1
    have h₂ := base64Digit_inj (by omega) (by omega) h.2.1
    have h₃ := base64Digit_inj (by omega) (by omega) h.2.2.1
    rw [UInt8.toNat_inj.mp (show a.toNat = a'.toNat by omega),
      UInt8.toNat_inj.mp (show b.toNat = b'.toNat by omega)]
  | a :: b :: c :: rest, a' :: b' :: c' :: rest', hlen, h => by
    simp only [base64Encode, List.cons.injEq] at h
    have ha := a.toNat_lt
    have ha' := a'.toNat_lt
    have hb := b.toNat_lt
    have hb' := b'.toNat_lt
    have hc := c.toNat_lt
    have hc' := c'.toNat_lt
    have h₁ := base64Digit_inj (by omega) (by omega) h.1
    have h₂ := base64Digit_inj (by omega) (by omega) h.2.1
    have h₃ := base64Digit_inj (by omega) (by omega) h.2.2.1
    have h₄ := base64Digit_inj (by omega) (by omega) h.2.2.2.1
    rw [UInt8.toNat_inj.mp (show a.toNat = a'.toNat by omega),
      UInt8.toNat_inj.mp (show b.toNat = b'.toNat by omega),
      UInt8.toNat_inj.mp (show c.toNat = c'.toNat by omega),
      base64Encode_inj (by simpa using hlen) h.2.2.2.2]

theorem not_mem_base64Encode {c : UInt8} (hc : c ∉ base64Alphabet) (hzero : c ≠ 0)
    (hpad : c ≠ 61) (bs : Bytes) : c ∉ base64Encode bs := by
  have hdigit := base64Digit_ne hc hzero
  fun_induction base64Encode bs with
  | case1 => simp
  | case2 a => simp [hdigit, hpad]
  | case3 a b => simp [hdigit, hpad]
  | case4 a b d rest ih => simp [hdigit, ih]

/-- The text of a byte string that is not a whole number of groups ends in padding. -/
theorem base64Encode_getLast : ∀ {bs : Bytes}, bs.length % 3 ≠ 0 →
    (base64Encode bs).getLast? = some 61
  | [], h => by simp at h
  | [_], _ => rfl
  | [_, _], _ => rfl
  | a :: b :: c :: rest, h => by
    have hrest : rest.length % 3 ≠ 0 := by
      simp only [List.length_cons] at h
      omega
    have hlast := base64Encode_getLast hrest
    obtain ⟨front, hfront⟩ := List.getLast?_eq_some_iff.mp hlast
    apply List.getLast?_eq_some_iff.mpr
    exact ⟨_ :: _ :: _ :: _ :: front, by rw [base64Encode, hfront]; rfl⟩

end TrustFlow
