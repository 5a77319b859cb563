import Mathlib.Data.List.Chain
import TrustFlow.Data.Bytes

/-! # Texts of Python

A text is a sequence of code points.  Surrogates are code points, and a text may hold them
alone or in the order of a pair, which is not the character that the pair stands for in UTF-16.

* `joinPairs` — the text with the character in the place of each pair;
* `Joined` — a text without a pair. -/

namespace TrustFlow

abbrev CodePoint := Fin 0x110000

abbrev PyStr := List CodePoint

def codePoint (n : Nat) : CodePoint := ⟨n % 0x110000, Nat.mod_lt n (by decide)⟩

theorem codePoint_val {n : Nat} (h : n < 0x110000) : (codePoint n).val = n := Nat.mod_eq_of_lt h

@[simp] theorem codePoint_self (c : CodePoint) : codePoint c.val = c :=
  Fin.ext (codePoint_val c.isLt)

theorem isValidChar_lt {n : Nat} (h : n.isValidChar) : n < 0x110000 := by
  rcases h with hlow | ⟨_, hhigh⟩
  · omega
  · exact hhigh

def ch (c : Char) : CodePoint := ⟨c.val.toNat, isValidChar_lt c.valid⟩

/-- The text of a string literal. -/
def py (s : String) : PyStr := s.toList.map ch

theorem ch_injective : Function.Injective ch := by
  intro c d h
  have hval : c.val.toNat = d.val.toNat := Fin.mk.inj h
  exact Char.ext (UInt32.toNat_inj.mp hval)

theorem py_injective : Function.Injective py := by
  intro s t h
  exact String.toList_inj.mp (List.map_injective_iff.mpr ch_injective h)

/-! ## Characters -/

/-- The character of a code point that is not a surrogate. -/
def CodePoint.char? (c : CodePoint) : Option Char :=
  if h : c.val.isValidChar then some (Char.ofNatAux c.val h) else none

/-- The characters of a text, without its surrogates. -/
def PyStr.chars (s : PyStr) : String := String.ofList (s.filterMap CodePoint.char?)

theorem char?_ch (c : Char) : CodePoint.char? (ch c) = some c := by
  have hvalid : (ch c).val.isValidChar := c.valid
  rw [CodePoint.char?, dif_pos hvalid]
  rfl

@[simp] theorem chars_py (s : String) : PyStr.chars (py s) = s := by
  have hall : (py s).filterMap CodePoint.char? = s.toList := by
    rw [py, List.filterMap_map]
    have hsome : CodePoint.char? ∘ ch = some := funext char?_ch
    rw [hsome, List.filterMap_some]
  rw [PyStr.chars, hall, String.ofList_toList]

theorem py_chars {s : PyStr} (h : ∀ c ∈ s, c.val.isValidChar) : py s.chars = s := by
  rw [PyStr.chars, py, String.toList_ofList]
  induction s with
  | nil => rfl
  | cons c s ih =>
    obtain ⟨hc, hs⟩ := List.forall_mem_cons.mp h
    have hchar : CodePoint.char? c = some (Char.ofNatAux c.val hc) := dif_pos hc
    rw [List.filterMap_cons_some hchar, List.map_cons, ih hs]
    rfl

/-- The UTF-8 of a text that has no surrogates. -/
def PyStr.utf8 (s : PyStr) : Bytes := str s.chars

@[simp] theorem utf8_py (s : String) : (py s).utf8 = str s := by rw [PyStr.utf8, chars_py]

def PyStr.ofUtf8? (b : Bytes) : Option PyStr := (String.fromUTF8? ⟨b.toArray⟩).map py

theorem ofUtf8?_str (s : String) : PyStr.ofUtf8? (str s) = some (py s) := by
  have hvalid : (⟨(str s).toArray⟩ : ByteArray) = s.toByteArray := by simp [str]
  rw [PyStr.ofUtf8?, hvalid, String.fromUTF8?, dif_pos s.isValidUTF8]
  rfl

theorem isUtf8_iff {b : Bytes} : IsUtf8 b ↔ (PyStr.ofUtf8? b).isSome = true := by
  constructor
  · rintro ⟨s, rfl⟩
    rw [ofUtf8?_str]
    rfl
  · intro h
    rw [PyStr.ofUtf8?, Option.isSome_map] at h
    obtain ⟨s, hs⟩ := Option.isSome_iff_exists.mp h
    refine ⟨s, ?_⟩
    rw [String.fromUTF8?] at hs
    split at hs
    next =>
      cases hs
      rfl
    next => cases hs

instance (b : Bytes) : Decidable (IsUtf8 b) := decidable_of_iff _ isUtf8_iff.symm

/-- A field of type string, which is UTF-8, as a text. -/
def PyStr.text (b : Bytes) : PyStr := (PyStr.ofUtf8? b).getD []

theorem text_str (s : String) : PyStr.text (str s) = py s := by
  rw [PyStr.text, ofUtf8?_str, Option.getD_some]

theorem utf8_text {b : Bytes} (h : IsUtf8 b) : (PyStr.text b).utf8 = b := by
  obtain ⟨s, rfl⟩ := h
  rw [text_str, utf8_py]

theorem ofUtf8?_utf8 {s : PyStr} (h : ∀ c ∈ s, c.val.isValidChar) :
    PyStr.ofUtf8? s.utf8 = some s := by
  rw [PyStr.utf8, ofUtf8?_str, py_chars h]

/-! ## Surrogates -/

def CodePoint.isHigh (c : CodePoint) : Bool := 0xD800 ≤ c.val && c.val ≤ 0xDBFF

def CodePoint.isLow (c : CodePoint) : Bool := 0xDC00 ≤ c.val && c.val ≤ 0xDFFF

theorem isHigh_eq_false {c : CodePoint} (h : c.val < 0xD800 ∨ 0xDBFF < c.val) :
    c.isHigh = false := by
  simp only [CodePoint.isHigh, Bool.and_eq_false_iff, decide_eq_false_iff_not]
  omega

theorem isLow_eq_false {c : CodePoint} (h : c.val < 0xDC00 ∨ 0xDFFF < c.val) :
    c.isLow = false := by
  simp only [CodePoint.isLow, Bool.and_eq_false_iff, decide_eq_false_iff_not]
  omega

/-- The character that a pair of surrogates stands for. -/
def joinPair (high low : CodePoint) : CodePoint :=
  ⟨0x10000 + (high.val % 0x400) * 0x400 + low.val % 0x400, by omega⟩

def joinPairs : PyStr → PyStr
  | [] => []
  | [c] => [c]
  | c :: d :: s =>
    if c.isHigh && d.isLow then joinPair c d :: joinPairs s else c :: joinPairs (d :: s)

/-- No high surrogate is followed by a low one. -/
def Joined (s : PyStr) : Prop := s.IsChain fun c d => (c.isHigh && d.isLow) = false

instance (s : PyStr) : Decidable (Joined s) := inferInstanceAs (Decidable (s.IsChain _))

theorem joinPairs_of_joined {s : PyStr} (h : Joined s) : joinPairs s = s := by
  induction s using joinPairs.induct with
  | case1 => rfl
  | case2 c => rfl
  | case3 c d s hpair ih =>
    have hnone := (List.isChain_cons_cons.mp h).1
    rw [hnone] at hpair
    cases hpair
  | case4 c d s hpair ih =>
    rw [joinPairs, if_neg hpair, ih (List.isChain_cons_cons.mp h).2]

/-- What a pair stands for is not a surrogate. -/
theorem joinPair_not_surrogate (c d : CodePoint) :
    (joinPair c d).isHigh = false ∧ (joinPair c d).isLow = false := by
  have hval : 0xDFFF < (joinPair c d).val := by
    simp only [joinPair]
    omega
  exact ⟨isHigh_eq_false (.inr (by omega)), isLow_eq_false (.inr hval)⟩

theorem head_joinPairs (d : CodePoint) (s : PyStr) :
    ∀ b ∈ (joinPairs (d :: s)).head?, b = d ∨ b.isLow = false := by
  intro b hb
  cases s with
  | nil => exact .inl (Option.some.inj hb).symm
  | cons e s =>
    rw [joinPairs] at hb
    split at hb
    next =>
      obtain rfl := Option.some.inj hb
      exact .inr (joinPair_not_surrogate d e).2
    next => exact .inl (Option.some.inj hb).symm

theorem joined_joinPairs (s : PyStr) : Joined (joinPairs s) := by
  induction s using joinPairs.induct with
  | case1 => exact .nil
  | case2 c => exact .singleton c
  | case3 c d s hpair ih =>
    rw [joinPairs, if_pos hpair]
    refine List.isChain_cons.mpr ⟨fun b _ => ?_, ih⟩
    rw [(joinPair_not_surrogate c d).1, Bool.false_and]
  | case4 c d s hpair ih =>
    rw [joinPairs, if_neg hpair]
    refine List.isChain_cons.mpr ⟨fun b hb => ?_, ih⟩
    rcases head_joinPairs d s b hb with rfl | hlow
    · exact Bool.eq_false_iff.mpr hpair
    · rw [hlow, Bool.and_false]

/-- Characters are not surrogates. -/
theorem isLow_ch (c : Char) : (ch c).isLow = false := by
  have hvalid := c.valid
  simp only [UInt32.isValidChar, Nat.isValidChar] at hvalid
  have hval : (ch c).val = c.val.toNat := rfl
  simp only [CodePoint.isLow, hval, Bool.and_eq_false_iff, decide_eq_false_iff_not]
  omega

theorem joined_py (s : String) : Joined (py s) := by
  rw [py]
  generalize s.toList = cs
  induction cs with
  | nil => exact .nil
  | cons c cs ih =>
    cases cs with
    | nil => exact .singleton _
    | cons d cs =>
      refine List.isChain_cons_cons.mpr ⟨?_, ih⟩
      rw [isLow_ch, Bool.and_false]

theorem joined_text (b : Bytes) : Joined (PyStr.text b) := by
  rw [PyStr.text, PyStr.ofUtf8?]
  cases String.fromUTF8? ⟨b.toArray⟩ with
  | none => exact .nil
  | some s => exact joined_py s

end TrustFlow
