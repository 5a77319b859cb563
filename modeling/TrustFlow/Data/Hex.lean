import TrustFlow.Data.Bytes

/-! # Hexadecimal text and case-insensitive comparison

The string helpers of Abseil that the attestation code goes through, as their
documentation describes them:

* `bytesToHexString` — `absl::BytesToHexString`, two lower-case digits per byte;
* `hexStringToBytes` — `absl::HexStringToBytes` (the lenient one), half as many
  bytes as characters, a character that is no hex digit counting as nibble 0;
* `equalsIgnoreCase` — `absl::EqualsIgnoreCase`, ASCII letters compared without
  regard to case.
-/

namespace TrustFlow

/-! ## Encoding -/

def hexDigit (nibble : UInt8) : UInt8 :=
  if nibble < 10 then 48 + nibble else 87 + nibble

def bytesToHexString : Bytes → Bytes
  | [] => []
  | b :: bs => hexDigit (b >>> 4) :: hexDigit (b &&& 15) :: bytesToHexString bs

/-! ## Decoding -/

/-- Value of a hex digit of either case, 0 for every other character. -/
def hexValue (c : UInt8) : UInt8 :=
  if 48 ≤ c ∧ c ≤ 57 then c - 48
  else if 97 ≤ c ∧ c ≤ 102 then c - 87
  else if 65 ≤ c ∧ c ≤ 70 then c - 55
  else 0

/-- `absl::HexStringToBytes`: a trailing odd character is dropped. -/
def hexStringToBytes : Bytes → Bytes
  | hi :: lo :: rest => ((hexValue hi <<< 4) + hexValue lo) :: hexStringToBytes rest
  | _ => []

/-! ## ASCII case -/

def asciiToLower (c : UInt8) : UInt8 :=
  if 65 ≤ c ∧ c ≤ 90 then c + 32 else c

def equalsIgnoreCase (a b : Bytes) : Bool :=
  a.map asciiToLower == b.map asciiToLower

/-! ## Lengths -/

@[simp] theorem bytesToHexString_length (bs : Bytes) :
    (bytesToHexString bs).length = 2 * bs.length := by
  induction bs with
  | nil => rfl
  | cons b bs ih =>
    simp only [bytesToHexString, List.length_cons, ih]
    omega

theorem hexStringToBytes_length : ∀ text : Bytes,
    (hexStringToBytes text).length = text.length / 2
  | [] => rfl
  | [_] => by simp [hexStringToBytes]
  | _ :: _ :: rest => by
    simp only [hexStringToBytes, List.length_cons, hexStringToBytes_length rest]
    omega

/-! ## Injectivity -/

theorem nibbles_lt (b : UInt8) : b >>> 4 < 16 ∧ b &&& 15 < 16 := by
  have hb := b.toNat_lt
  constructor
  · rw [UInt8.lt_iff_toNat_lt]
    simp only [UInt8.toNat_shiftRight, Nat.shiftRight_eq_div_pow, UInt8.reduceToNat, Nat.reduceMod,
      Nat.reducePow]
    omega
  · rw [UInt8.lt_iff_toNat_lt, UInt8.toNat_and]
    exact Nat.lt_of_le_of_lt Nat.and_le_right (by decide)

theorem hexValue_hexDigit {n : UInt8} (h : n < 16) :
    hexValue (hexDigit n) = n ∧ asciiToLower (hexDigit n) = hexDigit n := by
  have hall : ∀ k : Fin 16, hexValue (hexDigit (UInt8.ofNat k)) = UInt8.ofNat k ∧
      asciiToLower (hexDigit (UInt8.ofNat k)) = hexDigit (UInt8.ofNat k) := by
    decide
  simpa using hall ⟨n.toNat, UInt8.lt_iff_toNat_lt.mp h⟩

theorem byte_of_nibbles (b : UInt8) : ((b >>> 4) <<< 4) + (b &&& 15) = b := by
  have hall : ∀ n : Fin 256,
      ((UInt8.ofFin n >>> 4) <<< 4) + (UInt8.ofFin n &&& 15) = UInt8.ofFin n := by
    decide +kernel
  exact hall b.toFin

theorem hexDigits_inj (a b : UInt8) (hhi : hexDigit (a >>> 4) = hexDigit (b >>> 4))
    (hlo : hexDigit (a &&& 15) = hexDigit (b &&& 15)) : a = b := by
  -- The two digits determine the two nibbles.
  have hhigh : a >>> 4 = b >>> 4 := by
    rw [← (hexValue_hexDigit (nibbles_lt a).1).1, hhi, (hexValue_hexDigit (nibbles_lt b).1).1]
  have hlow : a &&& 15 = b &&& 15 := by
    rw [← (hexValue_hexDigit (nibbles_lt a).2).1, hlo, (hexValue_hexDigit (nibbles_lt b).2).1]
  rw [← byte_of_nibbles a, ← byte_of_nibbles b, hhigh, hlow]

theorem asciiToLower_hexDigit (b : UInt8) :
    asciiToLower (hexDigit (b >>> 4)) = hexDigit (b >>> 4) ∧
      asciiToLower (hexDigit (b &&& 15)) = hexDigit (b &&& 15) :=
  ⟨(hexValue_hexDigit (nibbles_lt b).1).2, (hexValue_hexDigit (nibbles_lt b).2).2⟩

theorem bytesToHexString_inj : ∀ {as bs : Bytes},
    bytesToHexString as = bytesToHexString bs → as = bs
  | [], [], _ => rfl
  | [], _ :: _, h => by simp [bytesToHexString] at h
  | _ :: _, [], h => by simp [bytesToHexString] at h
  | a :: as, b :: bs, h => by
    simp only [bytesToHexString, List.cons.injEq] at h
    obtain ⟨hhi, hlo, hrest⟩ := h
    rw [hexDigits_inj a b hhi hlo, bytesToHexString_inj hrest]

theorem map_asciiToLower_bytesToHexString (bs : Bytes) :
    (bytesToHexString bs).map asciiToLower = bytesToHexString bs := by
  induction bs with
  | nil => rfl
  | cons b bs ih =>
    obtain ⟨hhi, hlo⟩ := asciiToLower_hexDigit b
    simp only [bytesToHexString, List.map_cons, hhi, hlo, ih]

theorem hexStringToBytes_bytesToHexString (bs : Bytes) :
    hexStringToBytes (bytesToHexString bs) = bs := by
  induction bs with
  | nil => rfl
  | cons b bs ih =>
    obtain ⟨hhi, hlo⟩ := nibbles_lt b
    simp only [bytesToHexString, hexStringToBytes, hexValue_hexDigit hhi, hexValue_hexDigit hlo,
      byte_of_nibbles, ih]

/-! ## Texts that are hex -/

def isHexDigit (c : UInt8) : Bool :=
  (48 ≤ c && c ≤ 57) || (97 ≤ c && c ≤ 102) || (65 ≤ c && c ≤ 70)

/-- A text of hex digits, two for each byte. -/
structure IsHexText (text : Bytes) : Prop where
  digits : ∀ c ∈ text, isHexDigit c = true
  even : 2 ∣ text.length

theorem hexDigit_hexValue (c : UInt8) (h : isHexDigit c = true) :
    hexValue c < 16 ∧ hexDigit (hexValue c) = asciiToLower c := by
  have hall : ∀ n : Fin 256, isHexDigit (UInt8.ofFin n) = true →
      hexValue (UInt8.ofFin n) < 16 ∧
        hexDigit (hexValue (UInt8.ofFin n)) = asciiToLower (UInt8.ofFin n) := by
    decide +kernel
  exact hall c.toFin h

theorem nibbles_of_byte {hi lo : UInt8} (hhi : hi < 16) (hlo : lo < 16) :
    ((hi <<< 4) + lo) >>> 4 = hi ∧ ((hi <<< 4) + lo) &&& 15 = lo := by
  have hall : ∀ a b : Fin 16,
      ((UInt8.ofNat a <<< 4) + UInt8.ofNat b) >>> 4 = UInt8.ofNat a ∧
        ((UInt8.ofNat a <<< 4) + UInt8.ofNat b) &&& 15 = UInt8.ofNat b := by
    decide
  have h := hall ⟨hi.toNat, UInt8.lt_iff_toNat_lt.mp hhi⟩ ⟨lo.toNat, UInt8.lt_iff_toNat_lt.mp hlo⟩
  simpa using h

/-- Decoding a hex text and encoding the bytes gives the text in lower case. -/
theorem bytesToHexString_hexStringToBytes : ∀ {text : Bytes}, IsHexText text →
    bytesToHexString (hexStringToBytes text) = text.map asciiToLower
  | [], _ => rfl
  | [_], h => absurd h.even (by simp)
  | hi :: lo :: rest, h => by
    obtain ⟨hhi, hhiText⟩ := hexDigit_hexValue hi (h.digits hi (by simp))
    obtain ⟨hlo, hloText⟩ := hexDigit_hexValue lo (h.digits lo (by simp))
    obtain ⟨hhigh, hlow⟩ := nibbles_of_byte hhi hlo
    have hrest : IsHexText rest := by
      refine ⟨fun c hc => h.digits c (by simp [hc]), ?_⟩
      have heven := h.even
      simp only [List.length_cons] at heven
      omega
    simp [hexStringToBytes, bytesToHexString, hhigh, hlow, hhiText, hloText,
      bytesToHexString_hexStringToBytes hrest]

theorem equalsIgnoreCase_iff {a b : Bytes} :
    equalsIgnoreCase a b = true ↔ a.map asciiToLower = b.map asciiToLower := by
  simp [equalsIgnoreCase]

@[simp] theorem equalsIgnoreCase_self (a : Bytes) : equalsIgnoreCase a a = true := by
  simp [equalsIgnoreCase]

theorem equalsIgnoreCase_bytesToHexString {as bs : Bytes} :
    equalsIgnoreCase (bytesToHexString as) (bytesToHexString bs) = true ↔ as = bs := by
  rw [equalsIgnoreCase_iff, map_asciiToLower_bytesToHexString, map_asciiToLower_bytesToHexString]
  exact ⟨bytesToHexString_inj, fun h => by rw [h]⟩

theorem equalsIgnoreCase_comm (a b : Bytes) : equalsIgnoreCase a b = equalsIgnoreCase b a := by
  simp [equalsIgnoreCase, Bool.beq_comm]

/-- A text is compared with the encoding of the bytes of a hex text as with that text. -/
theorem equalsIgnoreCase_decoded {text other : Bytes} (h : IsHexText text) :
    equalsIgnoreCase other (bytesToHexString (hexStringToBytes text)) =
      equalsIgnoreCase other text := by
  have hlower := map_asciiToLower_bytesToHexString (hexStringToBytes text)
  rw [bytesToHexString_hexStringToBytes h] at hlower
  simp only [equalsIgnoreCase, bytesToHexString_hexStringToBytes h, hlower]

/-- Hex texts stand for the same bytes exactly when they agree up to case. -/
theorem hexStringToBytes_eq_iff {a b : Bytes} (ha : IsHexText a) (hb : IsHexText b) :
    hexStringToBytes a = hexStringToBytes b ↔ equalsIgnoreCase a b = true := by
  rw [equalsIgnoreCase_iff, ← bytesToHexString_hexStringToBytes ha,
    ← bytesToHexString_hexStringToBytes hb]
  exact ⟨fun h => by rw [h], bytesToHexString_inj⟩

end TrustFlow
