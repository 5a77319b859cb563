import TrustFlow.Data.Bytes
import Mathlib.Data.List.TakeWhile

/-! # `std::stoi`

The conversion of the C++ standard library at base 10: skip white space, take an
optional sign, convert the longest run of digits, and ignore what follows it. -/

namespace TrustFlow

inductive StoiError where
  | invalidArgument
  | outOfRange
deriving DecidableEq, Repr

/-- `std::isspace` in the C locale. -/
def isSpace (c : UInt8) : Bool := c == 32 || (9 ≤ c && c ≤ 13)

def isDigit (c : UInt8) : Bool := 48 ≤ c && c ≤ 57

def digitsValue (digits : Bytes) : Nat :=
  digits.foldl (fun acc d => acc * 10 + (d.toNat - 48)) 0

def splitSign : Bytes → Bool × Bytes
  | 45 :: rest => (true, rest)
  | 43 :: rest => (false, rest)
  | text => (false, text)

/-- `std::stoi`, which throws `std::invalid_argument` when there is no digit to
    convert and `std::out_of_range` when the value does not fit in an `int`. -/
def stoi (text : Bytes) : Except StoiError Int :=
  let (negative, rest) := splitSign (text.dropWhile isSpace)
  let digits := rest.takeWhile isDigit
  if digits = [] then .error .invalidArgument
  else
    let value : Int := if negative then -(digitsValue digits : Int) else digitsValue digits
    if -(2 ^ 31) ≤ value ∧ value < 2 ^ 31 then .ok value else .error .outOfRange

-- The longest convertible part at the start decides: a hexadecimal number reads as its
-- leading zero.
example : stoi (str "0x10") = .ok 0 := by rfl
example : stoi (str " -12") = .ok (-12) := by rfl

/-! ## Texts of integers -/

/-- White space, a sign or none, and digits, with nothing behind them. -/
structure IntegerText (text : Bytes) (value : Int) (spaces sign digits : Bytes) : Prop where
  text_eq : text = spaces ++ (sign ++ digits)
  areSpaces : ∀ c ∈ spaces, isSpace c = true
  isSign : sign = [] ∨ sign = [43] ∨ sign = [45]
  digits_ne : digits ≠ []
  areDigits : ∀ c ∈ digits, isDigit c = true
  value_eq : value = if sign = [45] then -(digitsValue digits : Int) else digitsValue digits

def IsInteger (text : Bytes) (value : Int) : Prop :=
  ∃ spaces sign digits, IntegerText text value spaces sign digits

def NoDigitFirst (text : Bytes) : Prop := ∀ c ∈ text.head?, isDigit c = false

/-- The integer that a text starts with, and what follows it. -/
def leadingInteger (text : Bytes) : Option (Int × Bytes) :=
  let (negative, rest) := splitSign (text.dropWhile isSpace)
  let digits := rest.takeWhile isDigit
  if digits = [] then none
  else some (if negative then -(digitsValue digits : Int) else digitsValue digits,
    rest.dropWhile isDigit)

theorem stoi_eq (text : Bytes) :
    stoi text = match leadingInteger text with
      | none => .error .invalidArgument
      | some (value, _) =>
        if -(2 ^ 31) ≤ value ∧ value < 2 ^ 31 then .ok value else .error .outOfRange := by
  simp only [stoi, leadingInteger]
  split
  next => rfl
  next => rfl

theorem isDigit_not_isSpace {c : UInt8} (h : isDigit c = true) : isSpace c = false := by
  simp only [isDigit, isSpace, Bool.and_eq_true, decide_eq_true_eq, Bool.or_eq_false_iff,
    beq_eq_false_iff_ne, ne_eq, Bool.and_eq_false_iff, decide_eq_false_iff_not] at h ⊢
  simp only [UInt8.le_iff_toNat_le, UInt8.reduceToNat, ← UInt8.toNat_inj] at h ⊢
  omega

theorem splitSign_of_digit {c : UInt8} (h : isDigit c = true) (text : Bytes) :
    splitSign (c :: text) = (false, c :: text) := by
  have hminus : c ≠ 45 := by
    intro heq
    rw [heq] at h
    exact absurd h (by decide)
  have hplus : c ≠ 43 := by
    intro heq
    rw [heq] at h
    exact absurd h (by decide)
  simp [splitSign, hminus, hplus]

theorem takeWhile_digits {digits rest : Bytes} (hdigits : ∀ c ∈ digits, isDigit c = true)
    (hrest : NoDigitFirst rest) :
    (digits ++ rest).takeWhile isDigit = digits ∧ (digits ++ rest).dropWhile isDigit = rest := by
  rw [List.takeWhile_append_of_pos hdigits, List.dropWhile_append_of_pos hdigits]
  cases rest with
  | nil => simp
  | cons c rest =>
    have hc := hrest c rfl
    simp [hc]

/-- The integer in front of a text is found, if no digit follows it. -/
theorem leadingInteger_append {front rest : Bytes} {value : Int} (h : IsInteger front value)
    (hrest : NoDigitFirst rest) : leadingInteger (front ++ rest) = some (value, rest) := by
  obtain ⟨spaces, sign, digits, htext⟩ := h
  obtain ⟨c, digits', hdigits⟩ := List.exists_cons_of_ne_nil htext.digits_ne
  have hc : isDigit c = true := htext.areDigits c (by simp [hdigits])
  have hafter : front ++ rest = spaces ++ (sign ++ (digits ++ rest)) := by
    rw [htext.text_eq]
    simp
  -- What follows the white space is a sign or a digit.
  have hspace : (sign ++ (digits ++ rest)).dropWhile isSpace = sign ++ (digits ++ rest) := by
    rcases htext.isSign with hsign | hsign | hsign
    · simp [hsign, hdigits, isDigit_not_isSpace hc]
    · rw [hsign]
      rfl
    · rw [hsign]
      rfl
  have hsplit : splitSign (sign ++ (digits ++ rest)) = (decide (sign = [45]), digits ++ rest) := by
    rcases htext.isSign with hsign | hsign | hsign
    · rw [hsign, List.nil_append, hdigits]
      exact splitSign_of_digit hc _
    · rw [hsign]
      rfl
    · rw [hsign]
      rfl
  obtain ⟨htake, hdrop⟩ := takeWhile_digits htext.areDigits hrest
  rw [hafter, leadingInteger, List.dropWhile_append_of_pos htext.areSpaces, hspace, hsplit]
  simp [htake, hdrop, htext.digits_ne, htext.value_eq]

theorem splitSign_append {text rest : Bytes} {negative : Bool}
    (h : splitSign text = (negative, rest)) :
    ∃ sign, (sign = [] ∨ sign = [43] ∨ sign = [45]) ∧ text = sign ++ rest ∧
      negative = decide (sign = [45]) := by
  unfold splitSign at h
  split at h
  next =>
    cases h
    exact ⟨[45], by simp, rfl, rfl⟩
  next =>
    cases h
    exact ⟨[43], by simp, rfl, rfl⟩
  next =>
    cases h
    exact ⟨[], by simp, rfl, rfl⟩

theorem leadingInteger_eq_some {text rest : Bytes} {value : Int}
    (h : leadingInteger text = some (value, rest)) :
    ∃ front, text = front ++ rest ∧ IsInteger front value ∧ NoDigitFirst rest := by
  simp only [leadingInteger] at h
  cases hsplit : splitSign (text.dropWhile isSpace) with
  | mk negative after =>
    rw [hsplit] at h
    simp only at h
    split at h
    next => cases h
    next hdigits =>
      cases h
      obtain ⟨sign, hsign, hafter, hnegative⟩ := splitSign_append hsplit
      refine ⟨text.takeWhile isSpace ++ (sign ++ after.takeWhile isDigit), ?_, ?_, ?_⟩
      · calc
          text = text.takeWhile isSpace ++ text.dropWhile isSpace := by simp
          _ = text.takeWhile isSpace ++
              (sign ++ (after.takeWhile isDigit ++ after.dropWhile isDigit)) := by
            rw [hafter, List.takeWhile_append_dropWhile]
          _ = _ := by simp
      · refine ⟨_, sign, _, rfl, ?_, hsign, hdigits, ?_, by simp [hnegative]⟩
        · exact fun c hc => List.mem_takeWhile_imp hc
        · exact fun c hc => List.mem_takeWhile_imp hc
      · intro c hc
        have hne : after.dropWhile isDigit ≠ [] := by
          intro hnil
          rw [hnil] at hc
          cases hc
        have hhead := List.head_dropWhile_not isDigit hne
        rw [List.head?_eq_some_head hne] at hc
        cases hc
        exact hhead

/-! ## The text of a number -/

theorem decimal_of_lt {n : Nat} (h : n < 10) : decimal n = [UInt8.ofNat (48 + n)] := by
  have hall : ∀ k : Fin 10, decimal k = [UInt8.ofNat (48 + k)] := by decide
  exact hall ⟨n, h⟩

theorem decimal_of_le {n : Nat} (h : 10 ≤ n) :
    decimal n = decimal (n / 10) ++ decimal (n % 10) := by
  have hdigits := Nat.toDigits_of_base_le (show 1 < 10 by decide) h
  have hlast := Nat.toDigits_of_lt_base (Nat.mod_lt n (show 0 < 10 by decide))
  simp only [decimal, str, Nat.repr_eq_ofList_toDigits, String.toByteArray_ofList, hdigits, hlast,
    List.utf8Encode_append, ByteArray.data_append, Array.toList_append]

theorem digitsValue_append (digits : Bytes) (d : UInt8) :
    digitsValue (digits ++ [d]) = digitsValue digits * 10 + (d.toNat - 48) := by
  simp [digitsValue]

/-- The text of a number has only digits, and their value is the number. -/
theorem decimal_digits (n : Nat) :
    decimal n ≠ [] ∧ (∀ c ∈ decimal n, isDigit c = true) ∧ digitsValue (decimal n) = n := by
  induction n using Nat.strongRecOn with
  | ind n ih =>
    by_cases hn : n < 10
    · rw [decimal_of_lt hn]
      refine ⟨by simp, ?_, ?_⟩
      · simp [isDigit, UInt8.le_iff_toNat_le]
        omega
      · simp [digitsValue]
        omega
    · obtain ⟨hne, hdigits, hvalue⟩ := ih (n / 10) (by omega)
      obtain ⟨_, hdigits', hvalue'⟩ := ih (n % 10) (by omega)
      have hlast := decimal_of_lt (Nat.mod_lt n (show 0 < 10 by decide))
      rw [decimal_of_le (by omega)]
      refine ⟨by simp [hne], ?_, ?_⟩
      · intro c hc
        rcases List.mem_append.mp hc with hc | hc
        · exact hdigits c hc
        · exact hdigits' c hc
      · rw [hlast, digitsValue_append, hvalue, UInt8.toNat_ofNat']
        omega

theorem stoi_decimal {n : Nat} (h : n < 2 ^ 31) : stoi (decimal n) = .ok (n : Int) := by
  obtain ⟨hne, hdigits, hvalue⟩ := decimal_digits n
  have hinteger : IsInteger (decimal n) n :=
    ⟨[], [], decimal n, rfl, by simp, .inl rfl, hne, hdigits, by simp [hvalue]⟩
  have hlead := leadingInteger_append hinteger (show NoDigitFirst [] by simp [NoDigitFirst])
  rw [List.append_nil] at hlead
  rw [stoi_eq, hlead]
  have hrange : -(2 ^ 31) ≤ (n : Int) ∧ (n : Int) < 2 ^ 31 := by omega
  simp only [if_pos hrange]

end TrustFlow
