import TrustFlow.Attestation.AttrsIsMatch
import TrustFlow.Attestation.Sgx2Verifier

/-! # The minimal ISV SVN

A rule gives the smallest security version number it takes as a text, and the parser
of the report gives the number of the quote as a text.  Both are converted by
`std::stoi` and compared.

* `svnMet_of_leadingInteger` — what the comparison makes of the integer that the text of
  the rule starts with;
* `minSvn_numeric_iff` — when that is the comparison of two numbers. -/

namespace TrustFlow.Attestation

/-- The 16-bit `report_body.isv_svn`. -/
def Sgx2AttestationVerifier.isvSvn (quote : Bytes) : Nat := leNat (slice quote offIsvSvn 2)

/-- The check passes exactly for the texts of the integers up to `svn`. -/
def SvnNumeric (svn : Nat) (actual expected : Bytes) : Prop :=
  isGreaterEqualThan kUaAttrIsvSvn actual expected false = .pass ↔
    ∃ value : Int, IsInteger expected value ∧ value ≤ svn

/-- Nothing follows the integer that the text starts with and it is not below the range of `int`,
    or something follows it and it is refused all the same. -/
def SvnText (svn : Nat) (expected : Bytes) : Prop :=
  ∀ front rest value, expected = front ++ rest → IsInteger front value → NoDigitFirst rest →
    if rest = [] then -(2 ^ 31) ≤ value else value < -(2 ^ 31) ∨ (svn : Int) < value

theorem isInteger_iff_leadingInteger {text : Bytes} {value : Int} :
    IsInteger text value ↔ leadingInteger text = some (value, []) := by
  constructor
  · intro h
    have hlead := leadingInteger_append h (show NoDigitFirst [] by simp [NoDigitFirst])
    rwa [List.append_nil] at hlead
  · intro h
    obtain ⟨front, htext, hinteger, _⟩ := leadingInteger_eq_some h
    rw [List.append_nil] at htext
    rwa [htext]

theorem isInteger_iff_of_leadingInteger {text rest : Bytes} {value value' : Int}
    (h : leadingInteger text = some (value, rest)) :
    IsInteger text value' ↔ value' = value ∧ rest = [] := by
  rw [isInteger_iff_leadingInteger, h]
  simp [eq_comm]

/-- A text that does not start with an integer fails the check. -/
theorem svnMet_of_no_integer {actual expected : Bytes} (hne : expected ≠ [])
    (h : leadingInteger expected = none) : svnMet actual expected = false := by
  have hempty : expected.isEmpty = false := by simp [hne]
  simp [svnMet, hempty, stoi_eq expected, h]

/-- What follows the leading integer plays no part in the comparison. -/
theorem svnMet_of_leadingInteger {svn : Nat} (hsvn : svn < 2 ^ 16) {expected rest : Bytes}
    {value : Int} (hne : expected ≠ []) (h : leadingInteger expected = some (value, rest)) :
    svnMet (decimal svn) expected = true ↔ -(2 ^ 31) ≤ value ∧ value ≤ svn := by
  have hactual : stoi (decimal svn) = .ok (svn : Int) := stoi_decimal (by omega)
  have hempty : expected.isEmpty = false := by simp [hne]
  have hexpected := stoi_eq expected
  simp only [h] at hexpected
  by_cases hrange : -(2 ^ 31) ≤ value ∧ value < 2 ^ 31
  · rw [if_pos hrange] at hexpected
    simp only [svnMet, hempty, hexpected, hactual, Bool.false_or, decide_eq_true_eq]
    omega
  · rw [if_neg hrange] at hexpected
    simp only [svnMet, hempty, hexpected, Bool.false_or, Bool.false_eq_true, false_iff]
    omega

/-- The split of a text behind its leading integer is the only one. -/
theorem svnText_iff {svn : Nat} {expected rest : Bytes} {value : Int}
    (h : leadingInteger expected = some (value, rest)) :
    SvnText svn expected ↔
      if rest = [] then -(2 ^ 31) ≤ value else value < -(2 ^ 31) ∨ (svn : Int) < value := by
  obtain ⟨front, htext, hinteger, hrest⟩ := leadingInteger_eq_some h
  constructor
  · intro hsafe
    exact hsafe front rest value htext hinteger hrest
  · intro hsafe front' rest' value' htext' hinteger' hrest'
    rw [htext', leadingInteger_append hinteger' hrest'] at h
    cases h
    exact hsafe

theorem svnNumeric_iff {svn : Nat} (hsvn : svn < 2 ^ 16) {expected : Bytes}
    (hne : expected ≠ []) : SvnNumeric svn (decimal svn) expected ↔ SvnText svn expected := by
  rw [SvnNumeric, isGreaterEqualThan_eq_pass]
  cases hlead : leadingInteger expected with
  | none =>
    -- The check fails, the text is not an integer, and there is no split to ask about.
    have hnone : ∀ value, ¬ IsInteger expected value := by
      intro value hinteger
      rw [isInteger_iff_leadingInteger, hlead] at hinteger
      cases hinteger
    have htext : SvnText svn expected := by
      intro front rest value htext hinteger hrest
      rw [htext, leadingInteger_append hinteger hrest] at hlead
      cases hlead
    simp [svnMet_of_no_integer hne hlead, hnone, htext]
  | some found =>
    obtain ⟨value, rest⟩ := found
    have hinteger : (∃ value' : Int, IsInteger expected value' ∧ value' ≤ svn) ↔
        rest = [] ∧ value ≤ svn := by
      simp only [isInteger_iff_of_leadingInteger hlead, and_assoc, exists_eq_left]
    rw [svnMet_of_leadingInteger hsvn hne hlead, hinteger, svnText_iff hlead]
    by_cases hend : rest = []
    · simp only [hend, if_true, true_and]
      omega
    · simp only [hend, if_false, false_and, iff_false]
      omega

/-- The check of a rule against the SVN of a quote is the comparison of two numbers if and only
    if the text of the rule is an integer not below the range of `int`, or its leading integer is
    refused whatever follows it. -/
theorem minSvn_numeric_iff {beyond : Nat → UInt8} {v : DcapVerifier} {log log' : List Access}
    {attrs : UnifiedAttestationAttributes}
    (hparse : (Sgx2AttestationVerifier.parseUnifiedReport beyond v).run log = .ok (attrs, log'))
    {expected : Bytes} (hne : expected ≠ []) :
    SvnNumeric (Sgx2AttestationVerifier.isvSvn v.quote) attrs.strMinIsvsvn expected ↔
      SvnText (Sgx2AttestationVerifier.isvSvn v.quote) expected := by
  obtain ⟨hsize, rfl, _⟩ := Sgx2AttestationVerifier.parseUnifiedReport_eq_ok.mp hparse
  have hword : (slice v.quote Sgx2AttestationVerifier.offIsvSvn 2).length = 2 := by
    apply slice_length
    exact le_trans (by decide) hsize
  have hsvn : Sgx2AttestationVerifier.isvSvn v.quote < 2 ^ 16 := by
    have hlt := leNat_lt (slice v.quote Sgx2AttestationVerifier.offIsvSvn 2)
    rw [hword] at hlt
    exact hlt
  exact svnNumeric_iff hsvn hne

/-- A quote with the SVN 7, all zero otherwise. -/
def svnQuote : Bytes := List.replicate 306 0 ++ [7, 0] ++ List.replicate 128 0

theorem svnQuote_parses :
    (Sgx2AttestationVerifier.parseUnifiedReport (fun _ => 0)
        { report := {}, quote := svnQuote }).run [] =
      .ok (Sgx2AttestationVerifier.attributes { report := {}, quote := svnQuote },
        Sgx2AttestationVerifier.accesses svnQuote.length) :=
  Sgx2AttestationVerifier.parseUnifiedReport_of_size _ _ (by decide +kernel)

/-- The SVN 7 is compared with 5 as a number. -/
theorem minSvn_numeric_five :
    SvnNumeric 7 (Sgx2AttestationVerifier.attributes
      { report := {}, quote := svnQuote }).strMinIsvsvn (str "5") := by
  have hfive : leadingInteger (str "5") = some (5, []) := by decide
  have hnumeric := minSvn_numeric_iff svnQuote_parses (show str "5" ≠ [] by decide)
  refine hnumeric.mpr ((svnText_iff hfive).mpr ?_)
  decide

/-- With the SVN 7, a text that only starts with an integer passes, and an integer below every
    SVN does not. -/
theorem minSvn_not_numeric :
    ¬ SvnNumeric 7 (Sgx2AttestationVerifier.attributes
        { report := {}, quote := svnQuote }).strMinIsvsvn (str "5x") ∧
      ¬ SvnNumeric 7 (Sgx2AttestationVerifier.attributes
        { report := {}, quote := svnQuote }).strMinIsvsvn (str "-2147483649") := by
  have htrailing : leadingInteger (str "5x") = some (5, str "x") := by decide
  have hlarge : leadingInteger (str "-2147483649") = some (-2147483649, []) := by decide
  have hseven : (Sgx2AttestationVerifier.attributes
      { report := {}, quote := svnQuote }).strMinIsvsvn = decimal 7 := by decide
  rw [hseven]
  refine ⟨?_, ?_⟩
  · rw [svnNumeric_iff (by decide) (by decide), svnText_iff htrailing]
    decide
  · rw [svnNumeric_iff (by decide) (by decide), svnText_iff hlarge]
    decide

end TrustFlow.Attestation
