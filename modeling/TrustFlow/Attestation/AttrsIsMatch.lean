import TrustFlow.Attestation.Attributes
import TrustFlow.Crypto
import TrustFlow.Data.Hex
import TrustFlow.Data.Stoi
import TrustFlow.Exception

/-! # Matching attributes against one rule

`attrsIsMatch` compares the attributes of a report with one rule of a policy,
field by field and in the order of the source.  The three comparison helpers fail
in different ways:

* `isStrEqual` throws on a mismatch, so no `false` ever comes out of it;
* `isBoolEqual` and `isGreaterEqualThan` return a failed check with its text.

`MeetsRule` says what the fields have to satisfy, without the order and without
the way a failure leaves the function.  `attrsIsMatch_eq_pass` and
`attrsIsMatch_eq_fail` connect the two.
-/

namespace TrustFlow.Attestation

/-! ## Comparison helpers -/

def kUaAttrPlatform : Bytes := str "PLATFORM"
def kUaAttrPlatformHwVer : Bytes := str "PLATFORMHWVERSION"
def kUaAttrPlatformSwVer : Bytes := str "PLATFORMSWVERSION"
def kUaAttrSecureFlags : Bytes := str "SECUREFLAGS"
def kUaAttrMrplatform : Bytes := str "MRPLATFORM"
def kUaAttrMrboot : Bytes := str "MRBOOT"
def kUaAttrMrTa : Bytes := str "MRTRUSTAPP"
def kUaAttrMrTaDyn : Bytes := str "MRTRUSTAPPDYN"
def kUaAttrSigner : Bytes := str "SIGNER"
def kUaAttrProdID : Bytes := str "PRODID"
def kUaAttrIsvSvn : Bytes := str "ISVSVN"
def kUaAttrDebugDisabled : Bytes := str "DEBUGDISABLED"
def kUaAttrUserData : Bytes := str "USERDATA"
def kUaAttrPublickey : Bytes := str "PUBLICKEY"
def kUaAttrNonce : Bytes := str "NONCE"

/-- What a comparison helper returns: `fail` carries the text it stores in `*error_msg`. -/
inductive CheckResult where
  | pass
  | fail (errorMsg : Bytes)
deriving DecidableEq, Repr

def notMatchText (name actualValue expectedValue : Bytes) : Bytes :=
  name ++ str " is not match: actual " ++ actualValue ++ str " vs expected " ++
    expectedValue ++ str "."

/-- `IsStrEqual`.  The message is stored first, but `YACL_ENFORCE` throws before the function
    can return `false`. -/
def isStrEqual (name actualValue expectedValue : Bytes) (required : Bool) :
    Except Exn CheckResult := do
  let result := (expectedValue.isEmpty && !required) || equalsIgnoreCase expectedValue actualValue
  enforce (result = true) (notMatchText name actualValue expectedValue)
  return if result then .pass else .fail (notMatchText name actualValue expectedValue)

def strToBoolean (boolStr : Bytes) : Bool :=
  equalsIgnoreCase boolStr (str "true") || boolStr == str "1"

def isBoolEqual (name actualValue expectedValue : Bytes) (required : Bool) : CheckResult :=
  let result := (expectedValue.isEmpty && !required) ||
    strToBoolean expectedValue == strToBoolean actualValue
  if result then .pass else .fail (notMatchText name actualValue expectedValue)

/-- `IsGreaterEqualThan`.  Both exceptions of `std::stoi` are caught and turned into a
    failed check. -/
def isGreaterEqualThan (name actualValue expectedValue : Bytes) (required : Bool) : CheckResult :=
  if expectedValue.isEmpty && !required then .pass
  else
    -- C++ leaves the order of the two conversions open; it shows only if both throw.
    let compared : Except StoiError Bool := do
      let expected ← stoi expectedValue
      let actual ← stoi actualValue
      return decide (expected ≤ actual)
    match compared with
    | .ok true => .pass
    | .ok false =>
      .fail (name ++ str " is not match: actual " ++ actualValue ++
        str " is not large than expected " ++ expectedValue ++ str ".")
    | .error .invalidArgument =>
      .fail (str "std::invalid_argument, actual " ++ actualValue ++ str " or expected " ++
        expectedValue)
    | .error .outOfRange =>
      .fail (str "std::out_of_range, actual " ++ actualValue ++ str " or expected " ++
        expectedValue)

/-! ## The match -/

/-- Runs the checks of a rule one after the other, up to the first that does not pass. -/
def firstFailure : List (Except Exn CheckResult) → Except Exn CheckResult
  | [] => .ok .pass
  | .ok .pass :: checks => firstFailure checks
  | .ok (.fail errorMsg) :: _ => .ok (.fail errorMsg)
  | .error e :: _ => .error e

def expectedHashHex (H : Sha256) (hexHashOrPemPubkey : Bytes) : Bytes :=
  bytesToHexString (H.hash hexHashOrPemPubkey)

def attrsIsMatch (H : Sha256) (actual expected : UnifiedAttestationAttributes) :
    Except Exn CheckResult :=
  firstFailure [
    isStrEqual kUaAttrPlatform actual.strTeePlatform expected.strTeePlatform false,
    isStrEqual kUaAttrPlatformHwVer actual.hexPlatformHwVersion
      expected.hexPlatformHwVersion false,
    isStrEqual kUaAttrPlatformSwVer actual.hexPlatformSwVersion
      expected.hexPlatformSwVersion false,
    isStrEqual kUaAttrSecureFlags actual.hexSecureFlags expected.hexSecureFlags false,
    isStrEqual kUaAttrMrplatform actual.hexPlatformMeasurement
      expected.hexPlatformMeasurement false,
    isStrEqual kUaAttrMrboot actual.hexBootMeasurement expected.hexBootMeasurement false,
    isStrEqual kUaAttrMrTa actual.hexTaMeasurement expected.hexTaMeasurement false,
    isStrEqual kUaAttrMrTaDyn actual.hexTaDynMeasurement expected.hexTaDynMeasurement false,
    isStrEqual kUaAttrSigner actual.hexSigner expected.hexSigner false,
    isStrEqual kUaAttrProdID actual.hexProdId expected.hexProdId false,
    .ok (isGreaterEqualThan kUaAttrIsvSvn actual.strMinIsvsvn expected.strMinIsvsvn false),
    .ok (isBoolEqual kUaAttrDebugDisabled actual.boolDebugDisabled
      expected.boolDebugDisabled false),
    isStrEqual kUaAttrUserData actual.hexUserData expected.hexUserData false,
    -- The public key of the rule is hashed whatever it is, an empty one asks nothing.
    if expected.hexHashOrPemPubkey.isEmpty then .ok .pass
    else isStrEqual kUaAttrPublickey actual.hexHashOrPemPubkey
      (expectedHashHex H expected.hexHashOrPemPubkey) false,
    isStrEqual kUaAttrNonce actual.hexNonce expected.hexNonce false]

/-! ## What the fields have to satisfy -/

def strMet (actual expected : Bytes) : Bool :=
  expected.isEmpty || equalsIgnoreCase expected actual

/-- The minimal ISV SVN is met when the rule leaves it empty or both texts convert and the
    actual number is not smaller. -/
def svnMet (actual expected : Bytes) : Bool :=
  expected.isEmpty ||
    match stoi expected, stoi actual with
    | .ok e, .ok a => decide (e ≤ a)
    | _, _ => false

def debugMet (actual expected : Bytes) : Bool :=
  expected.isEmpty || strToBoolean expected == strToBoolean actual

def pubkeyMet (H : Sha256) (actual expected : Bytes) : Bool :=
  expected.isEmpty || equalsIgnoreCase (expectedHashHex H expected) actual

/-- The ten string fields that are compared before the ISV SVN. -/
def EarlyFieldsMet (actual expected : UnifiedAttestationAttributes) : Prop :=
  strMet actual.strTeePlatform expected.strTeePlatform = true ∧
  strMet actual.hexPlatformHwVersion expected.hexPlatformHwVersion = true ∧
  strMet actual.hexPlatformSwVersion expected.hexPlatformSwVersion = true ∧
  strMet actual.hexSecureFlags expected.hexSecureFlags = true ∧
  strMet actual.hexPlatformMeasurement expected.hexPlatformMeasurement = true ∧
  strMet actual.hexBootMeasurement expected.hexBootMeasurement = true ∧
  strMet actual.hexTaMeasurement expected.hexTaMeasurement = true ∧
  strMet actual.hexTaDynMeasurement expected.hexTaDynMeasurement = true ∧
  strMet actual.hexSigner expected.hexSigner = true ∧
  strMet actual.hexProdId expected.hexProdId = true

/-- The two fields whose mismatch is returned and not thrown. -/
def CountedFieldsMet (actual expected : UnifiedAttestationAttributes) : Prop :=
  svnMet actual.strMinIsvsvn expected.strMinIsvsvn = true ∧
  debugMet actual.boolDebugDisabled expected.boolDebugDisabled = true

/-- The string fields that are compared after the debug flag. -/
def LateFieldsMet (H : Sha256) (actual expected : UnifiedAttestationAttributes) : Prop :=
  strMet actual.hexUserData expected.hexUserData = true ∧
  pubkeyMet H actual.hexHashOrPemPubkey expected.hexHashOrPemPubkey = true ∧
  strMet actual.hexNonce expected.hexNonce = true

def MeetsRule (H : Sha256) (actual expected : UnifiedAttestationAttributes) : Prop :=
  EarlyFieldsMet actual expected ∧ CountedFieldsMet actual expected ∧
    LateFieldsMet H actual expected

instance (actual expected : UnifiedAttestationAttributes) :
    Decidable (EarlyFieldsMet actual expected) := by
  unfold EarlyFieldsMet; infer_instance

instance (actual expected : UnifiedAttestationAttributes) :
    Decidable (CountedFieldsMet actual expected) := by
  unfold CountedFieldsMet; infer_instance

instance (H : Sha256) (actual expected : UnifiedAttestationAttributes) :
    Decidable (LateFieldsMet H actual expected) := by
  unfold LateFieldsMet; infer_instance

instance (H : Sha256) (actual expected : UnifiedAttestationAttributes) :
    Decidable (MeetsRule H actual expected) := by
  unfold MeetsRule; infer_instance

/-! ## One check at a time -/

theorem isStrEqual_eq (name actual expected : Bytes) :
    isStrEqual name actual expected false =
      if strMet actual expected then .ok .pass
      else .error ⟨.enforceNotMet, notMatchText name actual expected⟩ := by
  by_cases h : strMet actual expected = true
  · have hresult : (expected.isEmpty && !false || equalsIgnoreCase expected actual) = true := by
      simpa [strMet] using h
    simp only [isStrEqual, hresult, h, if_true]
    rfl
  · have hresult : ¬ (expected.isEmpty && !false || equalsIgnoreCase expected actual) = true := by
      simpa [strMet] using h
    simp only [isStrEqual, enforce_neg _ hresult, h]
    rfl

theorem isBoolEqual_eq_pass (name actual expected : Bytes) :
    isBoolEqual name actual expected false = .pass ↔ debugMet actual expected = true := by
  simp only [isBoolEqual, debugMet, Bool.not_false, Bool.and_true]
  split <;> simp_all

theorem isGreaterEqualThan_eq_pass (name actual expected : Bytes) :
    isGreaterEqualThan name actual expected false = .pass ↔ svnMet actual expected = true := by
  simp only [isGreaterEqualThan, svnMet, Bool.not_false, Bool.and_true]
  cases hempty : expected.isEmpty with
  | true => simp
  | false =>
    -- A text that does not convert fails the check, whichever side it is on.
    cases he : stoi expected with
    | error err => cases err <;> simp [Bind.bind, Except.bind]
    | ok e =>
      cases ha : stoi actual with
      | error err => cases err <;> simp [Bind.bind, Except.bind]
      | ok a =>
        by_cases hle : e ≤ a
        · simp [Bind.bind, Except.bind, Pure.pure, Except.pure, hle]
        · simp [Bind.bind, Except.bind, Pure.pure, Except.pure, hle]

theorem firstFailure_str_cons (name actual expected : Bytes)
    (checks : List (Except Exn CheckResult)) (r : CheckResult) :
    firstFailure (isStrEqual name actual expected false :: checks) = .ok r ↔
      strMet actual expected = true ∧ firstFailure checks = .ok r := by
  rw [isStrEqual_eq]
  split
  · next h => simp [firstFailure, h]
  · next h => simp [firstFailure, h]

theorem firstFailure_ok_cons_pass (c : CheckResult) (checks : List (Except Exn CheckResult)) :
    firstFailure (.ok c :: checks) = .ok .pass ↔ c = .pass ∧ firstFailure checks = .ok .pass := by
  cases c <;> simp [firstFailure]

theorem firstFailure_ok_cons_fail (c : CheckResult) (checks : List (Except Exn CheckResult)) :
    (∃ m, firstFailure (.ok c :: checks) = .ok (.fail m)) ↔
      c ≠ .pass ∨ c = .pass ∧ ∃ m, firstFailure checks = .ok (.fail m) := by
  cases c <;> simp [firstFailure]

theorem firstFailure_pubkey_cons (H : Sha256) (actual expected : Bytes)
    (checks : List (Except Exn CheckResult)) (r : CheckResult) :
    firstFailure ((if expected.isEmpty then .ok .pass
        else isStrEqual kUaAttrPublickey actual (expectedHashHex H expected) false) :: checks) =
          .ok r ↔
      pubkeyMet H actual expected = true ∧ firstFailure checks = .ok r := by
  cases hempty : expected.isEmpty with
  | true => simp [firstFailure, pubkeyMet, hempty]
  | false =>
    -- A digest is never the empty text that would switch the comparison off.
    have hne : (expectedHashHex H expected).isEmpty = false := by
      rw [List.isEmpty_eq_false_iff]
      intro hnil
      have hlen : (expectedHashHex H expected).length = 64 := by
        simp [expectedHashHex, H.hash_length]
      rw [hnil] at hlen
      cases hlen
    simp only [Bool.false_eq_true, if_false, firstFailure_str_cons, strMet, hne, Bool.false_or,
      pubkeyMet, hempty]

/-! ## The whole match -/

/-- A match comes out exactly when every field check of the rule is satisfied. -/
theorem attrsIsMatch_eq_pass (H : Sha256) (actual expected : UnifiedAttestationAttributes) :
    attrsIsMatch H actual expected = .ok .pass ↔ MeetsRule H actual expected := by
  simp only [attrsIsMatch, firstFailure_str_cons, firstFailure_ok_cons_pass,
    firstFailure_pubkey_cons, isBoolEqual_eq_pass, isGreaterEqualThan_eq_pass, firstFailure,
    MeetsRule, EarlyFieldsMet, CountedFieldsMet, LateFieldsMet, and_assoc, and_true]

/-- A failed match is returned, and the loop over the rules goes on, exactly when the string
    fields up to the product id agree and the ISV SVN or the debug flag does not. -/
theorem attrsIsMatch_eq_fail (H : Sha256) (actual expected : UnifiedAttestationAttributes) :
    (∃ m, attrsIsMatch H actual expected = .ok (.fail m)) ↔
      EarlyFieldsMet actual expected ∧ ¬ CountedFieldsMet actual expected := by
  -- No check after the debug flag can return a failure.
  have hlate : ∀ m, firstFailure [
      isStrEqual kUaAttrUserData actual.hexUserData expected.hexUserData false,
      if expected.hexHashOrPemPubkey.isEmpty then .ok .pass
      else isStrEqual kUaAttrPublickey actual.hexHashOrPemPubkey
        (expectedHashHex H expected.hexHashOrPemPubkey) false,
      isStrEqual kUaAttrNonce actual.hexNonce expected.hexNonce false] ≠ .ok (.fail m) := by
    intro m h
    simp only [firstFailure_str_cons, firstFailure_pubkey_cons, firstFailure] at h
    exact absurd h.2.2.2 (by simp)
  simp only [attrsIsMatch, firstFailure_str_cons, exists_and_left, firstFailure_ok_cons_fail,
    ne_eq, isBoolEqual_eq_pass, isGreaterEqualThan_eq_pass, hlate, exists_false, and_false,
    or_false, EarlyFieldsMet, CountedFieldsMet, and_assoc, not_and_or]
  tauto

end TrustFlow.Attestation
