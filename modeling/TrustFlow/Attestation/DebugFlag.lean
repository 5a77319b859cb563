import TrustFlow.Attestation.Verifier

/-! # The debug flag of a quote

A rule may demand that debugging is disabled.  Both DCAP parsers test the
attribute word of the quote with SGX's mask 0x2.  That is the DEBUG bit of an SGX
enclave, but the DEBUG bit of a trust domain is bit 0 of its `td_attributes`. -/

namespace TrustFlow.Attestation

def demandOf (rule : UnifiedAttestationAttributes) : UnifiedAttestationPolicy :=
  { mainAttributes := [rule] }

/-- DEBUG of an SGX enclave: bit 1 of `report_body.attributes.flags`. -/
def sgxDebug (quote : Bytes) : Bool := (Sgx2AttestationVerifier.flags quote).testBit 1

/-- DEBUG of a trust domain: bit 0 of `td_attributes`. -/
def tdxDebug (quote : Bytes) (body : Nat) : Bool :=
  (TdxAttestationVerifier.tdAttributes quote body).testBit 0

/-! ## Soundness of the demand -/

/-- No rule that demands debugging to be disabled is met by this SGX quote while its DEBUG bit
    is set. -/
def SgxDebugSound (H : Sha256) (beyond : Nat → UInt8) (v : DcapVerifier) : Prop :=
  ∀ rule attrs log, strToBoolean rule.boolDebugDisabled = true →
    (Sgx2AttestationVerifier.parseUnifiedReport beyond v).run [] = .ok (attrs, log) →
    verifyAttributes H attrs (demandOf rule) = .ok () → sgxDebug v.quote = false

/-- The same for a TDX quote, whose report body is where its version says. -/
def TdxDebugSound (H : Sha256) (beyond : Nat → UInt8) (v : DcapVerifier) : Prop :=
  ∀ rule attrs log body, strToBoolean rule.boolDebugDisabled = true →
    (TdxAttestationVerifier.parseUnifiedReport beyond v).run [] = .ok (attrs, log) →
    TdxAttestationVerifier.Readable v.quote body →
    verifyAttributes H attrs (demandOf rule) = .ok () → tdxDebug v.quote body = false

theorem debugMet_debugDisabledText {expected : Bytes} (h : strToBoolean expected = true)
    (flags : Nat) :
    debugMet (debugDisabledText flags) expected = true ↔ flags.testBit 1 = false := by
  -- A demand that reads as true is not the empty text.
  have hne : expected.isEmpty = false := by
    cases expected with
    | nil => exact absurd h (by decide)
    | cons _ _ => rfl
  have htrue : strToBoolean (str "true") = true := by decide
  have hfalse : strToBoolean (str "false") = false := by decide
  rw [debugMet, hne, h, debugDisabledText_eq]
  cases flags.testBit 1 <;> simp [htrue, hfalse]

def debugRule : UnifiedAttestationAttributes := { boolDebugDisabled := str "true" }

theorem meetsRule_debugRule (H : Sha256) (attrs : UnifiedAttestationAttributes)
    (h : debugMet attrs.boolDebugDisabled (str "true") = true) :
    MeetsRule H attrs debugRule := by
  simp [MeetsRule, EarlyFieldsMet, CountedFieldsMet, LateFieldsMet, debugRule, strMet, svnMet,
    pubkeyMet, h]

theorem sgxDebugSound (H : Sha256) (beyond : Nat → UInt8) (v : DcapVerifier) :
    SgxDebugSound H beyond v := by
  intro rule attrs log htruthy hparse hverify
  obtain ⟨_, rfl, _⟩ := Sgx2AttestationVerifier.parseUnifiedReport_eq_ok.mp hparse
  have hmeets := (verifyAttributes_singleton H _ rule _ rfl).mp hverify
  exact (debugMet_debugDisabledText htruthy _).mp hmeets.2.1.2

theorem tdxDebugSound_iff (H : Sha256) (beyond : Nat → UInt8) (v : DcapVerifier) :
    TdxDebugSound H beyond v ↔
      ∀ body, TdxAttestationVerifier.Readable v.quote body → tdxDebug v.quote body = true →
        (TdxAttestationVerifier.tdAttributes v.quote body).testBit 1 = true := by
  constructor
  · intro hsound body hbody hdebug
    -- With bit 1 clear, the rule that demands nothing else is met and bit 0 has to be clear.
    by_contra hclear
    have hparse := TdxAttestationVerifier.parseUnifiedReport_of_readable beyond [] hbody
    have hmet : debugMet (TdxAttestationVerifier.attributes beyond v body).boolDebugDisabled
        (str "true") = true := by
      rw [TdxAttestationVerifier.attributes_boolDebugDisabled beyond hbody,
        debugMet_debugDisabledText (by decide)]
      simpa using hclear
    have hverify := (verifyAttributes_singleton H _ debugRule (demandOf debugRule) rfl).mpr
      (meetsRule_debugRule H _ hmet)
    have hnot := hsound debugRule _ _ body (by decide) hparse hbody hverify
    rw [hdebug] at hnot
    cases hnot
  · intro hvisible rule attrs log body htruthy hparse hbody hverify
    rw [TdxAttestationVerifier.parseUnifiedReport_of_readable beyond [] hbody] at hparse
    cases hparse
    have hmeets := (verifyAttributes_singleton H _ rule _ rfl).mp hverify
    have hmet := hmeets.2.1.2
    rw [TdxAttestationVerifier.attributes_boolDebugDisabled beyond hbody,
      debugMet_debugDisabledText htruthy] at hmet
    -- A set DEBUG bit would set bit 1 as well, which the met demand rules out.
    by_contra hset
    have hbit := hvisible body hbody (by simpa using hset)
    rw [hmet] at hbit
    cases hbit

/-- The demand is sound for every SGX quote, and for a TDX quote exactly when a set DEBUG bit
    comes with a set bit 1 in its `td_attributes`. -/
theorem debugDemand_sound_iff (H : Sha256) (beyond : Nat → UInt8) (v : DcapVerifier) :
    SgxDebugSound H beyond v ∧
      (TdxDebugSound H beyond v ↔
        ∀ body, TdxAttestationVerifier.Readable v.quote body → tdxDebug v.quote body = true →
          (TdxAttestationVerifier.tdAttributes v.quote body).testBit 1 = true) :=
  ⟨sgxDebugSound H beyond v, tdxDebugSound_iff H beyond v⟩

/-! ## A debuggable trust domain -/

/-- A version 4 quote of a trust domain, all zero but for the header fields and the DEBUG bit. -/
def debuggableTdxQuote : Bytes :=
  [4, 0, 0, 0, 0x81, 0, 0, 0] ++ List.replicate 160 0 ++ [1] ++ List.replicate 467 0

theorem debuggableTdxQuote_readable :
    TdxAttestationVerifier.Readable debuggableTdxQuote TdxAttestationVerifier.offBody4 := by
  refine ⟨?_, ?_, .inl ⟨?_, rfl⟩⟩
  · decide +kernel
  · decide
  · decide

/-- A debuggable trust domain meets the demand that debugging is disabled. -/
theorem debugDemand_unsound :
    ¬ TdxDebugSound paddingSha256 (fun _ => 0)
        { report := { strTeePlatform := kPlatformTdx }, quote := debuggableTdxQuote } := by
  rw [tdxDebugSound_iff]
  intro h
  have hbit := h _ debuggableTdxQuote_readable (by decide)
  revert hbit
  decide

end TrustFlow.Attestation
