import TrustFlow.Attestation.CsvVerifier

/-! # What the CSV quote signature fixes

The signature of a CSV quote covers the masked fields up to the policy.  The mask
`anonce` lies behind the signed part, and the PEK certificate that the signature
is checked with is itself unmasked by `anonce`.  Changing `anonce` together with
the masked certificate therefore goes unnoticed by `VerifyPlatform`
(`verifyPlatform_remask`), while every attribute changes with it: the attributes
are fixed by the signed bytes and the mask, not by the signed bytes alone.
-/

namespace TrustFlow.Attestation.CsvAttestationVerifier

def PassesPlatform (sm2 : Sm2) (beyond : Nat → UInt8) (v : Verifier) : Prop :=
  ∃ log, (verifyPlatform sm2 beyond v).run [] = .ok ((), log)

/-- Two reports with the same certificates whose quotes agree on the signed bytes, on the
    signature and on the unmasked PEK certificate. -/
structure SameEvidence (v₁ v₂ : Verifier) : Prop where
  hskCert : v₁.hskCert = v₂.hskCert
  cekCert : v₁.cekCert = v₂.cekCert
  signed : signedBytes v₁.quote = signedBytes v₂.quote
  eccSig1 : v₁.quote.eccSig1 = v₂.quote.eccSig1
  pekCert : plainPekCert v₁.quote = plainPekCert v₂.quote

/-- The attributes that are read from the signed part of a quote. -/
def signedAttributes (attrs : UnifiedAttestationAttributes) : List Bytes :=
  [attrs.hexProdId, attrs.hexPlatformSwVersion, attrs.hexUserData, attrs.hexNonce,
    attrs.hexBootMeasurement, attrs.hexSecureFlags]

/-! ## The fields of the signed part -/

theorem SameEvidence.fields {v₁ v₂ : Verifier} (h : SameEvidence v₁ v₂) :
    v₁.quote.vmId.bytes = v₂.quote.vmId.bytes ∧
    v₁.quote.vmVersion.bytes = v₂.quote.vmVersion.bytes ∧
    v₁.quote.userData.bytes = v₂.quote.userData.bytes ∧
    v₁.quote.mnonce.bytes = v₂.quote.mnonce.bytes ∧
    v₁.quote.measure.bytes = v₂.quote.measure.bytes ∧
    v₁.quote.policy.bytes = v₂.quote.policy.bytes := by
  have hsame {n : Nat} (a b : Blob n) : a.bytes.length = b.bytes.length := by
    rw [a.size, b.size]
  have hsigned := h.signed
  simp only [signedBytes] at hsigned
  -- Peel the fields off from the last one on; sizes agree, so the cuts do.
  obtain ⟨hsigned, hpolicy⟩ := List.append_inj' hsigned (hsame _ _)
  obtain ⟨hsigned, hmeasure⟩ := List.append_inj' hsigned (hsame _ _)
  obtain ⟨hsigned, hmnonce⟩ := List.append_inj' hsigned (hsame _ _)
  obtain ⟨hsigned, huserData⟩ := List.append_inj' hsigned (hsame _ _)
  obtain ⟨hsigned, hvmVersion⟩ := List.append_inj' hsigned (hsame _ _)
  obtain ⟨_, hvmId⟩ := List.append_inj' hsigned (hsame _ _)
  exact ⟨hvmId, hvmVersion, huserData, hmnonce, hmeasure, hpolicy⟩

/-- Reports with the same evidence have the same attributes exactly when they have the same
    mask. -/
theorem parseUnifiedReport_agree_iff {beyond₁ beyond₂ : Nat → UInt8} {v₁ v₂ : Verifier}
    {a₁ a₂ : UnifiedAttestationAttributes} {log₁ log₂ : List Access}
    (h : SameEvidence v₁ v₂)
    (hparse₁ : (parseUnifiedReport beyond₁ v₁).run [] = .ok (a₁, log₁))
    (hparse₂ : (parseUnifiedReport beyond₂ v₂).run [] = .ok (a₂, log₂)) :
    signedAttributes a₁ = signedAttributes a₂ ↔ v₁.quote.anonce = v₂.quote.anonce := by
  obtain ⟨hvmId, hvmVersion, huserData, hmnonce, hmeasure, hpolicy⟩ := h.fields
  rw [run_parseUnifiedReport] at hparse₁ hparse₂
  simp only [Except.ok.injEq, Prod.mk.injEq] at hparse₁ hparse₂
  obtain ⟨rfl, _⟩ := hparse₁
  obtain ⟨rfl, _⟩ := hparse₂
  constructor
  · intro heq
    -- The policy is one word, and the same masked word under both masks.
    simp only [signedAttributes, attributes, List.cons.injEq] at heq
    have hflags := bytesToHexString_inj heq.2.2.2.2.2.1
    rw [hpolicy] at hflags
    exact xorWords_mask_inj v₂.quote.policy.size hflags
  · intro hanonce
    simp only [signedAttributes, attributes, hanonce, hvmId, hvmVersion, huserData, hmnonce,
      hmeasure, hpolicy]

/-! ## Changing the mask -/

theorem plainPekCert_length (quote : CsvAttestationReport) :
    (plainPekCert quote).length = 2084 := by
  rw [plainPekCert, xorWords_length _ (by rw [quote.pekCert.size]; decide), quote.pekCert.size]

/-- The report with another mask, its PEK certificate masked anew. -/
def remask (v : Verifier) (anonce : Word32) : Verifier :=
  { v with
    quote :=
      { v.quote with
        anonce := anonce
        pekCert := ⟨xorWords anonce (plainPekCert v.quote), by
          rw [xorWords_length _ (by rw [plainPekCert_length]; decide), plainPekCert_length]⟩ } }

theorem plainPekCert_remask (v : Verifier) (anonce : Word32) :
    plainPekCert (remask v anonce).quote = plainPekCert v.quote :=
  xorWords_xorWords anonce (by rw [plainPekCert_length]; decide)

theorem sameEvidence_remask (v : Verifier) (anonce : Word32) :
    SameEvidence v (remask v anonce) :=
  ⟨rfl, rfl, rfl, rfl, (plainPekCert_remask v anonce).symm⟩

/-- No check of `VerifyPlatform` sees the mask. -/
theorem verifyPlatform_remask {sm2 : Sm2} {beyond : Nat → UInt8} {v : Verifier}
    (anonce : Word32) (h : PassesPlatform sm2 beyond v) :
    PassesPlatform sm2 beyond (remask v anonce) := by
  obtain ⟨log, hlog⟩ := h
  obtain ⟨hhsk, hcek, hpek, hquote, hacc⟩ := verifyPlatform_eq_ok.mp hlog
  refine ⟨log, verifyPlatform_eq_ok.mpr ⟨hhsk, hcek, ?_, ?_, hacc⟩⟩
  · rw [plainPekCert_remask]
    exact hpek
  · rw [plainPekCert_remask]
    exact hquote

/-! ## A report and its re-masked copy -/

def zeros (n : Nat) : Blob n := ⟨List.replicate n 0, List.length_replicate⟩

/-- A `CSV_CERT_t` with the given key usage and signature usage, all other fields zero. -/
def usageCert (pubkeyUsage sig1Usage : Nat) : Blob 2084 where
  bytes := List.replicate 8 0 ++ leBytes 4 pubkeyUsage ++ List.replicate 1032 0 ++
    leBytes 4 sig1Usage ++ List.replicate 1036 0
  size := by simp only [List.length_append, List.length_replicate, leBytes_length]

/-- A report whose certificates have the usages the chain asks for, unmasked. -/
def sampleReport : Verifier where
  report := { strTeePlatform := kPlatformCsv }
  quote := {
    userPubkeyDigest := zeros 32, vmId := zeros 16, vmVersion := zeros 16, userData := zeros 64
    mnonce := zeros 16, measure := zeros 32, policy := zeros 4, sigUsage := zeros 4
    sigAlgo := zeros 4, anonce := ⟨0, 0, 0, 0⟩, eccSig1 := zeros 144
    pekCert := usageCert KEY_USAGE_TYPE_PEK KEY_USAGE_TYPE_CEK
    sn := zeros 64, reserved2 := zeros 32, mac := zeros 32 }
  hskCert := {
    bytes := List.replicate 36 0 ++ leBytes 4 KEY_USAGE_TYPE_HSK ++ List.replicate 792 0
    size := by simp only [List.length_append, List.length_replicate, leBytes_length] }
  cekCert := usageCert KEY_USAGE_TYPE_CEK KEY_USAGE_TYPE_HSK

theorem sampleReport_passes :
    PassesPlatform (fun _ _ _ _ => true) (fun _ => 0) sampleReport := by
  refine ⟨_, verifyPlatform_eq_ok.mpr ⟨?_, ?_, ?_, ?_, rfl⟩⟩
  · decide
  · decide +kernel
  · decide +kernel
  · decide

/-- The mask may be changed with the masked certificate: every check still passes on the same
    evidence, and the attributes are different. -/
theorem attributes_not_fixed_by_signed_bytes :
    ¬ ∀ (sm2 : Sm2) (beyond : Nat → UInt8) (v₁ v₂ : Verifier)
        (a₁ a₂ : UnifiedAttestationAttributes) (log₁ log₂ : List Access),
      PassesPlatform sm2 beyond v₁ → PassesPlatform sm2 beyond v₂ → SameEvidence v₁ v₂ →
      (parseUnifiedReport beyond v₁).run [] = .ok (a₁, log₁) →
      (parseUnifiedReport beyond v₂).run [] = .ok (a₂, log₂) →
        signedAttributes a₁ = signedAttributes a₂ := by
  intro hfixed
  have hpasses := sampleReport_passes
  have hattrs := hfixed _ _ sampleReport (remask sampleReport ⟨1, 0, 0, 0⟩) _ _ _ _ hpasses
    (verifyPlatform_remask _ hpasses) (sameEvidence_remask _ _)
    (run_parseUnifiedReport _ _ _) (run_parseUnifiedReport _ _ _)
  revert hattrs
  decide

def counting (n first : Nat) : Blob n :=
  ⟨(List.range n).map fun i => UInt8.ofNat (first + i), by simp⟩

/-- The report of a guest with user data, a nonce and a measurement, under a mask. -/
def guestReport : Verifier :=
  remask
    { sampleReport with
      quote :=
        { sampleReport.quote with
          vmId := counting 16 1, vmVersion := counting 16 20, userData := counting 64 40
          mnonce := counting 16 110, measure := counting 32 130, policy := counting 4 170 } }
    ⟨5, 6, 7, 8⟩

/-- The same guest on a machine with another serial number. -/
def movedReport : Verifier :=
  { guestReport with quote := { guestReport.quote with sn := counting 64 3, mac := counting 32 9 } }

theorem sameEvidence_movedReport : SameEvidence guestReport movedReport :=
  ⟨rfl, rfl, rfl, rfl, rfl⟩

/-- Another serial number changes none of the attributes, another mask does. -/
theorem guestReport_attributes :
    guestReport.quote.sn ≠ movedReport.quote.sn ∧
    signedAttributes (attributes (fun _ => 0) guestReport) =
      signedAttributes (attributes (fun _ => 1) movedReport) ∧
    signedAttributes (attributes (fun _ => 0) guestReport) ≠
      signedAttributes (attributes (fun _ => 1) (remask guestReport ⟨1, 0, 0, 0⟩)) := by
  refine ⟨by decide, ?_, ?_⟩
  · exact (parseUnifiedReport_agree_iff sameEvidence_movedReport
      (run_parseUnifiedReport _ _ []) (run_parseUnifiedReport _ _ [])).mpr rfl
  · intro hattrs
    have hanonce := (parseUnifiedReport_agree_iff (sameEvidence_remask _ _)
      (run_parseUnifiedReport _ _ []) (run_parseUnifiedReport _ _ [])).mp hattrs
    exact absurd hanonce (by decide)

end TrustFlow.Attestation.CsvAttestationVerifier
