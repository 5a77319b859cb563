import TrustFlow.Attestation.Generation
import TrustFlow.Attestation.Verifier

/-! # Public keys bound to a report

A generator hashes the public key after decoding it as hex text, the matcher hashes
the rule's key as it is.  Decoding halves the length, so the two digests are those
of different strings and no key matches the report it was bound to.  On CSV the
attribute is not even read from the quote: it is set from the memory behind the
user data vector. -/

namespace TrustFlow.Attestation

/-! ## Agreement of generation and verification -/

def pubkeyRule (field : Bytes) : UnifiedAttestationAttributes := { hexHashOrPemPubkey := field }

/-- The attributes match the rule with the key itself and the rule with its hex digest. -/
def PubkeyMatches (H : Sha256) (attrs : UnifiedAttestationAttributes) (publicKey : Bytes) :
    Prop :=
  attrsIsMatch H attrs (pubkeyRule publicKey) = .ok .pass ∧
    attrsIsMatch H attrs (pubkeyRule (bytesToHexString (H.hash publicKey))) = .ok .pass

theorem attrsIsMatch_pubkeyRule (H : Sha256) (attrs : UnifiedAttestationAttributes)
    (field : Bytes) :
    attrsIsMatch H attrs (pubkeyRule field) = .ok .pass ↔
      pubkeyMet H attrs.hexHashOrPemPubkey field = true := by
  rw [attrsIsMatch_eq_pass]
  simp [MeetsRule, EarlyFieldsMet, CountedFieldsMet, LateFieldsMet, pubkeyRule, strMet, svnMet,
    debugMet]

theorem hexStringToBytes_ne {text : Bytes} (h : text ≠ []) : hexStringToBytes text ≠ text := by
  intro heq
  have hlen := congrArg List.length heq
  rw [hexStringToBytes_length] at hlen
  have hpos : 0 < text.length := List.length_pos_iff.mpr h
  omega

theorem pubkeyMet_decoded {H : Sha256} {publicKey : Bytes} (hkey : publicKey ≠ [])
    (hfree : H.CollisionFree [publicKey, hexStringToBytes publicKey]) :
    pubkeyMet H (bytesToHexString (H.hash (hexStringToBytes publicKey))) publicKey = false := by
  rw [pubkeyMet, List.isEmpty_eq_false_iff.mpr hkey, Bool.false_or, expectedHashHex,
    ← Bool.not_eq_true, equalsIgnoreCase_bytesToHexString]
  intro hdigest
  exact hexStringToBytes_ne hkey
    (hfree publicKey (by simp) (hexStringToBytes publicKey) (by simp) hdigest).symm

theorem not_pubkeyMatches_decoded {H : Sha256} {attrs : UnifiedAttestationAttributes}
    {publicKey : Bytes} (hkey : publicKey ≠ [])
    (hfree : H.CollisionFree [publicKey, hexStringToBytes publicKey])
    (hattr : attrs.hexHashOrPemPubkey =
      bytesToHexString (H.hash (hexStringToBytes publicKey))) :
    ¬ PubkeyMatches H attrs publicKey := by
  intro hmatch
  have hmet := (attrsIsMatch_pubkeyRule H attrs publicKey).mp hmatch.1
  rw [hattr, pubkeyMet_decoded hkey hfree] at hmet
  cases hmet

/-! ## The three platforms -/

section Platforms

variable {H : Sha256} {genParams : UnifiedAttestationGenerationParams}

theorem sgx_hexHashOrPemPubkey {v : DcapVerifier} {data : Bytes}
    (hkey : genParams.reportParams.pemPublicKey ≠ [])
    (hdata : prepareSgxReportData H genParams = .ok data) (hcarries : SgxCarries v.quote data) :
    (Sgx2AttestationVerifier.attributes v).hexHashOrPemPubkey =
      bytesToHexString (H.hash (hexStringToBytes genParams.reportParams.pemPublicKey)) := by
  obtain ⟨_, hupper⟩ := prepareReportData_upper (by decide) (by decide) hkey hdata
  simp only [Sgx2AttestationVerifier.attributes]
  rw [← slice_slice v.quote _ (by decide : 32 + 32 ≤ 64), hcarries, hupper]

theorem tdx_hexHashOrPemPubkey {v : DcapVerifier} {body : Nat} {data : Bytes}
    (beyond : Nat → UInt8) (hkey : genParams.reportParams.pemPublicKey ≠ [])
    (hdata : prepareTdxReportData H genParams = .ok data)
    (hcarries : TdxCarries v.quote body data) :
    (TdxAttestationVerifier.attributes beyond v body).hexHashOrPemPubkey =
      bytesToHexString (H.hash (hexStringToBytes genParams.reportParams.pemPublicKey)) := by
  obtain ⟨_, hupper⟩ := prepareReportData_upper (by decide) (by decide) hkey hdata
  obtain ⟨_, hin, hslice⟩ := hcarries
  have hin' : body + TdxAttestationVerifier.offReportData + 32 + 32 ≤
      (Buffer.mk v.quote beyond).bytes.length := by
    simpa [Nat.add_assoc] using hin
  simp only [TdxAttestationVerifier.attributes, Buffer.view_eq_slice hin']
  rw [← slice_slice v.quote _ (by decide : 32 + 32 ≤ 64), hslice, hupper]

/-- On CSV the attribute is what happens to lie behind the user data vector. -/
theorem csv_hexHashOrPemPubkey (beyond : Nat → UInt8) (v : CsvAttestationVerifier.Verifier) :
    (CsvAttestationVerifier.attributes beyond v).hexHashOrPemPubkey =
      bytesToHexString ((List.range 32).map fun i => beyond (32 + i)) := by
  simp only [CsvAttestationVerifier.attributes, Buffer.view, Buffer.byteAt]
  congr 1
  apply List.map_congr_left
  intro i _
  -- Index 32 is the first one past the end of the vector.
  exact List.getD_eq_default _ _ (by
    rw [CsvAttestationVerifier.plainUserData_length]
    omega)

theorem csv_not_pubkeyMatches {publicKey : Bytes} (hkey : publicKey ≠ [])
    (v : CsvAttestationVerifier.Verifier) :
    ¬ ∀ beyond, PubkeyMatches H (CsvAttestationVerifier.attributes beyond v) publicKey := by
  intro hall
  -- Two memories that differ everywhere cannot both hold the digest.
  have hdigest : ∀ byte : UInt8, H.hash publicKey = List.replicate 32 byte := by
    intro byte
    have hmet := (attrsIsMatch_pubkeyRule H _ publicKey).mp (hall fun _ => byte).1
    rw [csv_hexHashOrPemPubkey, pubkeyMet, List.isEmpty_eq_false_iff.mpr hkey, Bool.false_or,
      expectedHashHex, equalsIgnoreCase_bytesToHexString] at hmet
    simpa using hmet
  have hclash : List.replicate 32 (0 : UInt8) = List.replicate 32 1 :=
    (hdigest 0).symm.trans (hdigest 1)
  exact absurd hclash (by decide)

/-- No public key matches a report it was bound to: on SGX and TDX no quote made for the
    prepared data matches, on CSV no quote matches independently of unrelated memory. -/
theorem pubkeyBinding_never (H : Sha256) (sm3 : Bytes → Bytes) (mnonce : Bytes)
    (genParams : UnifiedAttestationGenerationParams)
    (hkey : genParams.reportParams.pemPublicKey ≠ [])
    (hfree : H.CollisionFree [genParams.reportParams.pemPublicKey,
      hexStringToBytes genParams.reportParams.pemPublicKey]) :
    (∀ data v beyond attrs log, prepareSgxReportData H genParams = .ok data →
      SgxCarries v.quote data →
      (Sgx2AttestationVerifier.parseUnifiedReport beyond v).run [] = .ok (attrs, log) →
        ¬ PubkeyMatches H attrs genParams.reportParams.pemPublicKey) ∧
    (∀ data v body beyond attrs log, prepareTdxReportData H genParams = .ok data →
      TdxCarries v.quote body data →
      (TdxAttestationVerifier.parseUnifiedReport beyond v).run [] = .ok (attrs, log) →
        ¬ PubkeyMatches H attrs genParams.reportParams.pemPublicKey) ∧
    (∀ (userData : CsvAttestationUserData) (v : CsvAttestationVerifier.Verifier),
      prepareCsvUserData H sm3 mnonce genParams = .ok userData →
      CsvCarries v.quote userData.data →
        ¬ ∀ beyond attrs log,
          (CsvAttestationVerifier.parseUnifiedReport beyond v).run [] = .ok (attrs, log) →
            PubkeyMatches H attrs genParams.reportParams.pemPublicKey) := by
  refine ⟨?_, ?_, ?_⟩
  · intro data v beyond attrs log hdata hcarries hparse
    obtain ⟨_, rfl, _⟩ := Sgx2AttestationVerifier.parseUnifiedReport_eq_ok.mp hparse
    exact not_pubkeyMatches_decoded hkey hfree (sgx_hexHashOrPemPubkey hkey hdata hcarries)
  · intro data v body beyond attrs log hdata hcarries hparse
    rw [TdxAttestationVerifier.parseUnifiedReport_of_readable beyond [] hcarries.1] at hparse
    cases hparse
    exact not_pubkeyMatches_decoded hkey hfree
      (tdx_hexHashOrPemPubkey beyond hkey hdata hcarries)
  · intro userData v _ _ hall
    exact csv_not_pubkeyMatches hkey v fun beyond =>
      hall beyond _ _ (CsvAttestationVerifier.run_parseUnifiedReport beyond v [])

end Platforms

/-! ## A key that is refused -/

def pemKeyParams : UnifiedAttestationGenerationParams :=
  { reportParams := { pemPublicKey := str "-----BEGIN PUBLIC KEY-----" } }

theorem pemKeyParams_collisionFree :
    paddingSha256.CollisionFree [pemKeyParams.reportParams.pemPublicKey,
      hexStringToBytes pemKeyParams.reportParams.pemPublicKey] := by
  have hne : paddingSha256.hash pemKeyParams.reportParams.pemPublicKey ≠
      paddingSha256.hash (hexStringToBytes pemKeyParams.reportParams.pemPublicKey) := by
    decide
  intro m hm m' hm' heq
  simp only [List.mem_cons, List.not_mem_nil, or_false] at hm hm'
  rcases hm with rfl | rfl <;> rcases hm' with rfl | rfl
  · rfl
  · exact absurd heq hne
  · exact absurd heq.symm hne
  · rfl

/-- An SGX quote made for the request, all zero but for the report data. -/
def pemKeyQuote : Bytes :=
  List.replicate 368 0 ++
    (List.replicate 32 0 ++
      paddingSha256.hash (hexStringToBytes (str "-----BEGIN PUBLIC KEY-----"))) ++
    List.replicate 4 0

theorem pemKeyQuote_carries : ∃ data,
    prepareSgxReportData paddingSha256 pemKeyParams = .ok data ∧ SgxCarries pemKeyQuote data :=
  ⟨slice pemKeyQuote 368 64, by decide, rfl⟩

theorem pubkeyBinding_never_sample :
    ¬ PubkeyMatches paddingSha256
        (Sgx2AttestationVerifier.attributes { report := {}, quote := pemKeyQuote })
        pemKeyParams.reportParams.pemPublicKey := by
  obtain ⟨data, hdata, hcarries⟩ := pemKeyQuote_carries
  exact (pubkeyBinding_never paddingSha256 id [] pemKeyParams (by decide)
    pemKeyParams_collisionFree).1 data { report := {}, quote := pemKeyQuote } (fun _ => 0) _ _
      hdata hcarries
      (Sgx2AttestationVerifier.parseUnifiedReport_of_size _ [] (by decide +kernel))

/-- The verifier refuses the key and its digest on a quote that binds the key. -/
theorem pubkeyBinding_fails : ∃ data attrs log,
    prepareSgxReportData paddingSha256 pemKeyParams = .ok data ∧
      SgxCarries pemKeyQuote data ∧
      (Sgx2AttestationVerifier.parseUnifiedReport (fun _ => 0)
        { report := {}, quote := pemKeyQuote }).run [] = .ok (attrs, log) ∧
      attrsIsMatch paddingSha256 attrs (pubkeyRule pemKeyParams.reportParams.pemPublicKey) ≠
        .ok .pass ∧
      attrsIsMatch paddingSha256 attrs (pubkeyRule (bytesToHexString
        (paddingSha256.hash pemKeyParams.reportParams.pemPublicKey))) ≠ .ok .pass := by
  obtain ⟨data, hdata, hcarries⟩ := pemKeyQuote_carries
  refine ⟨data, _, _, hdata, hcarries,
    Sgx2AttestationVerifier.parseUnifiedReport_of_size _ [] (by decide +kernel), ?_, ?_⟩
  · rw [Ne, attrsIsMatch_pubkeyRule]
    decide
  · rw [Ne, attrsIsMatch_pubkeyRule]
    decide

end TrustFlow.Attestation
