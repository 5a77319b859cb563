import TrustFlow.Attestation.AttrsIsMatch
import TrustFlow.Attestation.Generation

/-! # Reading report data back

The lower half of the report data comes back as the attribute `hex_user_data` on
every platform.  The attribute `hex_nonce` is another matter: the SGX and TDX
parsers never set it, and the CSV parser sets it from the random nonce of the
firmware call, so a nonce given to a generator is only ever found under
`hex_user_data`. -/

namespace TrustFlow.Attestation

/-! ## Rules with one field -/

def userDataRule (field : Bytes) : UnifiedAttestationAttributes := { hexUserData := field }

def nonceRule (field : Bytes) : UnifiedAttestationAttributes := { hexNonce := field }

theorem attrsIsMatch_userDataRule (H : Sha256) (attrs : UnifiedAttestationAttributes)
    {field : Bytes} (h : field ≠ []) :
    attrsIsMatch H attrs (userDataRule field) = .ok .pass ↔
      equalsIgnoreCase field attrs.hexUserData = true := by
  rw [attrsIsMatch_eq_pass]
  simp [MeetsRule, EarlyFieldsMet, CountedFieldsMet, LateFieldsMet, userDataRule, strMet, svnMet,
    debugMet, pubkeyMet, h]

theorem attrsIsMatch_nonceRule (H : Sha256) (attrs : UnifiedAttestationAttributes)
    {field : Bytes} (h : field ≠ []) :
    attrsIsMatch H attrs (nonceRule field) = .ok .pass ↔
      equalsIgnoreCase field attrs.hexNonce = true := by
  rw [attrsIsMatch_eq_pass]
  simp [MeetsRule, EarlyFieldsMet, CountedFieldsMet, LateFieldsMet, nonceRule, strMet, svnMet,
    debugMet, pubkeyMet, h]

/-! ## The attribute `hex_user_data` -/

section Platforms

variable {H : Sha256} {genParams : UnifiedAttestationGenerationParams}

theorem sgx_hexUserData {v : DcapVerifier} {data : Bytes}
    (hdata : prepareSgxReportData H genParams = .ok data) (hcarries : SgxCarries v.quote data) :
    (Sgx2AttestationVerifier.attributes v).hexUserData =
      bytesToHexString (valueBytes genParams) := by
  have hlower := prepareReportData_lower (by decide) (by decide) hdata
  simp only [Sgx2AttestationVerifier.attributes]
  rw [← hlower, ← hcarries, slice_slice v.quote _ (by decide : 0 + 32 ≤ 64), Nat.add_zero]

theorem tdx_hexUserData {v : DcapVerifier} {body : Nat} {data : Bytes} (beyond : Nat → UInt8)
    (hdata : prepareTdxReportData H genParams = .ok data)
    (hcarries : TdxCarries v.quote body data) :
    (TdxAttestationVerifier.attributes beyond v body).hexUserData =
      bytesToHexString (valueBytes genParams) := by
  have hlower := prepareReportData_lower (by decide) (by decide) hdata
  obtain ⟨_, hin, hslice⟩ := hcarries
  have hin' : body + TdxAttestationVerifier.offReportData + 32 ≤
      (Buffer.mk v.quote beyond).bytes.length := le_trans (by omega) hin
  simp only [TdxAttestationVerifier.attributes, Buffer.view_eq_slice hin']
  rw [← hlower, ← hslice, slice_slice v.quote _ (by decide : 0 + 32 ≤ 64), Nat.add_zero]

theorem csv_hexUserData {v : CsvAttestationVerifier.Verifier} {sm3 : Bytes → Bytes}
    {mnonce : Bytes} {userData : CsvAttestationUserData} (beyond : Nat → UInt8)
    (hdata : prepareCsvUserData H sm3 mnonce genParams = .ok userData)
    (hcarries : CsvCarries v.quote userData.data) :
    (CsvAttestationVerifier.attributes beyond v).hexUserData =
      bytesToHexString (valueBytes genParams) := by
  obtain ⟨data, hprepare, hmade⟩ := bind_eq_ok.mp hdata
  cases hmade
  have hlower := prepareReportData_lower (by decide) (by decide) hprepare
  have hunmasked : xorWords v.quote.anonce v.quote.userData.bytes = data := hcarries
  simp only [CsvAttestationVerifier.attributes]
  -- Unmasking goes word by word, so it can be done before or after taking the half.
  rw [← hlower, ← hunmasked, slice, slice, List.drop_zero, List.drop_zero,
    xorWords_take _ (by decide) (by simp [v.quote.userData.size])]

end Platforms

/-- A rule on `hex_user_data` accepts a quote made for a full-length user data exactly when it
    names that user data, in whatever case. -/
theorem userData_survives (H : Sha256) (sm3 : Bytes → Bytes) (mnonce : Bytes)
    (genParams : UnifiedAttestationGenerationParams) (field : Bytes)
    (hnonce : genParams.reportHexNonce = [])
    (huser : IsHexText genParams.reportParams.hexUserData)
    (hlen : genParams.reportParams.hexUserData.length = 64) (hfield : field ≠ []) :
    (∃ data, prepareSgxReportData H genParams = .ok data ∧ data.length = 64 ∧
      ∀ v beyond, SgxCarries v.quote data →
        Sgx2AttestationVerifier.sizeofQuote3 ≤ v.quote.length → ∃ attrs log,
          (Sgx2AttestationVerifier.parseUnifiedReport beyond v).run [] = .ok (attrs, log) ∧
          (attrsIsMatch H attrs (userDataRule field) = .ok .pass ↔
            equalsIgnoreCase field genParams.reportParams.hexUserData = true)) ∧
    (∃ data, prepareTdxReportData H genParams = .ok data ∧ data.length = 64 ∧
      ∀ v body beyond, TdxCarries v.quote body data → ∃ attrs log,
          (TdxAttestationVerifier.parseUnifiedReport beyond v).run [] = .ok (attrs, log) ∧
          (attrsIsMatch H attrs (userDataRule field) = .ok .pass ↔
            equalsIgnoreCase field genParams.reportParams.hexUserData = true)) ∧
    (∃ userData, prepareCsvUserData H sm3 mnonce genParams = .ok userData ∧
      userData.data.length = 64 ∧
      ∀ (v : CsvAttestationVerifier.Verifier) beyond, CsvCarries v.quote userData.data →
        ∃ attrs log,
          (CsvAttestationVerifier.parseUnifiedReport beyond v).run [] = .ok (attrs, log) ∧
          (attrsIsMatch H attrs (userDataRule field) = .ok .pass ↔
            equalsIgnoreCase field genParams.reportParams.hexUserData = true)) := by
  have haccepted : ∀ nonceSize, Accepted nonceSize 32 genParams := by
    intro nonceSize
    exact ⟨by simp [hnonce], by simp [hlen], .inl hnonce⟩
  have hdata : ∀ {nonceSize}, nonceSize ≤ 32 → prepareReportData H nonceSize 32 genParams =
      .ok (valueBytes genParams ++ keyBytes H genParams) := by
    intro nonceSize hsize
    exact (prepareReportData_eq_ok hsize (le_refl 32)).mpr ⟨haccepted nonceSize, rfl⟩
  have hsize : (valueBytes genParams ++ keyBytes H genParams).length = 64 := by
    rw [List.length_append, (haccepted 0).valueBytes_length (by decide) (le_refl 32),
      keyBytes_length]
  -- 64 digits fill the 32 bytes, so nothing is padded.
  have hvalue : valueBytes genParams = hexStringToBytes genParams.reportParams.hexUserData := by
    rw [valueBytes, givenValue, if_pos hnonce, zeroPadded_of_length]
    rw [hexStringToBytes_length, hlen]
  have hmatch : ∀ {attrs : UnifiedAttestationAttributes},
      attrs.hexUserData = bytesToHexString (valueBytes genParams) →
      (attrsIsMatch H attrs (userDataRule field) = .ok .pass ↔
        equalsIgnoreCase field genParams.reportParams.hexUserData = true) := by
    intro attrs hattr
    rw [attrsIsMatch_userDataRule H attrs hfield, hattr, hvalue, equalsIgnoreCase_decoded huser]
  refine ⟨⟨_, hdata (by decide), hsize, ?_⟩, ⟨_, hdata (by decide), hsize, ?_⟩, ?_⟩
  · intro v beyond hcarries hquote
    exact ⟨_, _, Sgx2AttestationVerifier.parseUnifiedReport_of_size beyond [] hquote,
      hmatch (sgx_hexUserData (hdata (by decide)) hcarries)⟩
  · intro v body beyond hcarries
    exact ⟨_, _, TdxAttestationVerifier.parseUnifiedReport_of_readable beyond [] hcarries.1,
      hmatch (tdx_hexUserData beyond (hdata (by decide)) hcarries)⟩
  · have hprepare : prepareCsvUserData H sm3 mnonce genParams = .ok
        ⟨valueBytes genParams ++ keyBytes H genParams, mnonce,
          sm3 (valueBytes genParams ++ keyBytes H genParams ++ mnonce)⟩ :=
      bind_eq_ok.mpr ⟨_, hdata (by decide), rfl⟩
    refine ⟨_, hprepare, hsize, ?_⟩
    intro v beyond hcarries
    exact ⟨_, _, CsvAttestationVerifier.run_parseUnifiedReport beyond v [],
      hmatch (csv_hexUserData beyond hprepare hcarries)⟩

def digestParams : UnifiedAttestationGenerationParams :=
  { reportParams := { hexUserData := List.replicate 64 65 } }

/-- An SGX quote made for the parameters, all zero but for the report data. -/
def digestQuote : Bytes :=
  List.replicate 368 0 ++ List.replicate 32 0xaa ++ List.replicate 36 0

theorem userData_survives_sample : ∃ attrs log,
    (Sgx2AttestationVerifier.parseUnifiedReport (fun _ => 0)
      { report := {}, quote := digestQuote }).run [] = .ok (attrs, log) ∧
    (attrsIsMatch paddingSha256 attrs (userDataRule (List.replicate 64 97)) = .ok .pass ↔
      equalsIgnoreCase (List.replicate 64 97) (List.replicate 64 65) = true) := by
  have hsurvives := (userData_survives paddingSha256 id [] digestParams
    (List.replicate 64 97) rfl ⟨by decide +kernel, by decide⟩ (by decide) (by decide)).1
  obtain ⟨data, hdata, _, hquotes⟩ := hsurvives
  have hprepared : prepareSgxReportData paddingSha256 digestParams =
      .ok (List.replicate 32 0xaa ++ List.replicate 32 0) := by
    decide
  cases hdata.symm.trans hprepared
  exact hquotes { report := {}, quote := digestQuote } _ (by unfold SgxCarries; decide)
    (by decide +kernel)

/-! ## The attribute `hex_nonce` -/

/-- A rule on `hex_nonce` accepts the nonce and refuses every text for other bytes. -/
def NonceVerifies (H : Sha256) (attrs : UnifiedAttestationAttributes) (nonce : Bytes) : Prop :=
  attrsIsMatch H attrs (nonceRule nonce) = .ok .pass ∧
    ∀ other, IsHexText other → other ≠ [] → hexStringToBytes other ≠ hexStringToBytes nonce →
      attrsIsMatch H attrs (nonceRule other) ≠ .ok .pass

/-- A CSV quote made for a call of the firmware: the nonce of the call is masked as well. -/
def CsvCarriesNonce (quote : CsvAttestationReport) (mnonce : Bytes) : Prop :=
  xorWords quote.anonce quote.mnonce.bytes = mnonce

theorem not_nonceVerifies_of_unset {H : Sha256} {attrs : UnifiedAttestationAttributes}
    {nonce : Bytes} (hnonce : nonce ≠ []) (hattr : attrs.hexNonce = []) :
    ¬ NonceVerifies H attrs nonce := by
  intro h
  have hmatch := (attrsIsMatch_nonceRule H attrs hnonce).mp h.1
  rw [hattr, equalsIgnoreCase_iff] at hmatch
  simp at hmatch
  exact hnonce hmatch

theorem nonceVerifies_iff_bytes {H : Sha256} {attrs : UnifiedAttestationAttributes}
    {nonce mnonce : Bytes} (hhex : IsHexText nonce) (hnonce : nonce ≠ [])
    (hattr : attrs.hexNonce = bytesToHexString mnonce) :
    NonceVerifies H attrs nonce ↔ mnonce = hexStringToBytes nonce := by
  have hmatch : ∀ {field : Bytes}, IsHexText field → field ≠ [] →
      (attrsIsMatch H attrs (nonceRule field) = .ok .pass ↔ mnonce = hexStringToBytes field) := by
    intro field hfield hne
    rw [attrsIsMatch_nonceRule H attrs hne, hattr, equalsIgnoreCase_comm,
      ← equalsIgnoreCase_decoded hfield, equalsIgnoreCase_bytesToHexString]
  rw [NonceVerifies, hmatch hhex hnonce]
  constructor
  · intro h
    exact h.1
  · intro h
    refine ⟨h, ?_⟩
    intro other hother hne hbytes
    rw [Ne, hmatch hother hne, h]
    exact Ne.symm hbytes

/-- A nonce is never verified on SGX and TDX; on CSV it is verified exactly when the firmware
    nonce that the generator draws happens to be the same. -/
theorem nonceVerifies_iff (H : Sha256) (sm3 : Bytes → Bytes) (mnonce : Bytes)
    (genParams : UnifiedAttestationGenerationParams)
    (hhex : IsHexText genParams.reportHexNonce) (hnonce : genParams.reportHexNonce ≠ []) :
    (∀ data v beyond attrs log, prepareSgxReportData H genParams = .ok data →
      SgxCarries v.quote data →
      (Sgx2AttestationVerifier.parseUnifiedReport beyond v).run [] = .ok (attrs, log) →
        ¬ NonceVerifies H attrs genParams.reportHexNonce) ∧
    (∀ data v body beyond attrs log, prepareTdxReportData H genParams = .ok data →
      TdxCarries v.quote body data →
      (TdxAttestationVerifier.parseUnifiedReport beyond v).run [] = .ok (attrs, log) →
        ¬ NonceVerifies H attrs genParams.reportHexNonce) ∧
    (∀ (userData : CsvAttestationUserData) (v : CsvAttestationVerifier.Verifier) beyond attrs log,
      prepareCsvUserData H sm3 mnonce genParams = .ok userData →
      CsvCarries v.quote userData.data → CsvCarriesNonce v.quote userData.mnonce →
      (CsvAttestationVerifier.parseUnifiedReport beyond v).run [] = .ok (attrs, log) →
        (NonceVerifies H attrs genParams.reportHexNonce ↔
          mnonce = hexStringToBytes genParams.reportHexNonce)) := by
  refine ⟨?_, ?_, ?_⟩
  · intro data v beyond attrs log _ _ hparse
    obtain ⟨_, rfl, _⟩ := Sgx2AttestationVerifier.parseUnifiedReport_eq_ok.mp hparse
    exact not_nonceVerifies_of_unset hnonce rfl
  · intro data v body beyond attrs log _ _ hparse
    obtain ⟨_, _, rfl, _⟩ := TdxAttestationVerifier.parseUnifiedReport_eq_ok.mp hparse
    exact not_nonceVerifies_of_unset hnonce rfl
  · intro userData v beyond attrs log hdata _ hcarries hparse
    obtain ⟨_, _, hmade⟩ := bind_eq_ok.mp hdata
    cases hmade
    rw [CsvAttestationVerifier.run_parseUnifiedReport] at hparse
    cases hparse
    apply nonceVerifies_iff_bytes hhex hnonce
    have hunmasked : xorWords v.quote.anonce v.quote.mnonce.bytes = mnonce := hcarries
    simp only [CsvAttestationVerifier.attributes, hunmasked]

def freshParams : UnifiedAttestationGenerationParams := { reportHexNonce := List.replicate 64 65 }

theorem freshParams_isHexText : IsHexText freshParams.reportHexNonce :=
  ⟨by decide +kernel, by decide⟩

/-- The quote is the same as for user data, see `digestQuote`. -/
theorem freshParams_carries : ∃ data,
    prepareSgxReportData paddingSha256 freshParams = .ok data ∧ SgxCarries digestQuote data :=
  ⟨slice digestQuote 368 64, by decide, rfl⟩

theorem nonceVerifies_iff_sample :
    ¬ NonceVerifies paddingSha256
      (Sgx2AttestationVerifier.attributes { report := {}, quote := digestQuote })
      freshParams.reportHexNonce := by
  obtain ⟨data, hdata, hcarries⟩ := freshParams_carries
  exact (nonceVerifies_iff paddingSha256 id [] freshParams freshParams_isHexText (by decide)).1
    data { report := {}, quote := digestQuote } (fun _ => 0) _ _ hdata hcarries
    (Sgx2AttestationVerifier.parseUnifiedReport_of_size _ [] (by decide +kernel))

/-- The verifier refuses the nonce that the quote was made for. -/
theorem nonce_refused : ∃ data attrs log,
    prepareSgxReportData paddingSha256 freshParams = .ok data ∧ SgxCarries digestQuote data ∧
      (Sgx2AttestationVerifier.parseUnifiedReport (fun _ => 0)
        { report := {}, quote := digestQuote }).run [] = .ok (attrs, log) ∧
      attrsIsMatch paddingSha256 attrs (nonceRule freshParams.reportHexNonce) ≠ .ok .pass := by
  obtain ⟨data, hdata, hcarries⟩ := freshParams_carries
  refine ⟨data, _, _, hdata, hcarries,
    Sgx2AttestationVerifier.parseUnifiedReport_of_size _ [] (by decide +kernel), ?_⟩
  rw [Ne, attrsIsMatch_nonceRule _ _ (by decide)]
  decide

end TrustFlow.Attestation
