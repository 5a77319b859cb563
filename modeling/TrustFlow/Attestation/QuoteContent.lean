import TrustFlow.Attestation.Verifier

/-! # What a quote can say

The fields of a quote that the parsers turn into attributes, one record for each
platform.  The public key digest stands apart: it is not a field of the CSV
attributes but whatever lies behind a buffer.

* `hasAttributes_content` — every report that is parsed carries some content;
* `carriedByReport` — every content is carried by a report that verifies, under
  libraries that vouch for it.
-/

namespace TrustFlow.Attestation

/-! ## Contents -/

structure SgxContent where
  mrEnclave : Blob 32
  mrSigner : Blob 32
  isvProdId : Blob 2
  isvSvn : Blob 2
  userData : Blob 32
  flags : Blob 8

structure TdxContent where
  mrSeam : Blob 48
  mrsignerSeam : Blob 48
  mrTd : Blob 48
  mrConfigId : Blob 48
  mrOwner : Blob 48
  mrOwnerConfig : Blob 48
  rtMr0 : Blob 48
  rtMr1 : Blob 48
  rtMr2 : Blob 48
  rtMr3 : Blob 48
  userData : Blob 32
  tdAttributes : Blob 8

/-- The fields of a CSV quote after unmasking. -/
structure CsvContent where
  vmId : Blob 16
  vmVersion : Blob 16
  userData : Blob 32
  mnonce : Blob 16
  measure : Blob 32
  policy : Blob 4

inductive QuoteContent where
  | sgx2 (content : SgxContent)
  | tdx (content : TdxContent)
  | csv (content : CsvContent)

/-- The attributes of a report with this content and this public key digest. -/
def QuoteContent.attributes (pubkeyHash : Blob 32) : QuoteContent → UnifiedAttestationAttributes
  | .sgx2 c =>
    { strTeePlatform := kPlatformSgxDcap
      hexTaMeasurement := bytesToHexString c.mrEnclave.bytes
      hexSigner := bytesToHexString c.mrSigner.bytes
      hexProdId := decimal (leNat c.isvProdId.bytes)
      strMinIsvsvn := decimal (leNat c.isvSvn.bytes)
      hexUserData := bytesToHexString c.userData.bytes
      hexHashOrPemPubkey := bytesToHexString pubkeyHash.bytes
      boolDebugDisabled := debugDisabledText (leNat c.flags.bytes) }
  | .tdx c =>
    { strTeePlatform := kPlatformTdx
      hexPlatformMeasurement :=
        bytesToHexString c.mrSeam.bytes ++ bytesToHexString c.mrsignerSeam.bytes ++
        bytesToHexString c.mrTd.bytes ++ bytesToHexString c.mrConfigId.bytes ++
        bytesToHexString c.mrOwner.bytes ++ bytesToHexString c.mrOwnerConfig.bytes
      hexBootMeasurement := bytesToHexString c.rtMr0.bytes ++ bytesToHexString c.rtMr1.bytes
      hexTaMeasurement := bytesToHexString c.rtMr2.bytes ++ bytesToHexString c.rtMr3.bytes
      hexUserData := bytesToHexString c.userData.bytes
      hexHashOrPemPubkey := bytesToHexString pubkeyHash.bytes
      boolDebugDisabled := debugDisabledText (leNat c.tdAttributes.bytes) }
  | .csv c =>
    { strTeePlatform := kPlatformCsv
      hexProdId := bytesToHexString c.vmId.bytes
      hexPlatformSwVersion := bytesToHexString c.vmVersion.bytes
      hexUserData := bytesToHexString c.userData.bytes
      hexNonce := bytesToHexString c.mnonce.bytes
      hexBootMeasurement := bytesToHexString c.measure.bytes
      hexSecureFlags := bytesToHexString c.policy.bytes
      hexHashOrPemPubkey := bytesToHexString pubkeyHash.bytes }

theorem QuoteContent.hexHashOrPemPubkey_attributes (content : QuoteContent)
    (pubkeyHash : Blob 32) :
    (content.attributes pubkeyHash).hexHashOrPemPubkey = bytesToHexString pubkeyHash.bytes := by
  cases content <;> rfl

/-! ## Every parsed report has a content -/

theorem init_dcap_report {codec : ReportCodec} {platform : Bytes}
    {report : UnifiedAttestationReport} {v : DcapVerifier}
    (h : initDcapVerifier codec platform report = .ok v) :
    v.report = report ∧ report.strTeePlatform = platform := by
  obtain ⟨_, _, h⟩ := bind_eq_ok.mp h
  obtain ⟨_, _, h⟩ := bind_eq_ok.mp h
  obtain ⟨_, hplatform, h⟩ := bind_eq_ok.mp h
  obtain ⟨_, _, h⟩ := bind_eq_ok.mp h
  obtain ⟨_, _, h⟩ := bind_eq_ok.mp h
  refine ⟨?_, enforce_eq_ok.mp hplatform⟩
  split at h
  · obtain ⟨_, _, h⟩ := bind_eq_ok.mp h
    cases h
    rfl
  · cases h
    rfl

theorem init_csv_report {codec : ReportCodec} {report : UnifiedAttestationReport}
    {v : CsvAttestationVerifier.Verifier} (h : CsvAttestationVerifier.init codec report = .ok v) :
    v.report = report ∧ report.strTeePlatform = kPlatformCsv := by
  obtain ⟨_, _, h⟩ := bind_eq_ok.mp h
  obtain ⟨_, _, h⟩ := bind_eq_ok.mp h
  obtain ⟨_, hplatform, h⟩ := bind_eq_ok.mp h
  obtain ⟨_, _, h⟩ := bind_eq_ok.mp h
  obtain ⟨_, _, h⟩ := bind_eq_ok.mp h
  obtain ⟨_, _, h⟩ := bind_eq_ok.mp h
  obtain ⟨_, _, h⟩ := bind_eq_ok.mp h
  obtain ⟨_, _, h⟩ := bind_eq_ok.mp h
  obtain ⟨_, _, h⟩ := bind_eq_ok.mp h
  obtain ⟨_, _, h⟩ := bind_eq_ok.mp h
  obtain ⟨_, _, h⟩ := bind_eq_ok.mp h
  cases h
  exact ⟨rfl, enforce_eq_ok.mp hplatform⟩

/-- The platform name that a verifier of this kind was created for. -/
def AttestationVerifier.platform : AttestationVerifier → Bytes
  | .sgx2 _ => kPlatformSgxDcap
  | .tdx _ => kPlatformTdx
  | .csv _ => kPlatformCsv

theorem createVerifier_report {env : VerifierEnv} {report : UnifiedAttestationReport}
    {v : AttestationVerifier} (h : createVerifier env report = .ok v) :
    v.report = report ∧ report.strTeePlatform = v.platform := by
  unfold createVerifier at h
  split at h
  · obtain ⟨v', hinit, rfl⟩ := map_eq_ok.mp h
    exact init_dcap_report hinit
  · split at h
    · obtain ⟨v', hinit, rfl⟩ := map_eq_ok.mp h
      exact init_dcap_report hinit
    · split at h
      · obtain ⟨v', hinit, rfl⟩ := map_eq_ok.mp h
        exact init_csv_report hinit
      · cases h

/-- Whatever the parser returns is the content of some quote, with some public key digest. -/
theorem hasAttributes_content {env : VerifierEnv} {report : UnifiedAttestationReport}
    {v : AttestationVerifier} {attrs : UnifiedAttestationAttributes}
    (hcreate : createVerifier env report = .ok v) (h : v.HasAttributes env attrs) :
    ∃ (content : QuoteContent) (pubkeyHash : Blob 32), attrs = content.attributes pubkeyHash := by
  obtain ⟨hreport, hplatform⟩ := createVerifier_report hcreate
  rw [← hreport] at hplatform
  cases v with
  | sgx2 v =>
    obtain ⟨hsize, rfl⟩ := h
    -- The fields lie in the part of the quote whose length was checked.
    let field (off len : Nat) (hlen : off + len ≤ Sgx2AttestationVerifier.sizeofQuote3) :
        Blob len := ⟨slice v.quote off len, slice_length (le_trans hlen hsize)⟩
    have hname : v.report.strTeePlatform = kPlatformSgxDcap := hplatform
    refine ⟨.sgx2 ⟨field 112 32 (by decide), field 176 32 (by decide), field 304 2 (by decide),
      field 306 2 (by decide), field 368 32 (by decide), field 96 8 (by decide)⟩,
      field 400 32 (by decide), ?_⟩
    rw [Sgx2AttestationVerifier.attributes, hname]
    rfl
  | tdx v =>
    obtain ⟨body, _, rfl⟩ := h
    let field (off len : Nat) : Blob len :=
      ⟨(Buffer.mk v.quote env.beyond).view (body + off) len, Buffer.view_length _ _ _⟩
    have hname : v.report.strTeePlatform = kPlatformTdx := hplatform
    refine ⟨.tdx ⟨field 16 48, field 64 48, field 136 48, field 184 48, field 232 48,
      field 280 48, field 328 48, field 376 48, field 424 48, field 472 48, field 520 32,
      field 120 8⟩, field 552 32, ?_⟩
    rw [TdxAttestationVerifier.attributes, hname]
    rfl
  | csv v =>
    obtain rfl := h
    have hlen : ∀ {n : Nat} (b : Blob n), 4 ∣ n → (xorWords v.quote.anonce b.bytes).length = n :=
      fun b hn => (xorWords_length _ (by rwa [b.size])).trans b.size
    have hname : v.report.strTeePlatform = kPlatformCsv := hplatform
    refine ⟨.csv ⟨⟨_, hlen v.quote.vmId (by decide)⟩, ⟨_, hlen v.quote.vmVersion (by decide)⟩,
      ⟨_, CsvAttestationVerifier.plainUserData_length v.quote⟩,
      ⟨_, hlen v.quote.mnonce (by decide)⟩, ⟨_, hlen v.quote.measure (by decide)⟩,
      ⟨_, hlen v.quote.policy (by decide)⟩⟩,
      ⟨_, Buffer.view_length
        ⟨xorWords v.quote.anonce (slice v.quote.userData.bytes 0 32), env.beyond⟩ 32 32⟩, ?_⟩
    rw [CsvAttestationVerifier.attributes, hname]
    rfl

/-! ## Every content is accepted -/

def zeros (n : Nat) : Bytes := List.replicate n 0

@[simp] theorem zeros_length (n : Nat) : (zeros n).length = n := List.length_replicate

/-- The fields of a version 3 quote in memory order, those that are not parsed zero. -/
def SgxContent.segments (c : SgxContent) (pubkeyHash : Blob 32) : List Bytes :=
  [zeros 96, c.flags.bytes, zeros 8, c.mrEnclave.bytes, zeros 32, c.mrSigner.bytes, zeros 96,
    c.isvProdId.bytes, c.isvSvn.bytes, zeros 60, c.userData.bytes, pubkeyHash.bytes, zeros 4]

theorem SgxContent.sizes (c : SgxContent) (pubkeyHash : Blob 32) :
    (c.segments pubkeyHash).map List.length = [96, 8, 8, 32, 32, 32, 96, 2, 2, 60, 32, 32, 4] := by
  simp [segments, Blob.size]

/-- A version 4 quote: header, report body, length of the signature data. -/
def TdxContent.segments (c : TdxContent) (pubkeyHash : Blob 32) : List Bytes :=
  [leBytes 2 4, zeros 2, leBytes 4 TdxAttestationVerifier.kIntelTeeTypeTdx, zeros 40,
    zeros 16, c.mrSeam.bytes, c.mrsignerSeam.bytes, zeros 8, c.tdAttributes.bytes, zeros 8,
    c.mrTd.bytes, c.mrConfigId.bytes, c.mrOwner.bytes, c.mrOwnerConfig.bytes,
    c.rtMr0.bytes, c.rtMr1.bytes, c.rtMr2.bytes, c.rtMr3.bytes, c.userData.bytes,
    pubkeyHash.bytes, zeros 4]

theorem TdxContent.sizes (c : TdxContent) (pubkeyHash : Blob 32) :
    (c.segments pubkeyHash).map List.length =
      [2, 2, 4, 40, 16, 48, 48, 8, 8, 8, 48, 48, 48, 48, 48, 48, 48, 48, 32, 32, 4] := by
  simp [segments, Blob.size]

def csvCertSegments (pubkeyUsage sig1Usage : Nat) : List Bytes :=
  [zeros 8, leBytes 4 pubkeyUsage, zeros 1032, leBytes 4 sig1Usage, zeros 1036]

/-- A quote under the mask zero. -/
def CsvContent.segments (c : CsvContent) : List Bytes :=
  [zeros 32, c.vmId.bytes, c.vmVersion.bytes, c.userData.bytes ++ zeros 32, c.mnonce.bytes,
    c.measure.bytes, c.policy.bytes, zeros 8, zeros 4, zeros 144,
    (csvCertSegments KEY_USAGE_TYPE_PEK KEY_USAGE_TYPE_CEK).flatten, zeros 128]

theorem CsvContent.sizes (c : CsvContent) :
    c.segments.map List.length = [32, 16, 16, 64, 16, 32, 4, 8, 4, 144, 2084, 128] := by
  simp [segments, csvCertSegments, Blob.size]

def acceptingQvl : DcapQvl where
  getQuoteSupplementalDataSize := (0, 0)
  sizeofSupplemental := 0
  verifyQuote _ _ := (0, .ok)

def hskCertSegments : List Bytes := [zeros 36, leBytes 4 KEY_USAGE_TYPE_HSK, zeros 792]

def hskCert : Blob 832 := ⟨hskCertSegments.flatten, by simp [hskCertSegments]⟩

def cekCert : Blob 2084 :=
  ⟨(csvCertSegments KEY_USAGE_TYPE_CEK KEY_USAGE_TYPE_HSK).flatten, by simp [csvCertSegments]⟩

/-- Libraries that vouch for every quote, where the text of a platform report is its quote. -/
def vouchingEnv (H : Sha256) (pubkeyHash : Blob 32) : VerifierEnv where
  sha256 := H
  codec :=
    { base64Decode := .ok
      dcapReport := fun json => .ok ⟨json, [1]⟩
      sgxQlQveCollateral := fun _ => .ok
        { pckCrlIssuerChain := [1], rootCaCrl := [1], pckCrl := [1], tcbInfoIssuerChain := [1]
          tcbInfo := [1], qeIdentityIssuerChain := [1], qeIdentity := [1] }
      hygonCsvReport := fun json => .ok ⟨json, []⟩
      hygonCsvCertChain := fun _ => .ok
        ⟨hskCert.bytes, cekCert.bytes⟩ }
  sgxQvl := acceptingQvl
  tdxQvl := acceptingQvl
  sm2 := fun _ _ _ _ => true
  -- The CSV parser reads the digest from behind its 32 bytes of user data.
  beyond := fun i => pubkeyHash.bytes.getD (i - 32) 0

def passportOf (platform quote nestedReports : Bytes) : UnifiedAttestationReport where
  strReportVersion := kReportVersion
  strReportType := kReportTypePassport
  strTeePlatform := platform
  jsonReport := quote
  jsonNestedReports := nestedReports

/-- A report that verifies, with the given content, public key digest and nested reports. -/
def CarriedByReport (H : Sha256) (content : QuoteContent) (pubkeyHash : Blob 32)
    (nestedReports : Bytes) : Prop :=
  ∃ env report v, env.sha256 = H ∧ report.jsonNestedReports = nestedReports ∧
    createVerifier env report = .ok v ∧ v.PlatformVerified env ∧
    v.HasAttributes env (content.attributes pubkeyHash)

theorem carried_sgx2 (H : Sha256) (c : SgxContent) (pubkeyHash : Blob 32)
    (nestedReports : Bytes) : CarriedByReport H (.sgx2 c) pubkeyHash nestedReports := by
  have hname : kPlatformSgxDcap ≠ kPlatformTdx := by decide
  refine ⟨vouchingEnv H pubkeyHash,
    passportOf kPlatformSgxDcap (c.segments pubkeyHash).flatten nestedReports, _, rfl, rfl,
    (if_neg hname).trans ((if_pos rfl).trans rfl), ⟨[], rfl⟩, ?_, ?_⟩
  · change _ ≤ (c.segments pubkeyHash).flatten.length
    rw [List.length_flatten, c.sizes]
    decide
  · have hsizes := c.sizes pubkeyHash
    have hflags := slice_segment hsizes 1 rfl (rfl : 96 = _) rfl
    have hmrEnclave := slice_segment hsizes 3 rfl (rfl : 112 = _) rfl
    have hmrSigner := slice_segment hsizes 5 rfl (rfl : 176 = _) rfl
    have hprodId := slice_segment hsizes 7 rfl (rfl : 304 = _) rfl
    have hsvn := slice_segment hsizes 8 rfl (rfl : 306 = _) rfl
    have huserData := slice_segment hsizes 10 rfl (rfl : 368 = _) rfl
    have hpubkeyHash := slice_segment hsizes 11 rfl (rfl : 400 = _) rfl
    rw [QuoteContent.attributes, ← hflags, ← hmrEnclave, ← hmrSigner, ← hprodId, ← hsvn,
      ← huserData, ← hpubkeyHash]
    rfl

theorem carried_tdx (H : Sha256) (c : TdxContent) (pubkeyHash : Blob 32)
    (nestedReports : Bytes) : CarriedByReport H (.tdx c) pubkeyHash nestedReports := by
  have hsizes := c.sizes pubkeyHash
  have hlength : (c.segments pubkeyHash).flatten.length = 636 := by
    rw [List.length_flatten, hsizes]
    rfl
  refine ⟨vouchingEnv H pubkeyHash,
    passportOf kPlatformTdx (c.segments pubkeyHash).flatten nestedReports, _, rfl, rfl,
    (if_pos rfl).trans rfl, ⟨[], rfl⟩, TdxAttestationVerifier.offBody4,
    ⟨?_, ?_, .inl ⟨?_, rfl⟩⟩, ?_⟩
  · exact hlength.ge
  · exact congrArg leNat (slice_segment hsizes 2 rfl (rfl : 4 = _) rfl)
  · exact congrArg leNat (slice_segment hsizes 0 rfl (rfl : 0 = _) rfl)
  · -- All fields lie inside a version 4 quote, so the memory behind it is not looked at.
    have hread : ∀ {off len : Nat} {segment : Bytes}, off + len ≤ 636 →
        slice (c.segments pubkeyHash).flatten off len = segment →
        (Buffer.mk (c.segments pubkeyHash).flatten (vouchingEnv H pubkeyHash).beyond).view off len =
          segment :=
      fun hin h => (Buffer.view_eq_slice (hin.trans hlength.ge)).trans h
    have hmrSeam := hread (by decide) (slice_segment hsizes 5 rfl (rfl : 64 = _) rfl)
    have hmrsignerSeam := hread (by decide) (slice_segment hsizes 6 rfl (rfl : 112 = _) rfl)
    have htdAttributes := hread (by decide) (slice_segment hsizes 8 rfl (rfl : 168 = _) rfl)
    have hmrTd := hread (by decide) (slice_segment hsizes 10 rfl (rfl : 184 = _) rfl)
    have hmrConfigId := hread (by decide) (slice_segment hsizes 11 rfl (rfl : 232 = _) rfl)
    have hmrOwner := hread (by decide) (slice_segment hsizes 12 rfl (rfl : 280 = _) rfl)
    have hmrOwnerConfig := hread (by decide) (slice_segment hsizes 13 rfl (rfl : 328 = _) rfl)
    have hrtMr0 := hread (by decide) (slice_segment hsizes 14 rfl (rfl : 376 = _) rfl)
    have hrtMr1 := hread (by decide) (slice_segment hsizes 15 rfl (rfl : 424 = _) rfl)
    have hrtMr2 := hread (by decide) (slice_segment hsizes 16 rfl (rfl : 472 = _) rfl)
    have hrtMr3 := hread (by decide) (slice_segment hsizes 17 rfl (rfl : 520 = _) rfl)
    have huserData := hread (by decide) (slice_segment hsizes 18 rfl (rfl : 568 = _) rfl)
    have hpubkeyHash := hread (by decide) (slice_segment hsizes 19 rfl (rfl : 600 = _) rfl)
    rw [QuoteContent.attributes, ← hmrSeam, ← hmrsignerSeam, ← htdAttributes, ← hmrTd,
      ← hmrConfigId, ← hmrOwner, ← hmrOwnerConfig, ← hrtMr0, ← hrtMr1, ← hrtMr2, ← hrtMr3,
      ← huserData, ← hpubkeyHash]
    rfl

/-! ## CSV reports -/

theorem CsvContent.length_segments (c : CsvContent) : c.segments.flatten.length = 2548 := by
  rw [List.length_flatten, c.sizes]
  rfl

def CsvContent.quote (c : CsvContent) : CsvAttestationReport :=
  .ofBytes ⟨c.segments.flatten, c.length_segments⟩

theorem CsvContent.anonce_quote (c : CsvContent) : c.quote.anonce = ⟨0, 0, 0, 0⟩ :=
  congrArg Word32.ofBytes (slice_segment c.sizes 8 rfl (rfl : 188 = _) rfl)

/-- Unmasking with zero leaves the fields of the quote as they are. -/
theorem CsvContent.plain_quote (c : CsvContent) {field : Bytes} (h : 4 ∣ field.length) :
    xorWords c.quote.anonce field = field := by
  rw [c.anonce_quote, xorWords_zero h]

theorem CsvContent.plainPekCert_quote (c : CsvContent) :
    CsvAttestationVerifier.plainPekCert c.quote =
      (csvCertSegments KEY_USAGE_TYPE_PEK KEY_USAGE_TYPE_CEK).flatten := by
  rw [CsvAttestationVerifier.plainPekCert, c.plain_quote (by rw [Blob.size]; decide)]
  exact slice_segment c.sizes 10 rfl (rfl : 336 = _) rfl

theorem verifyCsvCert_of_usages {sm2 : CsvAttestationVerifier.Sm2}
    (hsm2 : ∀ m s k u, sm2 m s k u = true) (name : String) {pubkeyUsage sig1Usage : Nat}
    (hpubkey : pubkeyUsage < 256 ^ 4) (hsig1 : sig1Usage < 256 ^ 4) (issuer : Bytes)
    (offset : Nat) :
    CsvAttestationVerifier.verifyCsvCert sm2 name pubkeyUsage sig1Usage
      (csvCertSegments pubkeyUsage sig1Usage).flatten issuer offset = .ok () := by
  have hsizes : (csvCertSegments pubkeyUsage sig1Usage).map List.length =
      [8, 4, 1032, 4, 1036] := by
    simp [csvCertSegments]
  have hfirst := slice_segment hsizes 1 rfl (rfl : 8 = _) rfl
  have hsecond := slice_segment hsizes 3 rfl (rfl : 1044 = _) rfl
  simp only [CsvAttestationVerifier.verifyCsvCert, offCsvPubkeyUsage, offCsvSig1Usage, hfirst,
    hsecond, leNat_leBytes_of_lt hpubkey, leNat_leBytes_of_lt hsig1, enforce_pos, ok_bind,
    CsvAttestationVerifier.sm2Verify, hsm2]

theorem verifyHskCert_vouched {sm2 : CsvAttestationVerifier.Sm2}
    (hsm2 : ∀ m s k u, sm2 m s k u = true) :
    CsvAttestationVerifier.verifyHskCertWithHrkPubkey sm2 hskCert = .ok () := by
  have hsizes : hskCertSegments.map List.length = [36, 4, 792] := by simp [hskCertSegments]
  have husage : leNat (slice hskCert.bytes offHskKeyUsage 4) = KEY_USAGE_TYPE_HSK :=
    (congrArg leNat (slice_segment hsizes 1 rfl (rfl : 36 = _) rfl)).trans (by decide)
  simp only [CsvAttestationVerifier.verifyHskCertWithHrkPubkey, husage, enforce_pos, ok_bind,
    CsvAttestationVerifier.sm2Verify, hsm2]

theorem view_beyond {bytes : Bytes} {n : Nat} (b : Blob n) (h : bytes.length = n) :
    (Buffer.mk bytes fun i => b.bytes.getD (i - n) 0).view n n = b.bytes := by
  apply List.ext_getElem
  · rw [Buffer.view_length, b.size]
  · intro i hi hi'
    simp only [Buffer.view, Buffer.byteAt, List.getElem_map, List.getElem_range]
    rw [List.getD_eq_default _ _ (by omega), Nat.add_sub_cancel_left,
      List.getD_eq_getElem _ _ hi']

theorem createVerifier_csv_vouched (H : Sha256) (c : CsvContent) (pubkeyHash : Blob 32)
    (nestedReports : Bytes) :
    createVerifier (vouchingEnv H pubkeyHash)
        (passportOf kPlatformCsv c.segments.flatten nestedReports) =
      .ok (.csv ⟨passportOf kPlatformCsv c.segments.flatten nestedReports, c.quote, hskCert,
        cekCert⟩) := by
  have htdx : kPlatformCsv ≠ kPlatformTdx := by decide
  have hsgx : kPlatformCsv ≠ kPlatformSgxDcap := by decide
  refine (if_neg htdx).trans ((if_neg hsgx).trans ((if_pos rfl).trans ?_))
  simp only [CsvAttestationVerifier.init, passportOf, vouchingEnv, enforce_pos, ok_bind,
    CsvAttestationVerifier.toBlob_of_length _ c.length_segments,
    CsvAttestationVerifier.toBlob_of_length _ hskCert.size,
    CsvAttestationVerifier.toBlob_of_length _ cekCert.size]
  rfl

theorem CsvContent.attributes_quote (c : CsvContent) (pubkeyHash : Blob 32)
    (report : UnifiedAttestationReport) (hplatform : report.strTeePlatform = kPlatformCsv) :
    CsvAttestationVerifier.attributes (fun i => pubkeyHash.bytes.getD (i - 32) 0)
        ⟨report, c.quote, hskCert, cekCert⟩ =
      (QuoteContent.csv c).attributes pubkeyHash := by
  have hvmId : c.quote.vmId.bytes = c.vmId.bytes := slice_segment c.sizes 1 rfl rfl rfl
  have hvmVersion : c.quote.vmVersion.bytes = c.vmVersion.bytes :=
    slice_segment c.sizes 2 rfl rfl rfl
  have huserData : slice c.quote.userData.bytes 0 32 = c.userData.bytes := by
    have hfield : c.quote.userData.bytes = c.userData.bytes ++ zeros 32 :=
      slice_segment c.sizes 3 rfl rfl rfl
    rw [hfield, slice_append_left (by rw [Blob.size]), Blob.slice_all]
  have hmnonce : c.quote.mnonce.bytes = c.mnonce.bytes := slice_segment c.sizes 4 rfl rfl rfl
  have hmeasure : c.quote.measure.bytes = c.measure.bytes := slice_segment c.sizes 5 rfl rfl rfl
  have hpolicy : c.quote.policy.bytes = c.policy.bytes := slice_segment c.sizes 6 rfl rfl rfl
  have hplain : ∀ {n : Nat} (b : Blob n), 4 ∣ n → xorWords c.quote.anonce b.bytes = b.bytes :=
    fun b hn => c.plain_quote (by rwa [b.size])
  simp only [CsvAttestationVerifier.attributes, QuoteContent.attributes, hplatform, hvmId,
    hvmVersion, huserData, hmnonce, hmeasure, hpolicy, hplain c.vmId (by decide),
    hplain c.vmVersion (by decide), hplain c.userData (by decide), hplain c.mnonce (by decide),
    hplain c.measure (by decide), hplain c.policy (by decide),
    view_beyond pubkeyHash c.userData.size]

theorem carried_csv (H : Sha256) (c : CsvContent) (pubkeyHash : Blob 32)
    (nestedReports : Bytes) : CarriedByReport H (.csv c) pubkeyHash nestedReports := by
  refine ⟨_, _, _, rfl, rfl, createVerifier_csv_vouched H c pubkeyHash nestedReports, ⟨_,
    CsvAttestationVerifier.verifyPlatform_eq_ok.mpr ⟨verifyHskCert_vouched fun _ _ _ _ => rfl,
      verifyCsvCert_of_usages (fun _ _ _ _ => rfl) _ (by decide) (by decide) _ _, ?_, rfl, rfl⟩⟩,
      ?_⟩
  · rw [c.plainPekCert_quote]
    exact verifyCsvCert_of_usages (fun _ _ _ _ => rfl) _ (by decide) (by decide) _ _
  · exact (c.attributes_quote pubkeyHash _ rfl).symm

/-- Every content is that of a report that verifies. -/
theorem carriedByReport (H : Sha256) (content : QuoteContent) (pubkeyHash : Blob 32)
    (nestedReports : Bytes) : CarriedByReport H content pubkeyHash nestedReports := by
  cases content with
  | sgx2 c => exact carried_sgx2 H c pubkeyHash nestedReports
  | tdx c => exact carried_tdx H c pubkeyHash nestedReports
  | csv c => exact carried_csv H c pubkeyHash nestedReports

end TrustFlow.Attestation
