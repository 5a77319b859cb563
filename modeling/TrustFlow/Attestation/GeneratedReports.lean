import TrustFlow.Attestation.Generators
import TrustFlow.Data.Base64Decode
import TrustFlow.Attestation.ReportDataReadback
import TrustFlow.Attestation.Verifier

/-! # Generated reports at the verifiers

What a generator returns is what the verifiers are there to read.  The two sides
share no code: each has its own idea of the texts in a report.

* `createVerifier_generated_iff` — the factory opens a generated report exactly if
  it is a passport: the generators also make background-check reports, which no
  verifier takes;
* `verified_of_generated` — on an honest TEE a passport is verified, and its user data
  is the value that the report was asked for. -/

namespace TrustFlow.Attestation

/-! ## What a generator has done -/

section Inversion

variable {env : GeneratorEnv} {genParams : UnifiedAttestationGenerationParams}
  {report : UnifiedAttestationReport}

theorem pb2json_eq_ok {α : Type} {encode : α → Except Bytes Bytes} {message : α} {json : Bytes} :
    pb2json encode message = .ok json ↔ encode message = .ok json := by
  unfold pb2json
  cases encode message with
  | ok json' => simp
  | error status => simp

theorem enforceIoctl_eq_ok {α : Type} {what : String} {result : Except Nat α} {a : α} :
    enforceIoctl what result = .ok a ↔ result = .ok a := by
  cases result with
  | ok a' => simp [enforceIoctl]
  | error errno => simp [enforceIoctl]

/-- A report of the Intel generators: the quote, and for a passport its collateral. -/
structure PackedDcap (env : GeneratorEnv) (platform : Bytes)
    (genParams : UnifiedAttestationGenerationParams) (quote : Bytes) (quoteSize : UInt32)
    (jsonCollateral jsonReport : Bytes) : Prop where
  printed : env.printer.dcapReport { b64Quote := base64Encode quote, jsonCollateral } =
    .ok jsonReport
  passport : genParams.reportType = kReportTypePassport → ∃ collateral,
    getIntelCollateral env.teeQvGetCollateral quote quoteSize = .ok collateral ∧
      env.printer.collateral collateral = .ok jsonCollateral
  background : genParams.reportType ≠ kReportTypePassport → jsonCollateral = []

theorem packDcapReport_eq_ok {platform quote : Bytes} {quoteSize : UInt32}
    (h : packDcapReport env platform genParams quote quoteSize = .ok report) :
    ∃ jsonCollateral jsonReport,
      PackedDcap env platform genParams quote quoteSize jsonCollateral jsonReport ∧
      report = unifiedReport genParams platform jsonReport := by
  obtain ⟨jsonCollateral, hcollateral, h⟩ := bind_eq_ok.mp h
  obtain ⟨jsonReport, hprinted, h⟩ := bind_eq_ok.mp h
  cases h
  refine ⟨jsonCollateral, jsonReport,
    ⟨pb2json_eq_ok.mp hprinted, fun hpassport => ?_, fun hother => ?_⟩, rfl⟩
  · rw [if_pos hpassport] at hcollateral
    obtain ⟨collateral, hfetched, hjson⟩ := bind_eq_ok.mp hcollateral
    exact ⟨collateral, hfetched, pb2json_eq_ok.mp hjson⟩
  · rw [if_neg hother] at hcollateral
    cases hcollateral
    rfl

theorem sgx2_generateReport_eq_ok {device : SgxDevice}
    (h : Sgx2AttestationGenerator.generateReport env device genParams = .ok report) :
    checkReportType genParams = .ok () ∧ ∃ data size quote size',
      prepareSgxReportData env.sha256 genParams = .ok data ∧
      device.genDcapQuote data size = .ok (quote, size') ∧
      packDcapReport env kPlatformSgxDcap genParams quote.bytes size' = .ok report := by
  obtain ⟨_, htype, h⟩ := bind_eq_ok.mp h
  obtain ⟨_, _, h⟩ := bind_eq_ok.mp h
  obtain ⟨size, _, h⟩ := bind_eq_ok.mp h
  obtain ⟨data, hdata, h⟩ := bind_eq_ok.mp h
  obtain ⟨⟨quote, size'⟩, hquote, h⟩ := bind_eq_ok.mp h
  exact ⟨htype, data, size, quote, size', hdata, enforceIoctl_eq_ok.mp hquote, h⟩

theorem tdx_generateReport_eq_ok {tdxAttGetQuote : TdxAttGetQuote}
    (h : TdxAttestationGenerator.generateReport env tdxAttGetQuote genParams = .ok report) :
    checkReportType genParams = .ok () ∧ ∃ data quote,
      prepareTdxReportData env.sha256 genParams = .ok data ∧
      tdxAttGetQuote data = (0, some quote) ∧
      packDcapReport env kPlatformTdx genParams quote.bytes quote.size = .ok report := by
  obtain ⟨_, htype, h⟩ := bind_eq_ok.mp h
  obtain ⟨data, hdata, h⟩ := bind_eq_ok.mp h
  obtain ⟨quote, hquote, h⟩ := bind_eq_ok.mp h
  refine ⟨htype, data, quote, hdata, ?_, h⟩
  split at hquote
  next heq =>
    cases hquote
    exact heq
  next => cases hquote

/-- A report of the CSV generator: the page that the device filled in, and for a passport the two
    certificates. -/
structure PackedCsv (env : GeneratorEnv) (device : CsvDevice) (server : HygonCertServer)
    (genParams : UnifiedAttestationGenerationParams) (userData : CsvAttestationUserData)
    (page : Blob 4096) (jsonCertChain jsonReport : Bytes) : Prop where
  prepared : prepareCsvUserData env.sha256 device.sm3 device.mnonce.bytes genParams = .ok userData
  filled : device.getAttestationReport (pageWith userData.bytes) = .ok page
  printed : env.printer.hygonCsvReport {
      b64Quote := base64Encode (clearReserved2 (pageQuote page))
      jsonCertChain
      strChipId := device.chipId (.ofBytes (pageQuote page)) } = .ok jsonReport
  passport : genParams.reportType = kReportTypePassport → ∃ certChain,
    getHygonCsvCollateral server (device.chipId (.ofBytes (pageQuote page))) = .ok certChain ∧
      env.printer.hygonCsvCertChain certChain = .ok jsonCertChain
  background : genParams.reportType ≠ kReportTypePassport → jsonCertChain = []

theorem csv_generateReport_eq_ok {device : CsvDevice} {server : HygonCertServer}
    (h : CsvAttestationGenerator.generateReport env device server genParams = .ok report) :
    checkReportType genParams = .ok () ∧ ∃ userData page jsonCertChain jsonReport,
      PackedCsv env device server genParams userData page jsonCertChain jsonReport ∧
      report = unifiedReport genParams kPlatformCsv jsonReport := by
  obtain ⟨_, htype, h⟩ := bind_eq_ok.mp h
  obtain ⟨_, _, h⟩ := bind_eq_ok.mp h
  obtain ⟨userData, hprepared, h⟩ := bind_eq_ok.mp h
  obtain ⟨_, _, h⟩ := bind_eq_ok.mp h
  obtain ⟨page, hfilled, h⟩ := bind_eq_ok.mp h
  obtain ⟨_, _, h⟩ := bind_eq_ok.mp h
  obtain ⟨jsonCertChain, hchain, h⟩ := bind_eq_ok.mp h
  obtain ⟨jsonReport, hprinted, h⟩ := bind_eq_ok.mp h
  cases h
  refine ⟨htype, userData, page, jsonCertChain, jsonReport,
    ⟨hprepared, enforceIoctl_eq_ok.mp hfilled, pb2json_eq_ok.mp hprinted, fun hpassport => ?_,
      fun hother => ?_⟩, rfl⟩
  · rw [if_pos hpassport] at hchain
    obtain ⟨certChain, hfetched, hjson⟩ := bind_eq_ok.mp hchain
    exact ⟨certChain, hfetched, pb2json_eq_ok.mp hjson⟩
  · rw [if_neg hother] at hchain
    cases hchain
    rfl

/-- Whatever the platform, a report says what it is: version, type and platform. -/
theorem generated_unifiedReport {tee : Tee}
    (h : createAttestationGenerator env (some tee) genParams = .ok report) :
    ∃ jsonReport, report = unifiedReport genParams tee.platform jsonReport := by
  cases tee with
  | sgx2 device =>
    obtain ⟨_, _, _, _, _, _, _, hpack⟩ := sgx2_generateReport_eq_ok h
    obtain ⟨_, jsonReport, _, hreport⟩ := packDcapReport_eq_ok hpack
    exact ⟨jsonReport, hreport⟩
  | tdx tdxAttGetQuote =>
    obtain ⟨_, _, _, _, _, hpack⟩ := tdx_generateReport_eq_ok h
    obtain ⟨_, jsonReport, _, hreport⟩ := packDcapReport_eq_ok hpack
    exact ⟨jsonReport, hreport⟩
  | csv device server =>
    obtain ⟨_, _, _, _, jsonReport, _, hreport⟩ := csv_generateReport_eq_ok h
    exact ⟨jsonReport, hreport⟩

end Inversion

/-! ## The texts in a report -/

/-- What the generators print of messages in UTF-8, the verifiers read. -/
structure CodecsAgree (printer : ReportPrinter) (codec : ReportCodec) : Prop where
  base64 : ∀ bs, codec.base64Decode (base64Encode bs) = .ok bs
  collateral : ∀ {message json}, printer.collateral message = .ok json →
    (∀ f, IsUtf8 (message.text f)) →
    json ≠ [] ∧ IsUtf8 json ∧ codec.sgxQlQveCollateral json = .ok message.toSgxQlQveCollateral
  dcapReport : ∀ {message json}, printer.dcapReport message = .ok json →
    IsUtf8 message.b64Quote ∧ IsUtf8 message.jsonCollateral →
    IsUtf8 json ∧ codec.dcapReport json = .ok message
  hygonCsvCertChain : ∀ {message json}, printer.hygonCsvCertChain message = .ok json →
    IsUtf8 message.b64HskCert ∧ IsUtf8 message.b64CekCert →
    IsUtf8 json ∧ codec.hygonCsvCertChain json = .ok message
  hygonCsvReport : ∀ {message json}, printer.hygonCsvReport message = .ok json →
    IsUtf8 message.b64Quote ∧ IsUtf8 message.jsonCertChain ∧ IsUtf8 message.strChipId →
    IsUtf8 json ∧ codec.hygonCsvReport json = .ok message.toHygonCsvReport

/-- What goes into a report besides the quote is UTF-8: the collateral that the library has for a
    quote of the device, or the chip of a page that the device filled in. -/
def Tee.Texts (gen : GeneratorEnv) : Tee → Prop
  | .sgx2 device => ∀ data size quote size' collateral,
      device.genDcapQuote data size = .ok (quote, size') →
      getIntelCollateral gen.teeQvGetCollateral quote.bytes size' = .ok collateral →
      ∀ f, IsUtf8 (collateral.text f)
  | .tdx tdxAttGetQuote => ∀ data quote collateral, tdxAttGetQuote data = (0, some quote) →
      getIntelCollateral gen.teeQvGetCollateral quote.bytes quote.size = .ok collateral →
      ∀ f, IsUtf8 (collateral.text f)
  | .csv device _ => ∀ page page', device.getAttestationReport page = .ok page' →
      IsUtf8 (device.chipId (.ofBytes (pageQuote page')))

section Reading

variable {env : GeneratorEnv} {codec : ReportCodec}
  {genParams : UnifiedAttestationGenerationParams}

/-- The members of an Intel verifier are the quote and the collateral of the generator. -/
theorem initDcapVerifier_packed (hagree : CodecsAgree env.printer codec)
    {platform quote jsonCollateral jsonReport : Bytes} {quoteSize : UInt32}
    (htexts : ∀ collateral,
      getIntelCollateral env.teeQvGetCollateral quote quoteSize = .ok collateral →
        ∀ f, IsUtf8 (collateral.text f))
    (hpassport : genParams.reportType = kReportTypePassport)
    (h : PackedDcap env platform genParams quote quoteSize jsonCollateral jsonReport) :
    ∃ collateral, getIntelCollateral env.teeQvGetCollateral quote quoteSize = .ok collateral ∧
      initDcapVerifier codec platform (unifiedReport genParams platform jsonReport) =
        .ok ⟨unifiedReport genParams platform jsonReport, quote,
          collateral.toSgxQlQveCollateral⟩ := by
  obtain ⟨collateral, hfetched, hjson⟩ := h.passport hpassport
  obtain ⟨hne, hutf8, hread⟩ := hagree.collateral hjson (htexts collateral hfetched)
  refine ⟨collateral, hfetched, ?_⟩
  have hreport := (hagree.dcapReport h.printed ⟨isUtf8_base64Encode quote, hutf8⟩).2
  simp [initDcapVerifier, unifiedReport, hpassport, enforce_pos, hreport, hagree.base64, hne,
    hread]

theorem clearReserved2_length (quote : Blob 2548) : (clearReserved2 quote).length = 2548 := by
  simp only [clearReserved2, overwrite, zeroReserved2, offReserved2, List.length_append,
    List.length_take, List.length_drop, List.length_replicate, quote.size]
  omega

theorem getHygonCsvCollateral_eq_ok {server : HygonCertServer} {chip : Bytes}
    {certChain : HygonCsvCertChain} (h : getHygonCsvCollateral server chip = .ok certChain) :
    ∃ body : Blob 2916, server.get (kHygonHskCekSubUrl ++ chip) = .ok body.bytes ∧
      certChain =
        ⟨base64Encode (slice body.bytes 0 832), base64Encode (slice body.bytes 832 2084)⟩ := by
  obtain ⟨_, _, h⟩ := bind_eq_ok.mp h
  obtain ⟨body, hbody, h⟩ := bind_eq_ok.mp h
  obtain ⟨_, hlen, h⟩ := bind_eq_ok.mp h
  cases h
  refine ⟨⟨body, enforce_eq_ok.mp hlen⟩, ?_, rfl⟩
  split at hbody
  next heq =>
    cases hbody
    exact heq
  next => cases hbody

/-- The two certificates in an answer of the server. -/
def hskCertOf (body : Blob 2916) : Blob 832 := body.field 0 832 (by decide)

def cekCertOf (body : Blob 2916) : Blob 2084 := body.field 832 2084 (by decide)

/-- The members of a CSV verifier are the quote of the device, but for `reserved2`, and the
    certificates of the server. -/
theorem initCsvVerifier_packed (hagree : CodecsAgree env.printer codec) {device : CsvDevice}
    {server : HygonCertServer} {userData : CsvAttestationUserData} {page : Blob 4096}
    {jsonCertChain jsonReport : Bytes}
    (hchip : IsUtf8 (device.chipId (.ofBytes (pageQuote page))))
    (hpassport : genParams.reportType = kReportTypePassport)
    (h : PackedCsv env device server genParams userData page jsonCertChain jsonReport) :
    ∃ body : Blob 2916,
      server.get (kHygonHskCekSubUrl ++ device.chipId (.ofBytes (pageQuote page))) =
        .ok body.bytes ∧
      CsvAttestationVerifier.init codec (unifiedReport genParams kPlatformCsv jsonReport) =
        .ok ⟨unifiedReport genParams kPlatformCsv jsonReport,
          .ofBytes ⟨clearReserved2 (pageQuote page), clearReserved2_length _⟩,
          hskCertOf body, cekCertOf body⟩ := by
  obtain ⟨certChain, hfetched, hjson⟩ := h.passport hpassport
  obtain ⟨body, hbody, rfl⟩ := getHygonCsvCollateral_eq_ok hfetched
  refine ⟨body, hbody, ?_⟩
  obtain ⟨hutf8, hchain⟩ := hagree.hygonCsvCertChain hjson
    ⟨isUtf8_base64Encode _, isUtf8_base64Encode _⟩
  have hreport := (hagree.hygonCsvReport h.printed ⟨isUtf8_base64Encode _, hutf8, hchip⟩).2
  have hhsk : (slice body.bytes 0 832).length = 832 := slice_length (by rw [body.size]; decide)
  have hcek : (slice body.bytes 832 2084).length = 2084 := slice_length (by rw [body.size])
  simp only [CsvAttestationVerifier.init, unifiedReport, hpassport, enforce_pos, ok_bind, hreport,
    hchain, hagree.base64, CsvAttestationVerifier.toBlob_of_length _ (clearReserved2_length _),
    CsvAttestationVerifier.toBlob_of_length _ hhsk, CsvAttestationVerifier.toBlob_of_length _ hcek]
  rfl

end Reading

/-! ## The factory -/

section Factory

variable (env : VerifierEnv) (genParams : UnifiedAttestationGenerationParams) (jsonReport : Bytes)

theorem createVerifier_sgx2 :
    createVerifier env (unifiedReport genParams kPlatformSgxDcap jsonReport) =
      AttestationVerifier.sgx2 <$>
        initDcapVerifier env.codec kPlatformSgxDcap
          (unifiedReport genParams kPlatformSgxDcap jsonReport) := by
  have hname : kPlatformSgxDcap ≠ kPlatformTdx := by decide
  exact (if_neg hname).trans (if_pos rfl)

theorem createVerifier_tdx :
    createVerifier env (unifiedReport genParams kPlatformTdx jsonReport) =
      AttestationVerifier.tdx <$>
        initDcapVerifier env.codec kPlatformTdx
          (unifiedReport genParams kPlatformTdx jsonReport) :=
  if_pos rfl

theorem createVerifier_csv :
    createVerifier env (unifiedReport genParams kPlatformCsv jsonReport) =
      AttestationVerifier.csv <$>
        CsvAttestationVerifier.init env.codec
          (unifiedReport genParams kPlatformCsv jsonReport) := by
  have htdx : kPlatformCsv ≠ kPlatformTdx := by decide
  have hsgx : kPlatformCsv ≠ kPlatformSgxDcap := by decide
  exact (if_neg htdx).trans ((if_neg hsgx).trans (if_pos rfl))

variable {env genParams jsonReport}

/-- No verifier is created for another type of report. -/
theorem passport_of_createVerifier {tee : Tee} {v : AttestationVerifier}
    (h : createVerifier env (unifiedReport genParams tee.platform jsonReport) = .ok v) :
    genParams.reportType = kReportTypePassport := by
  cases tee with
  | sgx2 device =>
    obtain ⟨v', hinit, _⟩ := map_eq_ok.mp ((createVerifier_sgx2 _ _ _).symm.trans h)
    obtain ⟨_, _, hinit⟩ := bind_eq_ok.mp hinit
    obtain ⟨_, htype, _⟩ := bind_eq_ok.mp hinit
    exact enforce_eq_ok.mp htype
  | tdx tdxAttGetQuote =>
    obtain ⟨v', hinit, _⟩ := map_eq_ok.mp ((createVerifier_tdx _ _ _).symm.trans h)
    obtain ⟨_, _, hinit⟩ := bind_eq_ok.mp hinit
    obtain ⟨_, htype, _⟩ := bind_eq_ok.mp hinit
    exact enforce_eq_ok.mp htype
  | csv device server =>
    obtain ⟨v', hinit, _⟩ := map_eq_ok.mp ((createVerifier_csv _ _ _).symm.trans h)
    obtain ⟨_, _, hinit⟩ := bind_eq_ok.mp hinit
    obtain ⟨_, htype, _⟩ := bind_eq_ok.mp hinit
    exact enforce_eq_ok.mp htype

end Factory

/-- The members of the verifier of a generated passport. -/
inductive Opened (gen : GeneratorEnv) (genParams : UnifiedAttestationGenerationParams) :
    Tee → UnifiedAttestationReport → AttestationVerifier → Prop where
  | sgx2 {device data size quote size' collateral report} :
      prepareSgxReportData gen.sha256 genParams = .ok data →
      device.genDcapQuote data size = .ok (quote, size') →
      getIntelCollateral gen.teeQvGetCollateral quote.bytes size' = .ok collateral →
      Opened gen genParams (.sgx2 device) report
        (.sgx2 ⟨report, quote.bytes, collateral.toSgxQlQveCollateral⟩)
  | tdx {tdxAttGetQuote data quote collateral report} :
      prepareTdxReportData gen.sha256 genParams = .ok data →
      tdxAttGetQuote data = (0, some quote) →
      getIntelCollateral gen.teeQvGetCollateral quote.bytes quote.size = .ok collateral →
      Opened gen genParams (.tdx tdxAttGetQuote) report
        (.tdx ⟨report, quote.bytes, collateral.toSgxQlQveCollateral⟩)
  | csv {device server userData page} {body : Blob 2916} {report} :
      prepareCsvUserData gen.sha256 device.sm3 device.mnonce.bytes genParams = .ok userData →
      device.getAttestationReport (pageWith userData.bytes) = .ok page →
      server.get (kHygonHskCekSubUrl ++ device.chipId (.ofBytes (pageQuote page))) =
        .ok body.bytes →
      Opened gen genParams (.csv device server) report
        (.csv ⟨report, .ofBytes ⟨clearReserved2 (pageQuote page), clearReserved2_length _⟩,
          hskCertOf body, cekCertOf body⟩)

theorem opened_of_generated {env : VerifierEnv} {gen : GeneratorEnv} {tee : Tee}
    {genParams : UnifiedAttestationGenerationParams} {report : UnifiedAttestationReport}
    (hagree : CodecsAgree gen.printer env.codec) (htexts : tee.Texts gen)
    (hpassport : genParams.reportType = kReportTypePassport)
    (h : createAttestationGenerator gen (some tee) genParams = .ok report) :
    ∃ v, createVerifier env report = .ok v ∧ Opened gen genParams tee report v := by
  cases tee with
  | sgx2 device =>
    obtain ⟨_, data, size, quote, size', hdata, hquote, hpack⟩ := sgx2_generateReport_eq_ok h
    obtain ⟨_, jsonReport, hpacked, rfl⟩ := packDcapReport_eq_ok hpack
    obtain ⟨collateral, hfetched, hinit⟩ := initDcapVerifier_packed hagree
      (fun collateral => htexts data size quote size' collateral hquote) hpassport hpacked
    refine ⟨_, ?_, .sgx2 hdata hquote hfetched⟩
    rw [createVerifier_sgx2, hinit]
    rfl
  | tdx tdxAttGetQuote =>
    obtain ⟨_, data, quote, hdata, hquote, hpack⟩ := tdx_generateReport_eq_ok h
    obtain ⟨_, jsonReport, hpacked, rfl⟩ := packDcapReport_eq_ok hpack
    obtain ⟨collateral, hfetched, hinit⟩ := initDcapVerifier_packed hagree
      (fun collateral => htexts data quote collateral hquote) hpassport hpacked
    refine ⟨_, ?_, .tdx hdata hquote hfetched⟩
    rw [createVerifier_tdx, hinit]
    rfl
  | csv device server =>
    obtain ⟨_, userData, page, _, jsonReport, hpacked, rfl⟩ := csv_generateReport_eq_ok h
    obtain ⟨body, hbody, hinit⟩ := initCsvVerifier_packed hagree
      (htexts _ page hpacked.filled) hpassport hpacked
    refine ⟨_, ?_, .csv hpacked.prepared hpacked.filled hbody⟩
    rw [createVerifier_csv, hinit]
    rfl

/-- The strings of a report are texts. -/
structure UnifiedAttestationReport.Utf8 (report : UnifiedAttestationReport) : Prop where
  strReportVersion : IsUtf8 report.strReportVersion
  strReportType : IsUtf8 report.strReportType
  strTeePlatform : IsUtf8 report.strTeePlatform
  jsonReport : IsUtf8 report.jsonReport
  jsonNestedReports : IsUtf8 report.jsonNestedReports

theorem utf8_unifiedReport {genParams : UnifiedAttestationGenerationParams}
    (htype : checkReportType genParams = .ok ()) (tee : Tee) {jsonReport : Bytes}
    (hjson : IsUtf8 jsonReport) : (unifiedReport genParams tee.platform jsonReport).Utf8 where
  strReportVersion := isUtf8_str _
  strReportType := by
    rcases enforce_eq_ok.mp htype with hbgcheck | hpassport
    · exact ⟨_, hbgcheck⟩
    · exact ⟨_, hpassport⟩
  strTeePlatform := by cases tee <;> exact isUtf8_str _
  jsonReport := hjson
  jsonNestedReports := isUtf8_str ""

theorem PackedDcap.utf8 {gen : GeneratorEnv} {codec : ReportCodec}
    (hagree : CodecsAgree gen.printer codec) {platform quote jsonCollateral jsonReport : Bytes}
    {genParams : UnifiedAttestationGenerationParams} {quoteSize : UInt32}
    (htexts : ∀ collateral,
      getIntelCollateral gen.teeQvGetCollateral quote quoteSize = .ok collateral →
        ∀ f, IsUtf8 (collateral.text f))
    (h : PackedDcap gen platform genParams quote quoteSize jsonCollateral jsonReport) :
    IsUtf8 jsonReport := by
  refine (hagree.dcapReport h.printed ⟨isUtf8_base64Encode quote, ?_⟩).1
  by_cases hpassport : genParams.reportType = kReportTypePassport
  · obtain ⟨collateral, hfetched, hjson⟩ := h.passport hpassport
    exact (hagree.collateral hjson (htexts collateral hfetched)).2.1
  · rw [h.background hpassport]
    exact isUtf8_str ""

theorem PackedCsv.utf8 {gen : GeneratorEnv} {codec : ReportCodec}
    (hagree : CodecsAgree gen.printer codec) {device : CsvDevice} {server : HygonCertServer}
    {genParams : UnifiedAttestationGenerationParams} {userData : CsvAttestationUserData}
    {page : Blob 4096} {jsonCertChain jsonReport : Bytes}
    (hchip : IsUtf8 (device.chipId (.ofBytes (pageQuote page))))
    (h : PackedCsv gen device server genParams userData page jsonCertChain jsonReport) :
    IsUtf8 jsonReport := by
  refine (hagree.hygonCsvReport h.printed ⟨isUtf8_base64Encode _, ?_, hchip⟩).1
  by_cases hpassport : genParams.reportType = kReportTypePassport
  · obtain ⟨certChain, hfetched, hjson⟩ := h.passport hpassport
    obtain ⟨body, _, rfl⟩ := getHygonCsvCollateral_eq_ok hfetched
    exact (hagree.hygonCsvCertChain hjson ⟨isUtf8_base64Encode _, isUtf8_base64Encode _⟩).1
  · rw [h.background hpassport]
    exact isUtf8_str ""

theorem utf8_of_generated {gen : GeneratorEnv} {codec : ReportCodec} {tee : Tee}
    {genParams : UnifiedAttestationGenerationParams} {report : UnifiedAttestationReport}
    (hagree : CodecsAgree gen.printer codec) (htexts : tee.Texts gen)
    (h : createAttestationGenerator gen (some tee) genParams = .ok report) : report.Utf8 := by
  cases tee with
  | sgx2 device =>
    obtain ⟨htype, data, size, quote, size', _, hquote, hpack⟩ := sgx2_generateReport_eq_ok h
    obtain ⟨_, jsonReport, hpacked, rfl⟩ := packDcapReport_eq_ok hpack
    exact utf8_unifiedReport htype (.sgx2 device)
      (hpacked.utf8 hagree fun collateral => htexts data size quote size' collateral hquote)
  | tdx tdxAttGetQuote =>
    obtain ⟨htype, data, quote, _, hquote, hpack⟩ := tdx_generateReport_eq_ok h
    obtain ⟨_, jsonReport, hpacked, rfl⟩ := packDcapReport_eq_ok hpack
    exact utf8_unifiedReport htype (.tdx tdxAttGetQuote)
      (hpacked.utf8 hagree fun collateral => htexts data quote collateral hquote)
  | csv device server =>
    obtain ⟨htype, userData, page, _, jsonReport, hpacked, rfl⟩ := csv_generateReport_eq_ok h
    exact utf8_unifiedReport htype (.csv device server)
      (hpacked.utf8 hagree (htexts _ page hpacked.filled))

/-! ## Honest platforms -/

/-- The quote verification library accepts the quote with this collateral. -/
def DcapQvl.Accepts (qvl : DcapQvl) (quote : Bytes) (data : CollateralData) : Prop :=
  qvl.getQuoteSupplementalDataSize = (0, qvl.sizeofSupplemental) ∧
    qvl.verifyQuote quote data = (0, .ok)

/-- The library of the generator has collateral for the quote: seven texts, with which the library
    of the verifier accepts it. -/
def Vouched (gen : GeneratorEnv) (qvl : DcapQvl) (quote : Bytes) (quoteSize : UInt32) : Prop :=
  ∃ raw text, gen.teeQvGetCollateral quote quoteSize = (0, some raw) ∧
    QveCollateral.Holds raw text ∧ (∀ f, (raw.array f).RoomForNul) ∧
    ∀ data, Delivered raw.version.toNat text data → qvl.Accepts quote data

/-- The chain from the root key to the signature of the quote is in order. -/
structure CsvVouched (sm2 : CsvAttestationVerifier.Sm2) (quote : CsvAttestationReport)
    (hskCert : Blob 832) (cekCert : Blob 2084) : Prop where
  hsk : CsvAttestationVerifier.verifyHskCertWithHrkPubkey sm2 hskCert = .ok ()
  cek : CsvAttestationVerifier.verifyCekCertWithHskCert sm2 cekCert hskCert = .ok ()
  pek : CsvAttestationVerifier.verifyPekCertWithCekCert sm2
    (CsvAttestationVerifier.plainPekCert quote) cekCert = .ok ()
  quote : CsvAttestationVerifier.verifyQuoteSignature sm2 quote
    (CsvAttestationVerifier.plainPekCert quote) = .ok ()

/-- The TEE makes its quotes for the data it is given, and its vendor vouches for them; the chip of
    a CSV device has a name in UTF-8. -/
def Tee.Honest (gen : GeneratorEnv) (env : VerifierEnv) : Tee → Prop
  | .sgx2 device => ∀ data size quote size',
      device.genDcapQuote data size = .ok (quote, size') →
        SgxCarries quote.bytes data ∧
        Sgx2AttestationVerifier.sizeofQuote3 ≤ quote.bytes.length ∧
        Vouched gen env.sgxQvl quote.bytes size'
  | .tdx tdxAttGetQuote => ∀ data quote, tdxAttGetQuote data = (0, some quote) →
      (∃ body, TdxCarries quote.bytes body data) ∧
        Vouched gen env.tdxQvl quote.bytes quote.size
  | .csv device server => ∀ page page', device.getAttestationReport page = .ok page' →
      CsvCarries (.ofBytes (pageQuote page')) (slice page.bytes 0 64) ∧
        IsUtf8 (device.chipId (.ofBytes (pageQuote page'))) ∧
        ∀ body : Blob 2916,
          server.get (kHygonHskCekSubUrl ++ device.chipId (.ofBytes (pageQuote page'))) =
            .ok body.bytes →
          CsvVouched env.sm2 (.ofBytes (pageQuote page')) (hskCertOf body) (cekCertOf body)

theorem verifyDcapPlatform_of_accepts {qvl : DcapQvl} {quote : Bytes}
    {collateral : SgxQlQveCollateral} {data : CollateralData}
    (hdata : initializeCollateralData collateral = .ok data) (h : qvl.Accepts quote data) :
    verifyDcapPlatform qvl quote collateral = .ok () := by
  rw [verifyDcapPlatform, hdata, ok_bind, h.1]
  simp only [enforce_pos, ok_bind, h.2]
  rfl

theorem fetched_of_holds {gen : GeneratorEnv} {quote : Bytes} {quoteSize : UInt32}
    {raw : QveCollateral} {text : CollateralField → Bytes} {collateral : FetchedCollateral}
    (hget : gen.teeQvGetCollateral quote quoteSize = (0, some raw)) (hholds : raw.Holds text)
    (hfetched : getIntelCollateral gen.teeQvGetCollateral quote quoteSize = .ok collateral) :
    collateral.version = raw.version.toNat ∧ ∀ f, collateral.text f = text f := by
  obtain ⟨collateral', hfetched', hversion, harrays⟩ := getIntelCollateral_of_success hget
  cases hfetched.symm.trans hfetched'
  refine ⟨hversion, fun f => ?_⟩
  rw [harrays f, (hholds f).toString_eq]

theorem Vouched.utf8 {gen : GeneratorEnv} {qvl : DcapQvl} {quote : Bytes} {quoteSize : UInt32}
    {collateral : FetchedCollateral} (h : Vouched gen qvl quote quoteSize)
    (hfetched : getIntelCollateral gen.teeQvGetCollateral quote quoteSize = .ok collateral)
    (f : CollateralField) : IsUtf8 (collateral.text f) := by
  obtain ⟨raw, text, hget, hholds, _⟩ := h
  rw [(fetched_of_holds hget hholds hfetched).2 f]
  exact (hholds f).plain.2

theorem Tee.Honest.texts {gen : GeneratorEnv} {env : VerifierEnv} {tee : Tee}
    (h : tee.Honest gen env) : tee.Texts gen := by
  cases tee with
  | sgx2 device =>
    intro data size quote size' collateral hquote hfetched
    exact (h data size quote size' hquote).2.2.utf8 hfetched
  | tdx tdxAttGetQuote =>
    intro data quote collateral hquote hfetched
    exact (h data quote hquote).2.utf8 hfetched
  | csv device server => exact fun page page' hfilled => (h page page' hfilled).2.1

theorem verifyDcapPlatform_of_vouched {gen : GeneratorEnv} {qvl : DcapQvl} {quote : Bytes}
    {quoteSize : UInt32} {collateral : FetchedCollateral} (h : Vouched gen qvl quote quoteSize)
    (hfetched : getIntelCollateral gen.teeQvGetCollateral quote quoteSize = .ok collateral) :
    verifyDcapPlatform qvl quote collateral.toSgxQlQveCollateral = .ok () := by
  -- The texts arrive with a NUL behind each, as the library of the verifier needs them.
  obtain ⟨raw, text, hget, hholds, hroom, haccepts⟩ := h
  obtain ⟨hversion, htext⟩ := fetched_of_holds hget hholds hfetched
  have hne : ∀ f, collateral.text f ≠ [] := fun f => htext f ▸ (hholds f).nonempty
  obtain ⟨data, hinit, hdata, hbuffer⟩ := initializeCollateralData_of_ne_nil hne
  simp only [htext] at hbuffer
  have hdelivered := (delivered_iff hholds (hdata.trans hversion) hbuffer).mpr hroom
  exact verifyDcapPlatform_of_accepts hinit (haccepts data hdelivered)

/-! ### The cleared field -/

theorem zeroReserved2_length : zeroReserved2.length = 32 := List.length_replicate

/-- No other field of a quote is touched. -/
theorem ofBytes_clearReserved2 (quote : Blob 2548) :
    CsvAttestationReport.ofBytes ⟨clearReserved2 quote, clearReserved2_length quote⟩ =
      { CsvAttestationReport.ofBytes quote with
        reserved2 := ⟨zeroReserved2, zeroReserved2_length⟩ } := by
  have hstart : offReserved2 ≤ quote.bytes.length := by
    rw [quote.size]
    decide
  have hbefore : ∀ {off len}, off + len ≤ offReserved2 →
      slice (clearReserved2 quote) off len = slice quote.bytes off len :=
    fun h => slice_overwrite_before hstart h
  have hmac : slice (clearReserved2 quote) 2516 32 = slice quote.bytes 2516 32 :=
    slice_overwrite_after _ hstart (by rw [zeroReserved2_length]; decide)
  have hself : slice (clearReserved2 quote) 2484 32 = zeroReserved2 := by
    have h : slice (clearReserved2 quote) 2484 zeroReserved2.length = zeroReserved2 :=
      slice_overwrite_self hstart
    rwa [zeroReserved2_length] at h
  simp only [CsvAttestationReport.ofBytes, Blob.field, CsvAttestationReport.mk.injEq,
    Blob.mk.injEq]
  refine ⟨?_, ?_, ?_, ?_, ?_, ?_, ?_, ?_, ?_, ?_, ?_, ?_, ?_, hself, hmac⟩
  all_goals first | exact hbefore (by decide) | exact congrArg _ (hbefore (by decide))

/-- The chain does not depend on the field. -/
theorem CsvVouched.clear {sm2 : CsvAttestationVerifier.Sm2} {quote : Blob 2548}
    {hskCert : Blob 832} {cekCert : Blob 2084}
    (h : CsvVouched sm2 (.ofBytes quote) hskCert cekCert) :
    CsvVouched sm2 (.ofBytes ⟨clearReserved2 quote, clearReserved2_length quote⟩) hskCert
      cekCert := by
  rw [ofBytes_clearReserved2]
  exact ⟨h.hsk, h.cek, h.pek, h.quote⟩

/-! ## Verification -/

theorem slice_pageWith {bs : Bytes} {off len : Nat} (h : off + len ≤ bs.length)
    (hpage : off + len ≤ 4096) : slice (pageWith bs).bytes off len = slice bs off len := by
  rw [pageWith, slice_take hpage, slice_append_left h]

theorem prepareCsvUserData_data {H : Sha256} {sm3 : Bytes → Bytes} {mnonce : Bytes}
    {genParams : UnifiedAttestationGenerationParams} {userData : CsvAttestationUserData}
    (h : prepareCsvUserData H sm3 mnonce genParams = .ok userData) :
    userData.data.length = 64 := by
  obtain ⟨data, hdata, hmade⟩ := bind_eq_ok.mp h
  cases hmade
  obtain ⟨haccepted, rfl⟩ := (prepareReportData_eq_ok (by decide) (by decide)).mp hdata
  rw [List.length_append, haccepted.valueBytes_length (by decide) (by decide), keyBytes_length]

/-- What the verifier of an opened passport finds, on an honest platform. -/
theorem Opened.verifies {gen : GeneratorEnv} {env : VerifierEnv} {tee : Tee}
    {genParams : UnifiedAttestationGenerationParams} {report : UnifiedAttestationReport}
    {v : AttestationVerifier} (h : Opened gen genParams tee report v)
    (hhonest : tee.Honest gen env) :
    v.PlatformVerified env ∧ ∃ attrs, v.HasAttributes env attrs ∧
      attrs.strTeePlatform = report.strTeePlatform ∧
      attrs.hexUserData = bytesToHexString (valueBytes genParams) := by
  cases h with
  | sgx2 hdata hquote hfetched =>
    obtain ⟨hcarries, hsize, hvouched⟩ := hhonest _ _ _ _ hquote
    refine ⟨⟨[], ?_⟩, _, ⟨hsize, rfl⟩, rfl, sgx_hexUserData hdata hcarries⟩
    simp only [AttestationVerifier.verifyPlatform, Sgx2AttestationVerifier.verifyPlatform,
      verifyDcapPlatform_of_vouched hvouched hfetched]
    rfl
  | tdx hdata hquote hfetched =>
    obtain ⟨⟨body, hcarries⟩, hvouched⟩ := hhonest _ _ hquote
    refine ⟨⟨[], ?_⟩, _, ⟨body, hcarries.1, rfl⟩, rfl, tdx_hexUserData env.beyond hdata hcarries⟩
    simp only [AttestationVerifier.verifyPlatform, TdxAttestationVerifier.verifyPlatform,
      verifyDcapPlatform_of_vouched hvouched hfetched]
    rfl
  | @csv device server userData page body _ hdata hfilled hbody =>
    obtain ⟨hcarries, _, hchain⟩ := hhonest _ _ hfilled
    have hvouched := (hchain body hbody).clear
    have hlen := prepareCsvUserData_data hdata
    have hpage : slice (pageWith userData.bytes).bytes 0 64 = userData.data := by
      rw [slice_pageWith (by simp [CsvAttestationUserData.bytes, hlen]) (by decide), slice,
        List.drop_zero, CsvAttestationUserData.bytes, List.append_assoc,
        List.take_left' hlen]
    rw [hpage] at hcarries
    refine ⟨⟨_, CsvAttestationVerifier.verifyPlatform_eq_ok.mpr
      ⟨hvouched.hsk, hvouched.cek, hvouched.pek, hvouched.quote, rfl⟩⟩, _, rfl, rfl, ?_⟩
    refine csv_hexUserData env.beyond hdata ?_
    rw [ofBytes_clearReserved2]
    exact hcarries

/-- On an honest platform, a generated passport is verified, and shows the value that the report
    was asked for. -/
theorem verified_of_generated {env : VerifierEnv} {gen : GeneratorEnv} {tee : Tee}
    {genParams : UnifiedAttestationGenerationParams} {report : UnifiedAttestationReport}
    (hagree : CodecsAgree gen.printer env.codec) (hhonest : tee.Honest gen env)
    (hpassport : genParams.reportType = kReportTypePassport)
    (h : createAttestationGenerator gen (some tee) genParams = .ok report) :
    ∃ v attrs, createVerifier env report = .ok v ∧ v.PlatformVerified env ∧
      v.HasAttributes env attrs ∧ attrs.strTeePlatform = tee.platform ∧
      attrs.hexUserData = bytesToHexString (valueBytes genParams) := by
  obtain ⟨v, hcreate, hopened⟩ := opened_of_generated hagree hhonest.texts hpassport h
  obtain ⟨hplatform, attrs, hattrs, hname, hvalue⟩ := hopened.verifies hhonest
  obtain ⟨jsonReport, rfl⟩ := generated_unifiedReport h
  exact ⟨v, attrs, hcreate, hplatform, hattrs, hname, hvalue⟩

/-! ## A concrete platform -/

/-- An SGX quote for report data, all zero otherwise. -/
def quoteFor (data : Bytes) : Bytes := List.replicate 368 0 ++ data ++ List.replicate 4 0

def sampleSgxDevice : SgxDevice where
  getDcapQuoteSize := .ok 436
  genDcapQuote data size :=
    if h : data.length = 64 ∧ (quoteFor data).length = size.toNat then
      .ok (⟨quoteFor data, h.2⟩, size)
    else .error 22

def sampleFetched : SgxQlQveCollateral where
  version := 3
  pckCrlIssuerChain := str "CRL"
  rootCaCrl := str "CRL"
  pckCrl := str "CRL"
  tcbInfoIssuerChain := str "CRL"
  tcbInfo := str "TCB"
  qeIdentityIssuerChain := str "CRL"
  qeIdentity := str "CRL"

/-- A report is printed as its quote, a NUL and its collateral; the collateral has one text. -/
def sampleGenerator : GeneratorEnv where
  sha256 := paddingSha256
  printer := {
    collateral := fun c =>
      if c.toSgxQlQveCollateral = sampleFetched then .ok (str "collateral") else .error []
    dcapReport := fun r =>
      if 0 ∈ r.b64Quote then .error [] else .ok (r.b64Quote ++ 0 :: r.jsonCollateral)
    hygonCsvCertChain := fun _ => .error []
    hygonCsvReport := fun _ => .error [] }
  teeQvGetCollateral _ _ := (0, some (sampleCollateral shortTcbInfo))

def sampleQvl : DcapQvl where
  getQuoteSupplementalDataSize := (0, 0)
  sizeofSupplemental := 0
  verifyQuote _ _ := (0, .ok)

def base64DecodeExn (text : Bytes) : Except Exn Bytes :=
  match base64Decode text with
  | some bs => .ok bs
  | none => .error ⟨.stdException, str "parse error"⟩

def sampleVerifierEnv : VerifierEnv where
  sha256 := paddingSha256
  codec := {
    base64Decode := base64DecodeExn
    dcapReport := fun json => .ok ⟨cText json, behindText json⟩
    sgxQlQveCollateral := fun _ => .ok sampleFetched
    hygonCsvReport := fun _ => .ok {}
    hygonCsvCertChain := fun _ => .ok {} }
  sgxQvl := sampleQvl
  tdxQvl := sampleQvl
  sm2 _ _ _ _ := true
  beyond _ := 0

theorem sample_codecsAgree : CodecsAgree sampleGenerator.printer sampleVerifierEnv.codec where
  base64 bs := by simp [sampleVerifierEnv, base64DecodeExn, base64Decode_encode]
  collateral {message json} h _ := by
    simp only [sampleGenerator] at h
    split at h
    next heq =>
      cases h
      exact ⟨by decide, isUtf8_str _, by rw [heq]; rfl⟩
    next => cases h
  dcapReport {message json} h hutf8 := by
    simp only [sampleGenerator] at h
    split at h
    next => cases h
    next hnul =>
      cases h
      refine ⟨hutf8.1.append (IsUtf8.append (isUtf8_str "\x00") hutf8.2), ?_⟩
      simp [sampleVerifierEnv, cText_append_nul hnul, behindText_append hnul]
  hygonCsvCertChain h _ := by cases h
  hygonCsvReport h _ := by cases h

theorem sampleSgxDevice_honest :
    (Tee.sgx2 sampleSgxDevice).Honest sampleGenerator sampleVerifierEnv := by
  intro data size quote size' h
  simp only [sampleSgxDevice] at h
  split at h
  next hsize =>
    cases h
    have hlen : (quoteFor data).length = 436 := by
      simp only [quoteFor, List.length_append, List.length_replicate, hsize.1]
    refine ⟨?_, hlen.ge, sampleCollateral shortTcbInfo, sampleTexts (str "TCB"), rfl,
      sampleCollateral_holds shortTcbInfo_holds, ?_, fun _ _ => ⟨rfl, rfl⟩⟩
    · change slice (quoteFor data) 368 64 = data
      rw [quoteFor, List.append_assoc, slice_append_right List.length_replicate,
        List.take_left' hsize.1]
    · intro f hfull
      cases f <;> exact absurd hfull (by decide)
  next => cases h

theorem sampleGenerator_collateral (quote : Bytes) (size : UInt32) :
    getIntelCollateral sampleGenerator.teeQvGetCollateral quote size =
      .ok ⟨sampleFetched, 0⟩ := rfl

theorem sample_packDcapReport (genParams : UnifiedAttestationGenerationParams) (quote : Bytes)
    (size : UInt32) : ∃ report,
      packDcapReport sampleGenerator kPlatformSgxDcap genParams quote size = .ok report := by
  have hprint : ∀ json, pb2json sampleGenerator.printer.dcapReport
      { b64Quote := base64Encode quote, jsonCollateral := json } =
        .ok (base64Encode quote ++ 0 :: json) := by
    intro json
    simp only [pb2json, sampleGenerator, zero_not_mem_base64Encode, if_false]
  by_cases hpassport : genParams.reportType = kReportTypePassport
  · have hjson : pb2json sampleGenerator.printer.collateral ⟨sampleFetched, 0⟩ =
        .ok (str "collateral") := rfl
    simp only [packDcapReport, if_pos hpassport, sampleGenerator_collateral, hjson, hprint,
      ok_bind]
    exact ⟨_, rfl⟩
  · simp only [packDcapReport, if_neg hpassport, hprint, ok_bind, pure_bind]
    exact ⟨_, rfl⟩

/-- The generator of the platform returns a report for all parameters with a good type. -/
theorem sample_generates (genParams : UnifiedAttestationGenerationParams)
    (htype : checkReportType genParams = .ok ())
    (haccepted : Accepted SGX_HASH_SIZE SGX_HASH_SIZE genParams) :
    ∃ report, createAttestationGenerator sampleGenerator (some (.sgx2 sampleSgxDevice)) genParams =
      .ok report := by
  have hdata : prepareSgxReportData sampleGenerator.sha256 genParams = _ :=
    (prepareReportData_eq_ok (le_refl 32) (le_refl 32)).mpr ⟨haccepted, rfl⟩
  have hlen : (valueBytes genParams ++ keyBytes sampleGenerator.sha256 genParams).length = 64 := by
    rw [List.length_append, haccepted.valueBytes_length (le_refl 32) (le_refl 32), keyBytes_length]
  have hsize : (quoteFor (valueBytes genParams ++ keyBytes sampleGenerator.sha256 genParams)).length
      = (436 : UInt32).toNat := by
    rw [quoteFor, List.length_append, List.length_append, hlen, List.length_replicate,
      List.length_replicate]
    rfl
  have hquote : sampleSgxDevice.genDcapQuote
      (valueBytes genParams ++ keyBytes sampleGenerator.sha256 genParams) 436 =
      .ok (⟨_, hsize⟩, 436) := dif_pos ⟨hlen, hsize⟩
  have hopens : enforce (sampleSgxDevice.opens = true) (str "Fail to open /dev/sgx") = .ok () := rfl
  have hquoteSize : sampleSgxDevice.getDcapQuoteSize = .ok 436 := rfl
  simp only [createAttestationGenerator, Sgx2AttestationGenerator.generateReport, htype, ok_bind,
    hopens, hquoteSize, hdata, hquote, enforceIoctl]
  exact sample_packDcapReport genParams _ _

/-! ## Reports at the factory -/

/-- Whatever quote the device returned, a generated report can be opened exactly if it is a
    passport. -/
theorem createVerifier_generated_iff (env : VerifierEnv) (gen : GeneratorEnv) (tee : Tee)
    (genParams : UnifiedAttestationGenerationParams) (report : UnifiedAttestationReport)
    (hagree : CodecsAgree gen.printer env.codec) (htexts : tee.Texts gen)
    (h : createAttestationGenerator gen (some tee) genParams = .ok report) :
    (∃ v, createVerifier env report = .ok v) ↔ genParams.reportType = kReportTypePassport := by
  constructor
  · rintro ⟨v, hcreate⟩
    obtain ⟨jsonReport, rfl⟩ := generated_unifiedReport h
    exact passport_of_createVerifier hcreate
  · intro hpassport
    obtain ⟨v, hcreate, _⟩ := opened_of_generated hagree htexts hpassport h
    exact ⟨v, hcreate⟩

/-- One platform, asked for a report of each type. -/
theorem createVerifier_generated_iff_sample :
    (∃ report, createAttestationGenerator sampleGenerator (some (.sgx2 sampleSgxDevice))
        { reportType := kReportTypePassport } = .ok report ∧
      ∃ v, createVerifier sampleVerifierEnv report = .ok v) ∧
    ∃ report, createAttestationGenerator sampleGenerator (some (.sgx2 sampleSgxDevice))
        { reportType := kReportTypeBgcheck } = .ok report ∧
      ¬ ∃ v, createVerifier sampleVerifierEnv report = .ok v := by
  constructor
  · obtain ⟨report, hreport⟩ := sample_generates
      { reportType := kReportTypePassport } rfl ⟨by decide, by decide, by decide⟩
    exact ⟨report, hreport, (createVerifier_generated_iff _ _ _ _ _ sample_codecsAgree
        sampleSgxDevice_honest.texts hreport).mpr
      rfl⟩
  · obtain ⟨report, hreport⟩ := sample_generates
      { reportType := kReportTypeBgcheck } rfl ⟨by decide, by decide, by decide⟩
    refine ⟨report, hreport, fun hopens => ?_⟩
    have htype := (createVerifier_generated_iff _ _ _ _ _ sample_codecsAgree
        sampleSgxDevice_honest.texts hreport).mp hopens
    exact absurd htype (by decide)

end TrustFlow.Attestation
