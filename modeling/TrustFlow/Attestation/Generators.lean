import TrustFlow.Attestation.Collateral
import TrustFlow.Attestation.CsvUnmasking
import TrustFlow.Attestation.Generation
import TrustFlow.Data.Base64

/-! # The generators

`GenerateReport` of the three platforms: the report data goes to the TEE, the quote
comes back, and quote and collateral are packed into a unified report.  The devices,
the JSON printer and the servers of the vendors are parameters.

The two Intel generators treat a quote alike once they have it (`packDcapReport`).
The CSV generator checks a MAC over the certificate and the serial number first,
clears the field `reserved2`, and takes the chip id out of the quote. -/

namespace TrustFlow.Attestation

/-! ## Libraries and devices -/

/-- `HygonCsvReport` as the generator fills it.  No verifier reads its `str_chip_id`. -/
structure FilledCsvReport extends HygonCsvReport where
  strChipId : Bytes := []

/-- `MessageToJsonString` for the messages that the generators print. -/
structure ReportPrinter where
  collateral : FetchedCollateral → Except Bytes Bytes
  dcapReport : DcapReport → Except Bytes Bytes
  hygonCsvCertChain : HygonCsvCertChain → Except Bytes Bytes
  hygonCsvReport : FilledCsvReport → Except Bytes Bytes

structure GeneratorEnv where
  sha256 : Sha256
  printer : ReportPrinter
  teeQvGetCollateral : TeeQvGetCollateral

/-- The device `/dev/sgx` of Occlum.  A failed `ioctl` leaves an error number; the second one fills
    a buffer of the size that the first one asked for, and may change the size. -/
structure SgxDevice where
  opens : Bool := true
  getDcapQuoteSize : Except Nat UInt32
  genDcapQuote : (reportData : Bytes) → (quoteSize : UInt32) →
    Except Nat (Blob quoteSize.toNat × UInt32)

/-- The buffer that `tdx_att_get_quote` allocates. -/
structure QuoteBuffer where
  bytes : Bytes
  size : UInt32
  whole : bytes.length = size.toNat

/-- `tdx_att_get_quote`: the return code, 0 being `TDX_ATTEST_SUCCESS`, and the buffer. -/
abbrev TdxAttGetQuote := Bytes → Nat × Option QuoteBuffer

def kPageSize : Nat := 4096

/-- The device `/dev/csv-guest`, which fills in a page, and what the CSV generator computes with:
    SM3, HMAC-SM3 under a key, the bytes it draws, and what its array for the chip id holds
    before it is filled. -/
structure CsvDevice where
  opens : Bool := true
  getAttestationReport : Blob 4096 → Except Nat (Blob 4096)
  sm3 : Bytes → Bytes
  hmacSm3 : (key message : Bytes) → Bytes
  mnonce : Blob 16
  chipIdArray : Blob 64

/-- The certificate server of Hygon: the return code of `Init`, and what a request for a path
    brings back, an error code and text or a body. -/
structure HygonCertServer where
  channelInit : Nat := 0
  get : Bytes → Except (Nat × Bytes) Bytes

/-! ## What the generators share -/

def checkReportType (genParams : UnifiedAttestationGenerationParams) : Except Exn Unit :=
  enforce (genParams.reportType = kReportTypeBgcheck ∨ genParams.reportType = kReportTypePassport)
    (str "Unsupport report_type: " ++ genParams.reportType)

/-- `YACL_ENFORCE_EQ(ioctl(…), 0, …)`. -/
def enforceIoctl {α : Type} (what : String) : Except Nat α → Except Exn α
  | .ok a => .ok a
  | .error errno => .error ⟨.enforceNotMet, str what ++ str ", errno = " ++ decimal errno⟩

def unifiedReport (genParams : UnifiedAttestationGenerationParams) (platform jsonReport : Bytes) :
    UnifiedAttestationReport where
  strReportVersion := kReportVersion
  strReportType := genParams.reportType
  strTeePlatform := platform
  jsonReport := jsonReport

/-- The second half of both Intel generators.  The size that the collateral is asked for with is
    the one that came with the quote. -/
def packDcapReport (env : GeneratorEnv) (platform : Bytes)
    (genParams : UnifiedAttestationGenerationParams) (quote : Bytes) (quoteSize : UInt32) :
    Except Exn UnifiedAttestationReport := do
  let jsonCollateral ← (if genParams.reportType = kReportTypePassport then do
      let collateral ← getIntelCollateral env.teeQvGetCollateral quote quoteSize
      pb2json env.printer.collateral collateral
    else
      pure [])
  let jsonReport ← pb2json env.printer.dcapReport { b64Quote := base64Encode quote, jsonCollateral }
  return unifiedReport genParams platform jsonReport

/-! ## SGX and TDX -/

def Sgx2AttestationGenerator.generateReport (env : GeneratorEnv) (device : SgxDevice)
    (genParams : UnifiedAttestationGenerationParams) : Except Exn UnifiedAttestationReport := do
  checkReportType genParams
  enforce (device.opens = true) (str "Fail to open /dev/sgx")
  let quoteSize ← enforceIoctl "Fail to get quote size" device.getDcapQuoteSize
  let reportData ← prepareSgxReportData env.sha256 genParams
  let (quote, quoteSize) ← enforceIoctl "Fail to get quote"
    (device.genDcapQuote reportData quoteSize)
  packDcapReport env kPlatformSgxDcap genParams quote.bytes quoteSize

def TdxAttestationGenerator.generateReport (env : GeneratorEnv) (tdxAttGetQuote : TdxAttGetQuote)
    (genParams : UnifiedAttestationGenerationParams) : Except Exn UnifiedAttestationReport := do
  checkReportType genParams
  let reportData ← prepareTdxReportData env.sha256 genParams
  let quote ← (match tdxAttGetQuote reportData with
    | (0, some quote) => .ok quote
    | (ret, _) => .error ⟨.enforceNotMet, str "tdx_att_get_quote err: " ++ hexText ret⟩)
  packDcapReport env kPlatformTdx genParams quote.bytes quote.size

/-! ## CSV -/

def kHygonHskCekSubUrl : Bytes := str "/hsk_cek?snumber="

def getHygonCsvCollateral (server : HygonCertServer) (chipId : Bytes) :
    Except Exn HygonCsvCertChain := do
  enforce (server.channelInit = 0) (str "hygon cert server channel init failed")
  let responseBody ← (match server.get (kHygonHskCekSubUrl ++ chipId) with
    | .ok body => .ok body
    | .error (code, text) => .error ⟨.enforceNotMet,
        str "Get hygon csv hsk and cek failed, error code: " ++ decimal code ++
          str ", message: " ++ text⟩)
  enforce (responseBody.length = sizeofChipRootCert + sizeofCsvCert)
    (str "hsk and cek length should be " ++ decimal (sizeofChipRootCert + sizeofCsvCert) ++
      str ", but got " ++ decimal responseBody.length)
  return {
    b64HskCert := base64Encode (slice responseBody 0 sizeofChipRootCert)
    b64CekCert := base64Encode (slice responseBody sizeofChipRootCert sizeofCsvCert) }

/-- `csv_attestation_user_data` in memory. -/
def CsvAttestationUserData.bytes (userData : CsvAttestationUserData) : Bytes :=
  userData.data ++ userData.mnonce ++ userData.hash

theorem take_zeros_length (n : Nat) (bs : Bytes) :
    ((bs ++ List.replicate n 0).take n).length = n := by
  simp

/-- A zeroed page after a `memcpy` to its start. -/
def pageWith (bs : Bytes) : Blob 4096 :=
  ⟨(bs ++ List.replicate 4096 0).take 4096, take_zeros_length 4096 bs⟩

/-- The `csv_attestation_report` at the start of a page. -/
def pageQuote (page : Blob 4096) : Blob 2548 := page.field 0 2548 (by decide)

def offReserved2 : Nat := 2484

def zeroReserved2 : Bytes := List.replicate 32 0

/-- The bytes of a quote after `memset` of its `reserved2`. -/
def clearReserved2 (quote : Blob 2548) : Bytes := overwrite quote.bytes offReserved2 zeroReserved2

/-- The MAC covers the masked PEK certificate, the masked serial number and `reserved2`. -/
def macInput (quote : CsvAttestationReport) : Bytes :=
  quote.pekCert.bytes ++ quote.sn.bytes ++ quote.reserved2.bytes

def CsvDevice.chipId (device : CsvDevice) (quote : CsvAttestationReport) : Bytes :=
  CsvAttestationGenerator.chipId quote device.chipIdArray

def CsvAttestationGenerator.generateReport (env : GeneratorEnv) (device : CsvDevice)
    (server : HygonCertServer) (genParams : UnifiedAttestationGenerationParams) :
    Except Exn UnifiedAttestationReport := do
  checkReportType genParams
  enforce (sizeofCsvAttestationReport ≤ kPageSize)
    (str "csv report size should not be greater than PAGESIZE(" ++ decimal kPageSize ++ str ")")
  let userData ← prepareCsvUserData env.sha256 device.sm3 device.mnonce.bytes genParams
  enforce (device.opens = true) (str "Fail to open /dev/csv-guest")
  let page ← enforceIoctl "Csv ioctl GET_ATTESTATION_REPORT failed"
    (device.getAttestationReport (pageWith userData.bytes))
  let quote := CsvAttestationReport.ofBytes (pageQuote page)
  enforce ((device.hmacSm3 userData.mnonce (macInput quote)).take HASH_LEN = quote.mac.bytes)
    (str "PEK cert and chip id hmac verify failed")
  let jsonCertChain ← (if genParams.reportType = kReportTypePassport then do
      let certChain ← getHygonCsvCollateral server (device.chipId quote)
      pb2json env.printer.hygonCsvCertChain certChain
    else
      pure [])
  let jsonReport ← pb2json env.printer.hygonCsvReport {
    b64Quote := base64Encode (clearReserved2 (pageQuote page))
    jsonCertChain
    strChipId := device.chipId quote }
  return unifiedReport genParams kPlatformCsv jsonReport

/-! ## The platform of a build -/

/-- The TEE that a build is for, with its device. -/
inductive Tee where
  | sgx2 (device : SgxDevice)
  | tdx (tdxAttGetQuote : TdxAttGetQuote)
  | csv (device : CsvDevice) (server : HygonCertServer)

def Tee.platform : Tee → Bytes
  | .sgx2 _ => kPlatformSgxDcap
  | .tdx _ => kPlatformTdx
  | .csv _ _ => kPlatformCsv

/-- `CreateAttestationGenerator()->GenerateReport`; a build without a TEE has no generator. -/
def createAttestationGenerator (env : GeneratorEnv) : Option Tee → GenerateReport
  | some (.sgx2 device) => Sgx2AttestationGenerator.generateReport env device
  | some (.tdx tdxAttGetQuote) => TdxAttestationGenerator.generateReport env tdxAttGetQuote
  | some (.csv device server) => CsvAttestationGenerator.generateReport env device server
  | none => fun _ => yaclThrow (str "Unsupported TEE type!")

end TrustFlow.Attestation
