import TrustFlow.Exception

/-! # Unified attestation messages

The protobuf messages of the unified attestation layer, as far as the generators
and verifiers read or write them.  An absent string field is the empty string. -/

namespace TrustFlow.Attestation

/-- `UnifiedAttestationAttributes`: what a report says about a trusted application, and
    what one rule of a policy asks of it. -/
structure UnifiedAttestationAttributes where
  strTeePlatform : Bytes := []
  hexPlatformHwVersion : Bytes := []
  hexPlatformSwVersion : Bytes := []
  hexSecureFlags : Bytes := []
  hexPlatformMeasurement : Bytes := []
  hexBootMeasurement : Bytes := []
  strTeeName : Bytes := []
  strTeeIdentity : Bytes := []
  hexTaMeasurement : Bytes := []
  hexTaDynMeasurement : Bytes := []
  hexSigner : Bytes := []
  hexProdId : Bytes := []
  strMinIsvsvn : Bytes := []
  boolDebugDisabled : Bytes := []
  hexUserData : Bytes := []
  hexHashOrPemPubkey : Bytes := []
  hexNonce : Bytes := []
  hexSpid : Bytes := []
  strVerifiedTime : Bytes := []
deriving DecidableEq, Repr

structure UnifiedAttestationNestedPolicy where
  subAttributes : List UnifiedAttestationAttributes := []
deriving DecidableEq, Repr

structure UnifiedAttestationNestedPolicies where
  strGroupName : Bytes := []
  strGroupId : Bytes := []
  policies : List UnifiedAttestationNestedPolicy := []
deriving DecidableEq, Repr

structure UnifiedAttestationPolicy where
  pemPublicKey : Bytes := []
  mainAttributes : List UnifiedAttestationAttributes := []
  nestedPolicies : UnifiedAttestationNestedPolicies := {}
deriving DecidableEq, Repr

structure UnifiedAttestationReport where
  strReportVersion : Bytes := []
  strReportType : Bytes := []
  strTeePlatform : Bytes := []
  jsonReport : Bytes := []
  jsonNestedReports : Bytes := []
deriving DecidableEq, Repr

structure UnifiedAttestationReportParams where
  hexUserData : Bytes := []
  pemPublicKey : Bytes := []
deriving DecidableEq, Repr

structure UnifiedAttestationGenerationParams where
  teeIdentity : Bytes := []
  reportType : Bytes := []
  reportHexNonce : Bytes := []
  reportParams : UnifiedAttestationReportParams := {}
deriving DecidableEq, Repr

/-! ## Platform reports -/

structure SgxQlQveCollateral where
  version : Nat := 0
  pckCrlIssuerChain : Bytes := []
  rootCaCrl : Bytes := []
  pckCrl : Bytes := []
  tcbInfoIssuerChain : Bytes := []
  tcbInfo : Bytes := []
  qeIdentityIssuerChain : Bytes := []
  qeIdentity : Bytes := []
deriving DecidableEq, Repr

/-- `DcapReport` (and `IntelTdxReport`, which has the same fields). -/
structure DcapReport where
  b64Quote : Bytes := []
  jsonCollateral : Bytes := []
deriving DecidableEq, Repr

structure HygonCsvReport where
  b64Quote : Bytes := []
  jsonCertChain : Bytes := []
deriving DecidableEq, Repr

structure HygonCsvCertChain where
  b64HskCert : Bytes := []
  b64CekCert : Bytes := []
deriving DecidableEq, Repr

/-- The decoders of the protobuf and base64 libraries that the verifiers' `Init` functions
    use. -/
structure ReportCodec where
  base64Decode : Bytes → Except Exn Bytes
  dcapReport : Bytes → Except Exn DcapReport
  sgxQlQveCollateral : Bytes → Except Exn SgxQlQveCollateral
  hygonCsvReport : Bytes → Except Exn HygonCsvReport
  hygonCsvCertChain : Bytes → Except Exn HygonCsvCertChain

/-! ## Constants of `constants.h` -/

def kReportVersion : Bytes := str "1.0"
def kReportTypeBgcheck : Bytes := str "BackgroundCheck"
def kReportTypePassport : Bytes := str "Passport"
def kPlatformSgxDcap : Bytes := str "SGX_DCAP"
def kPlatformTdx : Bytes := str "TDX"
def kPlatformCsv : Bytes := str "CSV"

end TrustFlow.Attestation
