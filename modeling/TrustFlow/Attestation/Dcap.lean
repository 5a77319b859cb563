import TrustFlow.Attestation.Attributes
import TrustFlow.Memory
import Mathlib.Data.Nat.Bitwise

/-! # DCAP reports

What the SGX and the TDX verifier share: how a report becomes a quote and its
collateral, the structure the collateral is handed to the quote verification
library in, and the platform verification through that library.  The two verifier
sources repeat this code; each keeps its own function below, as an instance of
one definition. -/

namespace TrustFlow.Attestation

/-- One buffer of `sgx_ql_qve_collateral_t`: the bytes behind the pointer, with the terminator
    that `std::string` keeps after its contents, and the size field. -/
structure CollateralBuffer where
  bytes : Bytes
  size : Nat
deriving DecidableEq, Repr

structure CollateralData where
  version : Nat
  pckCrlIssuerChain : CollateralBuffer
  rootCaCrl : CollateralBuffer
  pckCrl : CollateralBuffer
  tcbInfoIssuerChain : CollateralBuffer
  tcbInfo : CollateralBuffer
  qeIdentityIssuerChain : CollateralBuffer
  qeIdentity : CollateralBuffer
deriving DecidableEq, Repr

/-- `SetCollateral`.  The size is a `uint32_t` and counts the terminator. -/
def setCollateral (name value : Bytes) : Except Exn CollateralBuffer := do
  enforce (value ≠ []) (str "Invlaid collateral data: " ++ name)
  return ⟨value ++ [0], (value.length + 1) % 2 ^ 32⟩

def initializeCollateralData (collateral : SgxQlQveCollateral) : Except Exn CollateralData := do
  let pckCrlIssuerChain ←
    setCollateral (str "pck_crl_issuer_chain") collateral.pckCrlIssuerChain
  let rootCaCrl ← setCollateral (str "root_ca_crl") collateral.rootCaCrl
  let pckCrl ← setCollateral (str "pck_crl") collateral.pckCrl
  let tcbInfoIssuerChain ←
    setCollateral (str "tcb_info_issuer_chain") collateral.tcbInfoIssuerChain
  let tcbInfo ← setCollateral (str "tcb_info") collateral.tcbInfo
  let qeIdentityIssuerChain ←
    setCollateral (str "qe_identity_issuer_chain") collateral.qeIdentityIssuerChain
  let qeIdentity ← setCollateral (str "qe_identity") collateral.qeIdentity
  return {
    version := collateral.version
    pckCrlIssuerChain, rootCaCrl, pckCrl, tcbInfoIssuerChain, tcbInfo
    qeIdentityIssuerChain, qeIdentity }

/-! ## The quote verification library -/

/-- `sgx_ql_qv_result_t`; `other` stands for the values without a case of their own. -/
inductive QvResult where
  | ok
  | configNeeded
  | outOfDate
  | outOfDateConfigNeeded
  | swHardeningNeeded
  | configAndSwHardeningNeeded
  | invalidSignature
  | revoked
  | unspecified
  | other (code : Nat)
deriving DecidableEq, Repr

def QvResult.code : QvResult → Nat
  | .ok => 0
  | .configNeeded => 0xA001
  | .outOfDate => 0xA002
  | .outOfDateConfigNeeded => 0xA003
  | .invalidSignature => 0xA004
  | .revoked => 0xA005
  | .unspecified => 0xA006
  | .swHardeningNeeded => 0xA007
  | .configAndSwHardeningNeeded => 0xA008
  | .other code => code

/-- The functions of the quote verification library for one TEE type.  The first components
    are `quote3_error_t` codes, 0 being `SGX_QL_SUCCESS`. -/
structure DcapQvl where
  getQuoteSupplementalDataSize : Nat × Nat
  sizeofSupplemental : Nat
  verifyQuote : Bytes → CollateralData → Nat × QvResult

/-- The body of both `VerifyPlatform` functions. -/
def verifyDcapPlatform (qvl : DcapQvl) (quote : Bytes) (collateral : SgxQlQveCollateral) :
    Except Exn Unit := do
  let collateralData ← initializeCollateralData collateral
  let (sizeRet, supplementalDataSize) := qvl.getQuoteSupplementalDataSize
  enforce (sizeRet = 0)
    (str "Fail to get supplemental data size, error code: " ++ decimal sizeRet)
  enforce (supplementalDataSize = qvl.sizeofSupplemental)
    (str ("Size is not same with header definition in SGX SDK, please make sure " ++
      "you are using same version of SGX SDK and DCAP QVL."))
  let (dcapRet, quoteVerificationResult) := qvl.verifyQuote quote collateralData
  enforce (dcapRet = 0) (str "Fail to verify dcap quote, error code: " ++ hexText dcapRet)
  match quoteVerificationResult with
  | .ok => return ()
  -- Accepted as well; the source has a note to log a warning.
  | .configNeeded | .outOfDate | .outOfDateConfigNeeded | .swHardeningNeeded
  | .configAndSwHardeningNeeded => return ()
  | .invalidSignature | .revoked | .unspecified | .other _ =>
    yaclThrow (str "Fail to verify dcap quote, quote verification result: " ++
      decimal quoteVerificationResult.code)

/-- A DCAP verifier after construction: the fields `report_`, `quote_` and `collateral_`. -/
structure DcapVerifier where
  report : UnifiedAttestationReport
  quote : Bytes
  collateral : SgxQlQveCollateral := {}

/-- The body of both `Init` functions, for the platform `platform`. -/
def initDcapVerifier (codec : ReportCodec) (platform : Bytes) (report : UnifiedAttestationReport) :
    Except Exn DcapVerifier := do
  enforce (report.strReportVersion = kReportVersion)
    (str "Only version " ++ kReportVersion ++ str " is supported, but " ++
      report.strReportVersion)
  enforce (report.strReportType = kReportTypePassport)
    (str "Only " ++ kReportTypePassport ++ str " is supported now, but " ++ report.strReportType)
  enforce (report.strTeePlatform = platform)
    (str "It's not " ++ platform ++ str " platfrom, input platform is " ++ report.strTeePlatform)
  let dcapReport ← codec.dcapReport report.jsonReport
  let quote ← codec.base64Decode dcapReport.b64Quote
  -- Without collateral the member keeps its default value.
  if dcapReport.jsonCollateral ≠ [] then
    let collateral ← codec.sgxQlQveCollateral dcapReport.jsonCollateral
    return { report, quote, collateral }
  else
    return { report, quote }

/-! ## The debug flag -/

/-- `SGX_FLAGS_DEBUG` of Intel's SGX headers. -/
def SGX_FLAGS_DEBUG : Nat := 0x2

def debugDisabledText (flags : Nat) : Bytes :=
  if flags &&& SGX_FLAGS_DEBUG = SGX_FLAGS_DEBUG then str "false" else str "true"

theorem debugDisabledText_eq (flags : Nat) :
    debugDisabledText flags = if flags.testBit 1 then str "false" else str "true" := by
  -- The mask is a single bit, so the conjunction is that bit in its place.
  have hmask : flags &&& SGX_FLAGS_DEBUG = (flags.testBit 1).toNat * 2 := by
    have := Nat.and_two_pow flags 1
    simpa [SGX_FLAGS_DEBUG] using this
  unfold debugDisabledText
  rw [hmask]
  cases flags.testBit 1 <;> simp [SGX_FLAGS_DEBUG]

end TrustFlow.Attestation
