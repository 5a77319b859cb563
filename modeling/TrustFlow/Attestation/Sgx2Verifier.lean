import TrustFlow.Attestation.Dcap
import TrustFlow.Data.Hex

/-! # The SGX verifier

`Sgx2AttestationVerifier` of `sgx2_verifier.cc`.  Offsets are those of Intel's
packed `sgx_quote3_t`: a 48-byte header, the 384-byte report body, and the length
of the signature data. -/

namespace TrustFlow.Attestation.Sgx2AttestationVerifier

/-! ## Layout of the quote -/

def sizeofQuote3 : Nat := 436
def sizeofMeasurement : Nat := 32
def kReportDataSize : Nat := 64

def offReportBody : Nat := 48
def offFlags : Nat := offReportBody + 48
def offMrEnclave : Nat := offReportBody + 64
def offMrSigner : Nat := offReportBody + 128
def offIsvProdId : Nat := offReportBody + 256
def offIsvSvn : Nat := offReportBody + 258
def offReportData : Nat := offReportBody + 320

/-! ## The verifier -/

def init (codec : ReportCodec) (report : UnifiedAttestationReport) : Except Exn DcapVerifier :=
  initDcapVerifier codec kPlatformSgxDcap report

def parseUnifiedReport (beyond : Nat → UInt8) (v : DcapVerifier) :
    ReadM UnifiedAttestationAttributes := do
  enforce (sizeofQuote3 ≤ v.quote.length)
    (str "quote size:" ++ decimal v.quote.length ++ str " is less than sgx_quote3_t:" ++
      decimal sizeofQuote3)
  let quote : Buffer := ⟨v.quote, beyond⟩
  let mrEnclave ← quote.read offMrEnclave sizeofMeasurement
  let mrSigner ← quote.read offMrSigner sizeofMeasurement
  let prodId ← quote.read offIsvProdId 2
  let svn ← quote.read offIsvSvn 2
  let halfReportDataSize := kReportDataSize / 2
  -- The lower half is the user data, the higher half the public key hash.
  let userData ← quote.read offReportData halfReportDataSize
  let publicKeyHash ← quote.read (offReportData + halfReportDataSize) halfReportDataSize
  let flags ← quote.read offFlags 8
  return {
    strTeePlatform := v.report.strTeePlatform
    hexTaMeasurement := bytesToHexString mrEnclave
    hexSigner := bytesToHexString mrSigner
    hexProdId := decimal (leNat prodId)
    strMinIsvsvn := decimal (leNat svn)
    hexUserData := bytesToHexString userData
    hexHashOrPemPubkey := bytesToHexString publicKeyHash
    boolDebugDisabled := debugDisabledText (leNat flags) }

def verifyPlatform (qvl : DcapQvl) (v : DcapVerifier) : Except Exn Unit :=
  verifyDcapPlatform qvl v.quote v.collateral

/-! ## What the parser reads -/

/-- The 64-bit `report_body.attributes.flags`. -/
def flags (quote : Bytes) : Nat := leNat (slice quote offFlags 8)

def attributes (v : DcapVerifier) : UnifiedAttestationAttributes where
  strTeePlatform := v.report.strTeePlatform
  hexTaMeasurement := bytesToHexString (slice v.quote offMrEnclave 32)
  hexSigner := bytesToHexString (slice v.quote offMrSigner 32)
  hexProdId := decimal (leNat (slice v.quote offIsvProdId 2))
  strMinIsvsvn := decimal (leNat (slice v.quote offIsvSvn 2))
  hexUserData := bytesToHexString (slice v.quote offReportData 32)
  hexHashOrPemPubkey := bytesToHexString (slice v.quote (offReportData + 32) 32)
  boolDebugDisabled := debugDisabledText (flags v.quote)

def accesses (size : Nat) : List Access :=
  [⟨size, offMrEnclave, 32⟩, ⟨size, offMrSigner, 32⟩, ⟨size, offIsvProdId, 2⟩,
    ⟨size, offIsvSvn, 2⟩, ⟨size, offReportData, 32⟩, ⟨size, offReportData + 32, 32⟩,
    ⟨size, offFlags, 8⟩]

theorem parseUnifiedReport_of_size {v : DcapVerifier} (beyond : Nat → UInt8)
    (log : List Access) (h : sizeofQuote3 ≤ v.quote.length) :
    (parseUnifiedReport beyond v).run log =
      .ok (attributes v, log ++ accesses v.quote.length) := by
  -- Every read lies in the fixed part, so the memory behind the quote is never seen.
  have hview : ∀ offset len, offset + len ≤ sizeofQuote3 →
      (Buffer.mk v.quote beyond).view offset len = slice v.quote offset len := by
    intro offset len hlen
    exact Buffer.view_eq_slice (by simpa using le_trans hlen h)
  simp only [parseUnifiedReport, enforce_pos _ h, StateT.run_bind, ReadM.run_lift_ok, ok_bind,
    Buffer.run_read, ReadM.run_pure]
  rw [hview offMrEnclave _ (by decide), hview offMrSigner _ (by decide),
    hview offIsvProdId _ (by decide), hview offIsvSvn _ (by decide),
    hview offReportData _ (by decide), hview _ (kReportDataSize / 2) (by decide),
    hview offFlags _ (by decide)]
  simp [attributes, accesses, flags, sizeofMeasurement, kReportDataSize]

theorem parseUnifiedReport_eq_ok {v : DcapVerifier} {beyond : Nat → UInt8}
    {log : List Access} {attrs : UnifiedAttestationAttributes} {log' : List Access} :
    (parseUnifiedReport beyond v).run log = .ok (attrs, log') ↔
      sizeofQuote3 ≤ v.quote.length ∧ attrs = attributes v ∧
        log' = log ++ accesses v.quote.length := by
  by_cases h : sizeofQuote3 ≤ v.quote.length
  · rw [parseUnifiedReport_of_size beyond log h]
    simp only [Except.ok.injEq, Prod.mk.injEq, h, true_and]
    exact ⟨fun ⟨ha, hl⟩ => ⟨ha.symm, hl.symm⟩, fun ⟨ha, hl⟩ => ⟨ha.symm, hl.symm⟩⟩
  · constructor
    · intro hok
      simp [parseUnifiedReport, enforce_neg _ h] at hok
    · rintro ⟨hsize, _⟩
      exact absurd hsize h

end TrustFlow.Attestation.Sgx2AttestationVerifier
