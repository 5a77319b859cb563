import TrustFlow.Attestation.Dcap
import TrustFlow.Data.Hex

/-! # The TDX verifier

`TdxAttestationVerifier` of `tdx_verifier.cc`.  A version 4 quote has its report
body right after the 48-byte header, a version 5 quote after six more bytes; the
body is Intel's 584-byte `sgx_report2_body_t` in both. -/

namespace TrustFlow.Attestation.TdxAttestationVerifier

/-! ## Layout of the quote -/

def sizeofQuote4 : Nat := 636
def sizeofQuote5 : Nat := 54
def sizeofMeasurement : Nat := 48
def kReportDataSize : Nat := 64
def kIntelTeeTypeTdx : Nat := 0x81

def offVersion : Nat := 0
def offTeeType : Nat := 4
def offBody4 : Nat := 48
def offBody5 : Nat := 54

def offMrSeam : Nat := 16
def offMrsignerSeam : Nat := 64
def offTdAttributes : Nat := 120
def offMrTd : Nat := 136
def offMrConfigId : Nat := 184
def offMrOwner : Nat := 232
def offMrOwnerConfig : Nat := 280
def offRtMr (i : Nat) : Nat := 328 + 48 * i
def offReportData : Nat := 520

/-! ## The verifier -/

def init (codec : ReportCodec) (report : UnifiedAttestationReport) : Except Exn DcapVerifier :=
  initDcapVerifier codec kPlatformTdx report

def getMrHex (quote : Buffer) (offset : Nat) : ReadM Bytes := do
  return bytesToHexString (← quote.read offset sizeofMeasurement)

/-- `ParseReportBodyPfMeasurements`, for the report body at offset `body`. -/
def parseReportBodyPfMeasurements (quote : Buffer) (body : Nat) : ReadM Bytes := do
  let mrSeam ← getMrHex quote (body + offMrSeam)
  let mrsignerSeam ← getMrHex quote (body + offMrsignerSeam)
  let mrTd ← getMrHex quote (body + offMrTd)
  let mrConfigId ← getMrHex quote (body + offMrConfigId)
  let mrOwner ← getMrHex quote (body + offMrOwner)
  let mrOwnerConfig ← getMrHex quote (body + offMrOwnerConfig)
  return mrSeam ++ mrsignerSeam ++ mrTd ++ mrConfigId ++ mrOwner ++ mrOwnerConfig

def parseReportBodyBootMeasurements (quote : Buffer) (body : Nat) : ReadM Bytes := do
  let rtMr0 ← getMrHex quote (body + offRtMr 0)
  let rtMr1 ← getMrHex quote (body + offRtMr 1)
  return rtMr0 ++ rtMr1

def parseReportBodyTaMeasurements (quote : Buffer) (body : Nat) : ReadM Bytes := do
  let rtMr2 ← getMrHex quote (body + offRtMr 2)
  let rtMr3 ← getMrHex quote (body + offRtMr 3)
  return rtMr2 ++ rtMr3

/-- Where the report body starts, decided by the version field of the header. -/
def reportBodyOffset (quoteVersion : Nat) : Except Exn Nat :=
  if quoteVersion = 4 then .ok offBody4
  else if quoteVersion = 5 then .ok offBody5
  else yaclThrow (str "Error version in TDX quote: " ++ decimal quoteVersion)

def parseUnifiedReport (beyond : Nat → UInt8) (v : DcapVerifier) :
    ReadM UnifiedAttestationAttributes := do
  -- Both lengths are checked before the version is known; neither covers a version 5 body.
  enforce (sizeofQuote4 ≤ v.quote.length)
    (str "quote size:" ++ decimal v.quote.length ++ str " is less than sgx_quote4_t:" ++
      decimal sizeofQuote4)
  enforce (sizeofQuote5 ≤ v.quote.length)
    (str "quote size:" ++ decimal v.quote.length ++ str " is less than sgx_quote5_t:" ++
      decimal sizeofQuote5)
  let quote : Buffer := ⟨v.quote, beyond⟩
  let teeType := leNat (← quote.read offTeeType 4)
  enforce (teeType = kIntelTeeTypeTdx) (str "Error tee_type in quote: " ++ upperHexText teeType)
  let quoteVersion := leNat (← quote.read offVersion 2)
  let body ← reportBodyOffset quoteVersion
  let platformMeasurement ← parseReportBodyPfMeasurements quote body
  let bootMeasurement ← parseReportBodyBootMeasurements quote body
  let taMeasurement ← parseReportBodyTaMeasurements quote body
  let halfReportDataSize := kReportDataSize / 2
  let userData ← quote.read (body + offReportData) halfReportDataSize
  let publicKeyHash ←
    quote.read (body + offReportData + halfReportDataSize) halfReportDataSize
  let flags ← quote.read (body + offTdAttributes) 8
  return {
    strTeePlatform := v.report.strTeePlatform
    hexPlatformMeasurement := platformMeasurement
    hexBootMeasurement := bootMeasurement
    hexTaMeasurement := taMeasurement
    hexUserData := bytesToHexString userData
    hexHashOrPemPubkey := bytesToHexString publicKeyHash
    boolDebugDisabled := debugDisabledText (leNat flags) }

def verifyPlatform (qvl : DcapQvl) (v : DcapVerifier) : Except Exn Unit :=
  verifyDcapPlatform qvl v.quote v.collateral

/-! ## What the parser reads -/

def teeType (quote : Bytes) : Nat := leNat (slice quote offTeeType 4)

def version (quote : Bytes) : Nat := leNat (slice quote offVersion 2)

/-- The checks of the parser: length, TEE type, and a version that fixes where the body is. -/
def Readable (quote : Bytes) (body : Nat) : Prop :=
  sizeofQuote4 ≤ quote.length ∧ teeType quote = kIntelTeeTypeTdx ∧
    (version quote = 4 ∧ body = offBody4 ∨ version quote = 5 ∧ body = offBody5)

def tdAttributes (quote : Bytes) (body : Nat) : Nat :=
  leNat (slice quote (body + offTdAttributes) 8)

def mrHex (quote : Buffer) (offset : Nat) : Bytes :=
  bytesToHexString (quote.view offset sizeofMeasurement)

def attributes (beyond : Nat → UInt8) (v : DcapVerifier) (body : Nat) :
    UnifiedAttestationAttributes :=
  let quote : Buffer := ⟨v.quote, beyond⟩
  { strTeePlatform := v.report.strTeePlatform
    hexPlatformMeasurement :=
      mrHex quote (body + offMrSeam) ++ mrHex quote (body + offMrsignerSeam) ++
      mrHex quote (body + offMrTd) ++ mrHex quote (body + offMrConfigId) ++
      mrHex quote (body + offMrOwner) ++ mrHex quote (body + offMrOwnerConfig)
    hexBootMeasurement :=
      mrHex quote (body + offRtMr 0) ++ mrHex quote (body + offRtMr 1)
    hexTaMeasurement :=
      mrHex quote (body + offRtMr 2) ++ mrHex quote (body + offRtMr 3)
    hexUserData := bytesToHexString (quote.view (body + offReportData) 32)
    hexHashOrPemPubkey := bytesToHexString (quote.view (body + offReportData + 32) 32)
    boolDebugDisabled := debugDisabledText (leNat (quote.view (body + offTdAttributes) 8)) }

def accesses (size body : Nat) : List Access :=
  [⟨size, offTeeType, 4⟩, ⟨size, offVersion, 2⟩,
    ⟨size, body + offMrSeam, 48⟩, ⟨size, body + offMrsignerSeam, 48⟩,
    ⟨size, body + offMrTd, 48⟩, ⟨size, body + offMrConfigId, 48⟩,
    ⟨size, body + offMrOwner, 48⟩, ⟨size, body + offMrOwnerConfig, 48⟩,
    ⟨size, body + offRtMr 0, 48⟩, ⟨size, body + offRtMr 1, 48⟩,
    ⟨size, body + offRtMr 2, 48⟩, ⟨size, body + offRtMr 3, 48⟩,
    ⟨size, body + offReportData, 32⟩, ⟨size, body + offReportData + 32, 32⟩,
    ⟨size, body + offTdAttributes, 8⟩]

theorem reportBodyOffset_eq_ok {quoteVersion body : Nat} :
    reportBodyOffset quoteVersion = .ok body ↔
      quoteVersion = 4 ∧ body = offBody4 ∨ quoteVersion = 5 ∧ body = offBody5 := by
  unfold reportBodyOffset
  split
  · next h => subst h; simp [eq_comm]
  · split
    · next h => subst h; simp [eq_comm]
    · next h4 h5 => simp [yaclThrow, h4, h5]

@[simp] theorem run_getMrHex (quote : Buffer) (offset : Nat) (log : List Access) :
    (getMrHex quote offset).run log =
      .ok (mrHex quote offset, log ++ [⟨quote.bytes.length, offset, 48⟩]) := by
  simp [getMrHex, mrHex, sizeofMeasurement]

theorem header_view {v : DcapVerifier} (beyond : Nat → UInt8)
    (h : sizeofQuote4 ≤ v.quote.length) :
    leNat ((Buffer.mk v.quote beyond).view offTeeType 4) = teeType v.quote ∧
      leNat ((Buffer.mk v.quote beyond).view offVersion 2) = version v.quote := by
  have hsize : 636 ≤ v.quote.length := h
  constructor
  · rw [Buffer.view_eq_slice (by simp only [offTeeType]; omega)]
    rfl
  · rw [Buffer.view_eq_slice (by simp only [offVersion]; omega)]
    rfl

theorem parseUnifiedReport_of_readable {v : DcapVerifier} {body : Nat} (beyond : Nat → UInt8)
    (log : List Access) (h : Readable v.quote body) :
    (parseUnifiedReport beyond v).run log =
      .ok (attributes beyond v body, log ++ accesses v.quote.length body) := by
  obtain ⟨hsize, htype, hversion⟩ := h
  have hsize5 : sizeofQuote5 ≤ v.quote.length := le_trans (by decide) hsize
  obtain ⟨hteeView, hversionView⟩ := header_view beyond hsize
  simp only [parseUnifiedReport, parseReportBodyPfMeasurements, parseReportBodyBootMeasurements,
    parseReportBodyTaMeasurements, enforce_pos _ hsize, enforce_pos _ hsize5, StateT.run_bind,
    ReadM.run_lift_ok, ok_bind, Buffer.run_read, hteeView, hversionView,
    enforce_pos _ htype, reportBodyOffset_eq_ok.mpr hversion, run_getMrHex, ReadM.run_pure]
  simp [attributes, accesses, kReportDataSize]

theorem parseUnifiedReport_eq_ok {v : DcapVerifier} {beyond : Nat → UInt8}
    {log : List Access} {attrs : UnifiedAttestationAttributes} {log' : List Access} :
    (parseUnifiedReport beyond v).run log = .ok (attrs, log') ↔
      ∃ body, Readable v.quote body ∧ attrs = attributes beyond v body ∧
        log' = log ++ accesses v.quote.length body := by
  constructor
  · intro hok
    -- Each check that the run got past is one condition of `Readable`.
    have hreadable : ∃ body, Readable v.quote body := by
      by_cases hsize : sizeofQuote4 ≤ v.quote.length
      · have hsize5 : sizeofQuote5 ≤ v.quote.length := le_trans (by decide) hsize
        obtain ⟨hteeView, hversionView⟩ := header_view beyond hsize
        simp only [parseUnifiedReport, enforce_pos _ hsize, enforce_pos _ hsize5,
          StateT.run_bind, ReadM.run_lift_ok, ok_bind, Buffer.run_read, hteeView,
          hversionView] at hok
        by_cases htype : teeType v.quote = kIntelTeeTypeTdx
        · rw [enforce_pos _ htype] at hok
          cases hbody : reportBodyOffset (version v.quote) with
          | error e => simp [hbody] at hok
          | ok body => exact ⟨body, hsize, htype, reportBodyOffset_eq_ok.mp hbody⟩
        · simp [enforce_neg _ htype] at hok
      · simp [parseUnifiedReport, enforce_neg _ hsize] at hok
    obtain ⟨body, hbody⟩ := hreadable
    rw [parseUnifiedReport_of_readable beyond log hbody] at hok
    simp only [Except.ok.injEq, Prod.mk.injEq] at hok
    exact ⟨body, hbody, hok.1.symm, hok.2.symm⟩
  · rintro ⟨body, hbody, rfl, rfl⟩
    exact parseUnifiedReport_of_readable beyond log hbody

theorem attributes_boolDebugDisabled {v : DcapVerifier} {body : Nat} (beyond : Nat → UInt8)
    (h : Readable v.quote body) :
    (attributes beyond v body).boolDebugDisabled =
      debugDisabledText (tdAttributes v.quote body) := by
  have hsize : 636 ≤ v.quote.length := h.1
  -- For both versions the attribute word ends well before the checked length.
  have hbody : body ≤ 54 := by
    rcases h.2.2 with ⟨_, rfl⟩ | ⟨_, rfl⟩ <;> simp [offBody4, offBody5]
  have hin : body + offTdAttributes + 8 ≤ (Buffer.mk v.quote beyond).bytes.length := by
    simp only [offTdAttributes]
    omega
  simp only [attributes, tdAttributes, Buffer.view_eq_slice hin]

end TrustFlow.Attestation.TdxAttestationVerifier
