import TrustFlow.Attestation.Attributes
import TrustFlow.Data.Hex
import TrustFlow.Data.Words
import TrustFlow.Memory

/-! # The CSV verifier

`CsvAttestationVerifier` of `csv_verifier.cc`.  Structures, sizes and field offsets
are those of Hygon's packed `attestation.h`.  The firmware masks the fields of an
attestation report, and the PEK certificate in it, with the word `anonce`; the
quote signature is taken over the masked bytes from the user public key digest up
to the policy.

SM2 verification is a parameter: a predicate on the message, the signature, the
public key and the user id.
-/

namespace TrustFlow.Attestation

/-! ## Structures of `attestation.h` -/

def HASH_LEN : Nat := 32
def ECC_LEN : Nat := 32
def VM_ID_SIZE : Nat := 16
def VM_VERSION_SIZE : Nat := 16
def GUEST_ATTESTATION_NONCE_SIZE : Nat := 16
def sizeofChipRootCert : Nat := 832
def sizeofCsvCert : Nat := 2084
def sizeofCsvAttestationReport : Nat := 2548

def KEY_USAGE_TYPE_HSK : Nat := 0x13
def KEY_USAGE_TYPE_PEK : Nat := 0x1002
def KEY_USAGE_TYPE_CEK : Nat := 0x1004

/-- `csv_attestation_report`, field by field in memory order. -/
structure CsvAttestationReport where
  userPubkeyDigest : Blob 32
  vmId : Blob 16
  vmVersion : Blob 16
  userData : Blob 64
  mnonce : Blob 16
  measure : Blob 32
  policy : Blob 4
  sigUsage : Blob 4
  sigAlgo : Blob 4
  anonce : Word32
  eccSig1 : Blob 144
  pekCert : Blob 2084
  sn : Blob 64
  reserved2 : Blob 32
  mac : Blob 32
deriving DecidableEq

def CsvAttestationReport.ofBytes (quote : Blob 2548) : CsvAttestationReport where
  userPubkeyDigest := quote.field 0 32 (by decide)
  vmId := quote.field 32 16 (by decide)
  vmVersion := quote.field 48 16 (by decide)
  userData := quote.field 64 64 (by decide)
  mnonce := quote.field 128 16 (by decide)
  measure := quote.field 144 32 (by decide)
  policy := quote.field 176 4 (by decide)
  sigUsage := quote.field 180 4 (by decide)
  sigAlgo := quote.field 184 4 (by decide)
  anonce := Word32.ofBytes (slice quote.bytes 188 4)
  eccSig1 := quote.field 192 144 (by decide)
  pekCert := quote.field 336 2084 (by decide)
  sn := quote.field 2420 64 (by decide)
  reserved2 := quote.field 2484 32 (by decide)
  mac := quote.field 2516 32 (by decide)

/-! Fields of `ecc_pubkey_t` and of the two certificate structures, by offset. -/

def offQx : Nat := 4
def offQy : Nat := 76
def offUserId : Nat := 148
def offSigS : Nat := 72

/-- Fields of `CHIP_ROOT_CERT_t`. -/
def offHskKeyUsage : Nat := 36
def offHskEccPubkey : Nat := 64
def offHskEccSig : Nat := 576

/-- Fields of `CSV_CERT_t`. -/
def offCsvPubkeyUsage : Nat := 8
def offCsvEccPubkey : Nat := 16
def offCsvSig1Usage : Nat := 1044
def offCsvEccSig1 : Nat := 1052

namespace CsvAttestationVerifier

/-! ## Keys and signatures -/

/-- SM2 verification: message, signature, public key, user id. -/
abbrev Sm2 := Bytes → Bytes → Bytes → Bytes → Bool

/-- `ImportHygonSm2Pubkey`: the uncompressed point of the `ecc_pubkey_t` at `offset`. -/
def importHygonSm2Pubkey (cert : Bytes) (offset : Nat) : Bytes :=
  4 :: (slice cert (offset + offQx) ECC_LEN).reverse ++
    (slice cert (offset + offQy) ECC_LEN).reverse

/-- `ImportHygonSm2Sig`: the two big-endian numbers of the `ecc_signature_t` at `offset`. -/
def importHygonSm2Sig (cert : Bytes) (offset : Nat) : Bytes :=
  (slice cert offset ECC_LEN).reverse ++ (slice cert (offset + offSigS) ECC_LEN).reverse

def userId (cert : Bytes) (offset : Nat) : Bytes :=
  slice cert (offset + offUserId + 2) (leNat (slice cert (offset + offUserId) 2))

def paddedWords (words : List Nat) (size : Nat) : Bytes :=
  (words.flatMap (leBytes 4) ++ List.replicate size 0).take size

/-- `kHrkPubkey`, the root key the chain is anchored in. -/
def kHrkPubkey : Bytes :=
  leBytes 4 3 ++
  paddedWords [0x92c2f62d, 0x2af5f21d, 0x85cd1f50, 0xc80935e7, 0x09563a75, 0xf3d702db,
    0x62a4f14c, 0xbe62e14d] 72 ++
  paddedWords [0xb41eb946, 0x38744d68, 0xb9be8847, 0x4a640c10, 0x164e9538, 0x584f8b97,
    0x57bb7015, 0x3bab123a] 72 ++
  paddedWords [0x5948000d, 0x2d4e4f47, 0x2d445353, 0x004b5248] 256

def sm2Verify (sm2 : Sm2) (message signature key user : Bytes) : Except Exn Unit :=
  enforce (sm2 message signature key user = true) (str "Sm2 verify failed")

/-! ## The certificate chain -/

def usageText (what : String) (expected got : Nat) : Bytes :=
  str what ++ str " type err, expect " ++ decimal expected ++ str ", got " ++ decimal got

def verifyHskCertWithHrkPubkey (sm2 : Sm2) (hskCert : Blob 832) : Except Exn Unit := do
  let keyUsage := leNat (slice hskCert.bytes offHskKeyUsage 4)
  enforce (keyUsage = KEY_USAGE_TYPE_HSK)
    (usageText "HSK cert usage" KEY_USAGE_TYPE_HSK keyUsage)
  sm2Verify sm2 (hskCert.bytes.take offHskEccSig) (importHygonSm2Sig hskCert.bytes offHskEccSig)
    (importHygonSm2Pubkey kHrkPubkey 0) (userId kHrkPubkey 0)

/-- What `VerifyCekCertWithHskCert` and `VerifyPekCertWithCekCert` have in common: the usages of
    a `CSV_CERT_t` and its first signature, under the key in `issuer` at `offset`. -/
def verifyCsvCert (sm2 : Sm2) (name : String) (pubkeyUsage sig1Usage : Nat)
    (cert issuer : Bytes) (offset : Nat) : Except Exn Unit := do
  let gotPubkeyUsage := leNat (slice cert offCsvPubkeyUsage 4)
  enforce (gotPubkeyUsage = pubkeyUsage)
    (usageText (name ++ " cert pubkey_usage") pubkeyUsage gotPubkeyUsage)
  let gotSig1Usage := leNat (slice cert offCsvSig1Usage 4)
  enforce (gotSig1Usage = sig1Usage)
    (usageText (name ++ " cert sig1 usage") sig1Usage gotSig1Usage)
  sm2Verify sm2 (cert.take offCsvSig1Usage) (importHygonSm2Sig cert offCsvEccSig1)
    (importHygonSm2Pubkey issuer offset) (userId issuer offset)

def verifyCekCertWithHskCert (sm2 : Sm2) (cekCert : Blob 2084) (hskCert : Blob 832) :
    Except Exn Unit :=
  verifyCsvCert sm2 "CEK" KEY_USAGE_TYPE_CEK KEY_USAGE_TYPE_HSK cekCert.bytes hskCert.bytes
    offHskEccPubkey

def verifyPekCertWithCekCert (sm2 : Sm2) (pekCert : Bytes) (cekCert : Blob 2084) :
    Except Exn Unit :=
  verifyCsvCert sm2 "PEK" KEY_USAGE_TYPE_PEK KEY_USAGE_TYPE_CEK pekCert cekCert.bytes
    offCsvEccPubkey

/-- The bytes the quote signature covers: `user_pubkey_digest` through `policy`. -/
def signedBytes (quote : CsvAttestationReport) : Bytes :=
  quote.userPubkeyDigest.bytes ++ quote.vmId.bytes ++ quote.vmVersion.bytes ++
    quote.userData.bytes ++ quote.mnonce.bytes ++ quote.measure.bytes ++ quote.policy.bytes

def verifyQuoteSignature (sm2 : Sm2) (quote : CsvAttestationReport) (pekCert : Bytes) :
    Except Exn Unit :=
  sm2Verify sm2 (signedBytes quote) (importHygonSm2Sig quote.eccSig1.bytes 0)
    (importHygonSm2Pubkey pekCert offCsvEccPubkey) (userId pekCert offCsvEccPubkey)

/-! ## Unmasking -/

/-- `RetrieveCsvQuotePlainData` on `dataSize` bytes of `src` from `offset` on. -/
def retrieveCsvQuotePlainData (src : Buffer) (offset dataSize : Nat) (anonce : Word32) :
    ReadM Bytes := do
  enforce (dataSize % 4 = 0)
    (str "Data size in bytes must be times of sizeof(uint32_t), but got " ++ decimal dataSize)
  return xorWords anonce (← src.read offset dataSize)

/-! ## The verifier -/

/-- A verifier after construction: `report_`, `quote_`, `hsk_cert_` and `cek_cert_`. -/
structure Verifier where
  report : UnifiedAttestationReport
  quote : CsvAttestationReport
  hskCert : Blob 832
  cekCert : Blob 2084

/-- Copies decoded bytes into a structure of `n` bytes, after the size check. -/
def toBlob (n : Nat) (what : String) (bs : Bytes) : Except Exn (Blob n) :=
  if h : bs.length = n then .ok ⟨bs, h⟩
  else .error ⟨.enforceNotMet, str what ++ str " size err, expect " ++ decimal n ++
    str ", got " ++ decimal bs.length⟩

theorem toBlob_of_length {n : Nat} (what : String) {bs : Bytes} (h : bs.length = n) :
    toBlob n what bs = .ok ⟨bs, h⟩ :=
  dif_pos h

def init (codec : ReportCodec) (report : UnifiedAttestationReport) : Except Exn Verifier := do
  enforce (report.strReportVersion = kReportVersion)
    (str "Ua report version not match, expect " ++ kReportVersion ++ str ", got " ++
      report.strReportVersion)
  enforce (report.strReportType = kReportTypePassport)
    (str "Unsupport Ua report type: " ++ report.strReportType ++ str ", only " ++
      kReportTypePassport ++ str " is supported")
  enforce (report.strTeePlatform = kPlatformCsv)
    (str "Ua report platform not match, expect " ++ kPlatformCsv ++ str ", got " ++
      report.strTeePlatform)
  let csvReport ← codec.hygonCsvReport report.jsonReport
  let quoteBytes ← codec.base64Decode csvReport.b64Quote
  let quote ← toBlob 2548 "Csv quote" quoteBytes
  let certChain ← codec.hygonCsvCertChain csvReport.jsonCertChain
  let hskCertBytes ← codec.base64Decode certChain.b64HskCert
  let hskCert ← toBlob 832 "Csv hsk cert" hskCertBytes
  let cekCertBytes ← codec.base64Decode certChain.b64CekCert
  let cekCert ← toBlob 2084 "Csv cek cert" cekCertBytes
  return { report, quote := .ofBytes quote, hskCert, cekCert }

def verifyPlatform (sm2 : Sm2) (beyond : Nat → UInt8) (v : Verifier) : ReadM Unit := do
  verifyHskCertWithHrkPubkey sm2 v.hskCert
  verifyCekCertWithHskCert sm2 v.cekCert v.hskCert
  let pekCert ←
    retrieveCsvQuotePlainData ⟨v.quote.pekCert.bytes, beyond⟩ 0 sizeofCsvCert v.quote.anonce
  verifyPekCertWithCekCert sm2 pekCert v.cekCert
  verifyQuoteSignature sm2 v.quote pekCert

/-- `CsvAttestationVerifier::ParseUnifiedReport`.  The public key hash is set twice: first from
    the upper half of the report's user data, then again from behind the 32-byte vector that
    holds the lower half, which is memory the function does not own. -/
def parseUnifiedReport (beyond : Nat → UInt8) (v : Verifier) :
    ReadM UnifiedAttestationAttributes := do
  let retrieve (field : Bytes) (offset size : Nat) : ReadM Bytes :=
    retrieveCsvQuotePlainData ⟨field, beyond⟩ offset size v.quote.anonce
  let vmId ← retrieve v.quote.vmId.bytes 0 VM_ID_SIZE
  let vmVersion ← retrieve v.quote.vmVersion.bytes 0 VM_VERSION_SIZE
  let userData ← retrieve v.quote.userData.bytes 0 HASH_LEN
  -- Computed, but the value that is stored below overrides it.
  let _publicKeyHash ← retrieve v.quote.userData.bytes HASH_LEN HASH_LEN
  let mnonce ← retrieve v.quote.mnonce.bytes 0 GUEST_ATTESTATION_NONCE_SIZE
  let measure ← retrieve v.quote.measure.bytes 0 HASH_LEN
  let maskedPolicy ← (Buffer.mk v.quote.policy.bytes beyond).read 0 4
  let behindUserData ← (Buffer.mk userData beyond).read HASH_LEN HASH_LEN
  return {
    strTeePlatform := v.report.strTeePlatform
    hexProdId := bytesToHexString vmId
    hexPlatformSwVersion := bytesToHexString vmVersion
    hexUserData := bytesToHexString userData
    hexNonce := bytesToHexString mnonce
    hexBootMeasurement := bytesToHexString measure
    hexSecureFlags := bytesToHexString (xorWords v.quote.anonce maskedPolicy)
    hexHashOrPemPubkey := bytesToHexString behindUserData }

/-! ## What the parser reads -/

def plainPekCert (quote : CsvAttestationReport) : Bytes :=
  xorWords quote.anonce quote.pekCert.bytes

def attributes (beyond : Nat → UInt8) (v : Verifier) : UnifiedAttestationAttributes :=
  let plain := xorWords v.quote.anonce
  { strTeePlatform := v.report.strTeePlatform
    hexProdId := bytesToHexString (plain v.quote.vmId.bytes)
    hexPlatformSwVersion := bytesToHexString (plain v.quote.vmVersion.bytes)
    hexUserData := bytesToHexString (plain (slice v.quote.userData.bytes 0 32))
    hexNonce := bytesToHexString (plain v.quote.mnonce.bytes)
    hexBootMeasurement := bytesToHexString (plain v.quote.measure.bytes)
    hexSecureFlags := bytesToHexString (plain v.quote.policy.bytes)
    hexHashOrPemPubkey := bytesToHexString
      ((Buffer.mk (plain (slice v.quote.userData.bytes 0 32)) beyond).view 32 32) }

/-- The byte ranges the parser looks at, in order: seven fields of the quote, then the range
    behind the user data vector. -/
def accesses : List Access :=
  [⟨16, 0, 16⟩, ⟨16, 0, 16⟩, ⟨64, 0, 32⟩, ⟨64, 32, 32⟩, ⟨16, 0, 16⟩, ⟨32, 0, 32⟩, ⟨4, 0, 4⟩,
    ⟨32, 32, 32⟩]

theorem run_retrieveCsvQuotePlainData {n : Nat} (field : Blob n) (beyond : Nat → UInt8)
    {offset size : Nat} (anonce : Word32) (log : List Access)
    (hwords : size % 4 = 0) (hin : offset + size ≤ n) :
    (retrieveCsvQuotePlainData ⟨field.bytes, beyond⟩ offset size anonce).run log =
      .ok (xorWords anonce (slice field.bytes offset size), log ++ [⟨n, offset, size⟩]) := by
  have hin' : offset + size ≤ (Buffer.mk field.bytes beyond).bytes.length := by
    simpa [field.size] using hin
  simp only [retrieveCsvQuotePlainData, enforce_pos _ hwords, StateT.run_bind,
    ReadM.run_lift_ok, ok_bind, Buffer.run_read, ReadM.run_pure, Buffer.view_eq_slice hin',
    field.size]

theorem plainUserData_length (quote : CsvAttestationReport) :
    (xorWords quote.anonce (slice quote.userData.bytes 0 32)).length = 32 := by
  have hslice : (slice quote.userData.bytes 0 32).length = 32 :=
    slice_length (by simp [quote.userData.size])
  rw [xorWords_length _ (by rw [hslice]; decide), hslice]

theorem run_parseUnifiedReport (beyond : Nat → UInt8) (v : Verifier) (log : List Access) :
    (parseUnifiedReport beyond v).run log = .ok (attributes beyond v, log ++ accesses) := by
  have hpolicy : (Buffer.mk v.quote.policy.bytes beyond).view 0 4 = v.quote.policy.bytes := by
    rw [Buffer.view_eq_slice (by simp [v.quote.policy.size]), Blob.slice_all]
  simp only [parseUnifiedReport, StateT.run_bind, VM_ID_SIZE, VM_VERSION_SIZE, HASH_LEN,
    GUEST_ATTESTATION_NONCE_SIZE]
  -- Six masked fields, each a whole number of words inside its field of the quote.
  rw [run_retrieveCsvQuotePlainData _ _ _ _ (by decide) (by decide), ok_bind,
    run_retrieveCsvQuotePlainData _ _ _ _ (by decide) (by decide), ok_bind,
    run_retrieveCsvQuotePlainData _ _ _ _ (by decide) (by decide), ok_bind,
    run_retrieveCsvQuotePlainData _ _ _ _ (by decide) (by decide), ok_bind,
    run_retrieveCsvQuotePlainData _ _ _ _ (by decide) (by decide), ok_bind,
    run_retrieveCsvQuotePlainData _ _ _ _ (by decide) (by decide), ok_bind,
    Buffer.run_read, ok_bind, Buffer.run_read, ok_bind, ReadM.run_pure]
  simp [attributes, accesses, Blob.slice_all, plainUserData_length, hpolicy, v.quote.policy.size]

theorem verifyPlatform_eq_ok {sm2 : Sm2} {beyond : Nat → UInt8} {v : Verifier}
    {log log' : List Access} :
    (verifyPlatform sm2 beyond v).run log = .ok ((), log') ↔
      verifyHskCertWithHrkPubkey sm2 v.hskCert = .ok () ∧
      verifyCekCertWithHskCert sm2 v.cekCert v.hskCert = .ok () ∧
      verifyPekCertWithCekCert sm2 (plainPekCert v.quote) v.cekCert = .ok () ∧
      verifyQuoteSignature sm2 v.quote (plainPekCert v.quote) = .ok () ∧
      log' = log ++ [⟨2084, 0, 2084⟩] := by
  simp only [verifyPlatform, StateT.run_bind, sizeofCsvCert]
  -- One case split per check; a check that throws makes both sides false.
  cases hhsk : verifyHskCertWithHrkPubkey sm2 v.hskCert with
  | error e => simp
  | ok u =>
    cases hcek : verifyCekCertWithHskCert sm2 v.cekCert v.hskCert with
    | error e => simp
    | ok u =>
      rw [ReadM.run_lift_ok, ok_bind, ReadM.run_lift_ok, ok_bind,
        run_retrieveCsvQuotePlainData _ _ _ _ (by decide) (by decide), ok_bind, Blob.slice_all]
      simp only [plainPekCert]
      cases hpek : verifyPekCertWithCekCert sm2 (xorWords v.quote.anonce v.quote.pekCert.bytes)
          v.cekCert with
      | error e => simp
      | ok u =>
        cases hquote : verifyQuoteSignature sm2 v.quote
            (xorWords v.quote.anonce v.quote.pekCert.bytes) with
        | error e => simp
        | ok u => simp [eq_comm]

end CsvAttestationVerifier

end TrustFlow.Attestation
