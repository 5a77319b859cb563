import TrustFlow.Attestation.CsvVerifier
import TrustFlow.Attestation.Sgx2Verifier
import TrustFlow.Attestation.TdxVerifier
import TrustFlow.Crypto

/-! # Preparing report data

The three generators put the caller's claims into 64 bytes of report data before
they ask the TEE for a quote: the nonce or the user data in the lower half, the
hash of the public key in the upper half.  The three functions repeat one body,
with different limits on the nonce; the CSV one also draws a random nonce of its
own and hashes the result. -/

namespace TrustFlow.Attestation

def SGX_HASH_SIZE : Nat := 32

/-- The common body of the three functions; two hex characters stand for one byte. -/
def prepareReportData (H : Sha256) (nonceSize userDataSize : Nat)
    (genParams : UnifiedAttestationGenerationParams) : Except Exn Bytes := do
  let nonce := genParams.reportHexNonce
  let userData := genParams.reportParams.hexUserData
  let publicKey := genParams.reportParams.pemPublicKey
  enforce (nonce.length ≤ nonceSize * 2)
    (str "report_hex_nonce length should not be greater than " ++ decimal (nonceSize * 2) ++
      str ", got " ++ decimal nonce.length)
  enforce (userData.length ≤ userDataSize * 2)
    (str "hex_user_data length should not be greater than " ++ decimal (userDataSize * 2) ++
      str ", got " ++ decimal userData.length)
  enforce (nonce = [] ∨ userData = []) (str "Not support both nonce and user data")
  let data := List.replicate 64 0
  let data := if nonce = [] then data else overwrite data 0 (hexStringToBytes nonce)
  let data := if userData = [] then data else overwrite data 0 (hexStringToBytes userData)
  -- The key is hashed after decoding it as if it were hex text.
  return if publicKey = [] then data
    else overwrite data 32 (H.hash (hexStringToBytes publicKey))

def prepareSgxReportData (H : Sha256) (genParams : UnifiedAttestationGenerationParams) :
    Except Exn Bytes :=
  prepareReportData H SGX_HASH_SIZE SGX_HASH_SIZE genParams

def prepareTdxReportData (H : Sha256) (genParams : UnifiedAttestationGenerationParams) :
    Except Exn Bytes :=
  prepareReportData H SGX_HASH_SIZE SGX_HASH_SIZE genParams

structure CsvAttestationUserData where
  data : Bytes
  mnonce : Bytes
  hash : Bytes
deriving DecidableEq

/-- `PrepareCsvUserData`, with the random nonce and the SM3 hash it draws on. -/
def prepareCsvUserData (H : Sha256) (sm3 : Bytes → Bytes) (mnonce : Bytes)
    (genParams : UnifiedAttestationGenerationParams) : Except Exn CsvAttestationUserData := do
  let data ← prepareReportData H GUEST_ATTESTATION_NONCE_SIZE HASH_LEN genParams
  return { data, mnonce, hash := sm3 (data ++ mnonce) }

/-! ## The prepared bytes -/

/-- The checks of the three functions. -/
structure Accepted (nonceSize userDataSize : Nat)
    (genParams : UnifiedAttestationGenerationParams) : Prop where
  nonce : genParams.reportHexNonce.length ≤ nonceSize * 2
  userData : genParams.reportParams.hexUserData.length ≤ userDataSize * 2
  one : genParams.reportHexNonce = [] ∨ genParams.reportParams.hexUserData = []

/-- The nonce, or the user data when there is no nonce: both go to the same place. -/
def givenValue (genParams : UnifiedAttestationGenerationParams) : Bytes :=
  if genParams.reportHexNonce = [] then genParams.reportParams.hexUserData
  else genParams.reportHexNonce

def zeroPadded (n : Nat) (bs : Bytes) : Bytes := bs ++ List.replicate (n - bs.length) 0

/-- The lower half of the report data. -/
def valueBytes (genParams : UnifiedAttestationGenerationParams) : Bytes :=
  zeroPadded 32 (hexStringToBytes (givenValue genParams))

/-- The upper half of the report data. -/
def keyBytes (H : Sha256) (genParams : UnifiedAttestationGenerationParams) : Bytes :=
  if genParams.reportParams.pemPublicKey = [] then List.replicate 32 0
  else H.hash (hexStringToBytes genParams.reportParams.pemPublicKey)

theorem zeroPadded_length {n : Nat} {bs : Bytes} (h : bs.length ≤ n) :
    (zeroPadded n bs).length = n := by
  simp only [zeroPadded, List.length_append, List.length_replicate]
  omega

theorem zeroPadded_of_length {n : Nat} {bs : Bytes} (h : bs.length = n) : zeroPadded n bs = bs := by
  simp [zeroPadded, h]

theorem keyBytes_length (H : Sha256) (genParams : UnifiedAttestationGenerationParams) :
    (keyBytes H genParams).length = 32 := by
  unfold keyBytes
  split
  · exact List.length_replicate
  · exact H.hash_length _

theorem Accepted.valueBytes_length {nonceSize userDataSize : Nat}
    {genParams : UnifiedAttestationGenerationParams} (hnonce : nonceSize ≤ 32)
    (huser : userDataSize ≤ 32) (h : Accepted nonceSize userDataSize genParams) :
    (valueBytes genParams).length = 32 := by
  have hnonceLen := h.nonce
  have huserLen := h.userData
  apply zeroPadded_length
  rw [hexStringToBytes_length, givenValue]
  split <;> omega

/-- The nonce and the user data written one after the other, when at most one is given. -/
theorem overwrite_value {genParams : UnifiedAttestationGenerationParams}
    (hone : genParams.reportHexNonce = [] ∨ genParams.reportParams.hexUserData = [])
    (hsize : (hexStringToBytes (givenValue genParams)).length ≤ 32) :
    (let data := if genParams.reportHexNonce = [] then List.replicate 64 (0 : UInt8)
      else overwrite (List.replicate 64 0) 0 (hexStringToBytes genParams.reportHexNonce)
     if genParams.reportParams.hexUserData = [] then data
      else overwrite data 0 (hexStringToBytes genParams.reportParams.hexUserData)) =
      valueBytes genParams ++ List.replicate 32 0 := by
  have hfill : ∀ text : Bytes, (hexStringToBytes text).length ≤ 32 →
      overwrite (List.replicate 64 0) 0 (hexStringToBytes text) =
        zeroPadded 32 (hexStringToBytes text) ++ List.replicate 32 0 := by
    intro text htext
    simp only [overwrite, zeroPadded, List.take_zero, List.nil_append, Nat.zero_add,
      List.drop_replicate, List.append_assoc, List.replicate_append_replicate]
    congr 2
    omega
  by_cases hnonce : genParams.reportHexNonce = []
  · simp only [valueBytes, givenValue, hnonce, if_true] at hsize ⊢
    by_cases huser : genParams.reportParams.hexUserData = []
    · simp [huser, hexStringToBytes, zeroPadded]
    · simp only [huser, if_false]
      exact hfill _ hsize
  · have huser := hone.resolve_left hnonce
    simp only [valueBytes, givenValue, hnonce, huser, if_true, if_false] at hsize ⊢
    exact hfill _ hsize

/-- The report data is the value in the lower half and the hashed key in the upper half. -/
theorem prepareReportData_eq_ok {H : Sha256} {nonceSize userDataSize : Nat}
    {genParams : UnifiedAttestationGenerationParams} {data : Bytes}
    (hnonce : nonceSize ≤ 32) (huser : userDataSize ≤ 32) :
    prepareReportData H nonceSize userDataSize genParams = .ok data ↔
      Accepted nonceSize userDataSize genParams ∧
        data = valueBytes genParams ++ keyBytes H genParams := by
  simp only [prepareReportData, bind_eq_ok, enforce_eq_ok]
  -- The two overwrites leave the value and 32 zero bytes; the third replaces these.
  have hbytes : ∀ h : Accepted nonceSize userDataSize genParams,
      (let data := if genParams.reportHexNonce = [] then List.replicate 64 (0 : UInt8)
        else overwrite (List.replicate 64 0) 0 (hexStringToBytes genParams.reportHexNonce)
       let data := if genParams.reportParams.hexUserData = [] then data
        else overwrite data 0 (hexStringToBytes genParams.reportParams.hexUserData)
       if genParams.reportParams.pemPublicKey = [] then data
        else overwrite data 32
          (H.hash (hexStringToBytes genParams.reportParams.pemPublicKey))) =
        valueBytes genParams ++ keyBytes H genParams := by
    intro h
    have hlen := h.valueBytes_length hnonce huser
    have hsize : (hexStringToBytes (givenValue genParams)).length ≤ 32 := by
      simp only [valueBytes, zeroPadded, List.length_append, List.length_replicate] at hlen
      omega
    have hvalue := overwrite_value h.one hsize
    simp only at hvalue ⊢
    rw [hvalue, keyBytes]
    split
    · rfl
    · simp only [overwrite, H.hash_length]
      rw [List.take_left' hlen, List.drop_of_length_le (by simp [hlen]), List.append_nil]
  constructor
  · rintro ⟨_, hnonceLen, _, huserLen, _, hone, hdata⟩
    have haccepted : Accepted nonceSize userDataSize genParams := ⟨hnonceLen, huserLen, hone⟩
    cases hdata
    exact ⟨haccepted, hbytes haccepted⟩
  · rintro ⟨haccepted, rfl⟩
    exact ⟨(), haccepted.nonce, (), haccepted.userData, (), haccepted.one,
      congrArg Except.ok (hbytes haccepted)⟩

theorem prepareReportData_upper {H : Sha256} {nonceSize userDataSize : Nat}
    {genParams : UnifiedAttestationGenerationParams} {data : Bytes}
    (hnonce : nonceSize ≤ 32) (huser : userDataSize ≤ 32)
    (hkey : genParams.reportParams.pemPublicKey ≠ [])
    (h : prepareReportData H nonceSize userDataSize genParams = .ok data) :
    data.length = 64 ∧
      slice data 32 32 = H.hash (hexStringToBytes genParams.reportParams.pemPublicKey) := by
  obtain ⟨haccepted, rfl⟩ := (prepareReportData_eq_ok hnonce huser).mp h
  have hlower := haccepted.valueBytes_length hnonce huser
  have hupper := keyBytes_length H genParams
  constructor
  · rw [List.length_append, hlower, hupper]
  · rw [slice_append_right hlower, List.take_of_length_le hupper.le, keyBytes, if_neg hkey]

theorem prepareReportData_lower {H : Sha256} {nonceSize userDataSize : Nat}
    {genParams : UnifiedAttestationGenerationParams} {data : Bytes}
    (hnonce : nonceSize ≤ 32) (huser : userDataSize ≤ 32)
    (h : prepareReportData H nonceSize userDataSize genParams = .ok data) :
    slice data 0 32 = valueBytes genParams := by
  obtain ⟨haccepted, rfl⟩ := (prepareReportData_eq_ok hnonce huser).mp h
  have hlower := haccepted.valueBytes_length hnonce huser
  rw [slice_append_left (by omega), slice, List.drop_zero, List.take_of_length_le hlower.le]

/-! ## What the TEE puts into a quote -/

/-- An SGX quote made for `data`. -/
def SgxCarries (quote data : Bytes) : Prop :=
  slice quote Sgx2AttestationVerifier.offReportData 64 = data

/-- A TDX quote made for `data`, with its report body at `body`. -/
def TdxCarries (quote : Bytes) (body : Nat) (data : Bytes) : Prop :=
  TdxAttestationVerifier.Readable quote body ∧
    body + TdxAttestationVerifier.offReportData + 64 ≤ quote.length ∧
    slice quote (body + TdxAttestationVerifier.offReportData) 64 = data

/-- A CSV quote made for `data`: the firmware masks it with `anonce`. -/
def CsvCarries (quote : CsvAttestationReport) (data : Bytes) : Prop :=
  xorWords quote.anonce quote.userData.bytes = data

end TrustFlow.Attestation
