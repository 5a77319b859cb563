import TrustFlow.Attestation.Generation

/-! # What report data binds

Nonce and user data are decoded leniently, padded with zero bytes and put into the
same 32 bytes.  So the report data binds the bytes that a value stands for, and
neither the field it was given in nor zero bytes at its end. -/

namespace TrustFlow.Attestation

/-- The platforms that have a generator. -/
inductive TeePlatform where
  | sgxDcap
  | tdx
  | csv
deriving DecidableEq, Repr

/-- The 64 bytes that the generator of a platform prepares; `mnonce` is the nonce that the CSV
    generator draws. -/
def reportData (H : Sha256) (sm3 : Bytes → Bytes) (mnonce : Bytes) (platform : TeePlatform)
    (genParams : UnifiedAttestationGenerationParams) : Except Exn Bytes :=
  match platform with
  | .sgxDcap => prepareSgxReportData H genParams
  | .tdx => prepareTdxReportData H genParams
  | .csv => CsvAttestationUserData.data <$> prepareCsvUserData H sm3 mnonce genParams

/-- The longest nonce of a platform, in bytes. -/
def TeePlatform.nonceSize : TeePlatform → Nat
  | .sgxDcap | .tdx => SGX_HASH_SIZE
  | .csv => GUEST_ATTESTATION_NONCE_SIZE

theorem TeePlatform.nonceSize_le (platform : TeePlatform) : platform.nonceSize ≤ 32 := by
  cases platform <;> simp [nonceSize, SGX_HASH_SIZE, GUEST_ATTESTATION_NONCE_SIZE]

theorem reportData_eq_ok {H : Sha256} {sm3 : Bytes → Bytes} {mnonce : Bytes}
    {platform : TeePlatform} {genParams : UnifiedAttestationGenerationParams} {data : Bytes} :
    reportData H sm3 mnonce platform genParams = .ok data ↔
      Accepted platform.nonceSize 32 genParams ∧
        data = valueBytes genParams ++ keyBytes H genParams := by
  rw [← prepareReportData_eq_ok platform.nonceSize_le (le_refl 32)]
  cases platform with
  | sgxDcap => exact Iff.rfl
  | tdx => exact Iff.rfl
  | csv =>
    -- The CSV generator keeps the 64 bytes beside the nonce and the hash.
    simp only [reportData, prepareCsvUserData, TeePlatform.nonceSize, HASH_LEN]
    cases prepareReportData H GUEST_ATTESTATION_NONCE_SIZE 32 genParams with
    | error e => simp
    | ok bytes => simp [Functor.map, Except.map, Pure.pure, Except.pure]

/-! ## Two sets of parameters -/

/-- The parameters differ in what the caller claims. -/
def ClaimsDiffer (g g' : UnifiedAttestationGenerationParams) : Prop :=
  equalsIgnoreCase g.reportHexNonce g'.reportHexNonce = false ∨
    equalsIgnoreCase g.reportParams.hexUserData g'.reportParams.hexUserData = false ∨
    g.reportParams.pemPublicKey ≠ g'.reportParams.pemPublicKey

theorem valueBytes_eq_iff {g g' : UnifiedAttestationGenerationParams}
    (hg : IsHexText (givenValue g)) (hg' : IsHexText (givenValue g'))
    (hlen : (givenValue g).length = (givenValue g').length) :
    valueBytes g = valueBytes g' ↔ equalsIgnoreCase (givenValue g) (givenValue g') = true := by
  rw [← hexStringToBytes_eq_iff hg hg', valueBytes, valueBytes]
  constructor
  · intro h
    have hbytes : (hexStringToBytes (givenValue g)).length =
        (hexStringToBytes (givenValue g')).length := by
      rw [hexStringToBytes_length, hexStringToBytes_length, hlen]
    exact (List.append_inj h hbytes).1
  · intro h
    rw [h]

/-- Report data differs when the bytes of the given values do; for one public key, only then.
    Hex texts of one length stand for the same bytes exactly when they agree up to case. -/
theorem reportData_binds_value (H : Sha256) (sm3 : Bytes → Bytes) (mnonce mnonce' : Bytes)
    (platform : TeePlatform) (g g' : UnifiedAttestationGenerationParams) (data data' : Bytes)
    (h : reportData H sm3 mnonce platform g = .ok data)
    (h' : reportData H sm3 mnonce' platform g' = .ok data') :
    (valueBytes g ≠ valueBytes g' → data ≠ data') ∧
    (g.reportParams.pemPublicKey = g'.reportParams.pemPublicKey →
      (data ≠ data' ↔ valueBytes g ≠ valueBytes g')) ∧
    (IsHexText (givenValue g) → IsHexText (givenValue g') →
      (givenValue g).length = (givenValue g').length →
      (valueBytes g ≠ valueBytes g' ↔
        equalsIgnoreCase (givenValue g) (givenValue g') = false)) := by
  obtain ⟨haccepted, rfl⟩ := reportData_eq_ok.mp h
  obtain ⟨haccepted', rfl⟩ := reportData_eq_ok.mp h'
  have hlen : (valueBytes g).length = (valueBytes g').length := by
    rw [haccepted.valueBytes_length platform.nonceSize_le (le_refl 32),
      haccepted'.valueBytes_length platform.nonceSize_le (le_refl 32)]
  have hdiffer : valueBytes g ≠ valueBytes g' →
      valueBytes g ++ keyBytes H g ≠ valueBytes g' ++ keyBytes H g' := by
    intro hne heq
    exact hne (List.append_inj heq hlen).1
  refine ⟨hdiffer, ?_, ?_⟩
  · intro hkey
    refine ⟨fun hne heq => hne ?_, hdiffer⟩
    rw [heq, keyBytes, keyBytes, hkey]
  · intro hg hg' hsame
    rw [Ne, valueBytes_eq_iff hg hg' hsame, Bool.not_eq_true]

def nonceParams : UnifiedAttestationGenerationParams := { reportHexNonce := str "ab" }

def userDataParams : UnifiedAttestationGenerationParams :=
  { reportParams := { hexUserData := str "aB00" } }

theorem reportData_binds_value_sample : ∃ data data',
    reportData paddingSha256 id [] .tdx { reportHexNonce := str "ab" } = .ok data ∧
      reportData paddingSha256 id [] .tdx { reportHexNonce := str "ac" } = .ok data' ∧
      data ≠ data' := by
  obtain ⟨data, hdata⟩ : ∃ data, reportData paddingSha256 id [] .tdx
      { reportHexNonce := str "ab" } = .ok data := ⟨_, rfl⟩
  obtain ⟨data', hdata'⟩ : ∃ data', reportData paddingSha256 id [] .tdx
      { reportHexNonce := str "ac" } = .ok data' := ⟨_, rfl⟩
  exact ⟨data, data', hdata, hdata',
    (reportData_binds_value paddingSha256 id [] [] .tdx _ _ data data' hdata hdata').1
      (by decide)⟩

/-- A nonce and user data that ends in a zero byte are attested by the same report data, on
    every platform. -/
theorem reportData_value_ambiguous :
    ClaimsDiffer nonceParams userDataParams ∧
      (∃ data, reportData paddingSha256 id [] .sgxDcap nonceParams = .ok data ∧
        reportData paddingSha256 id [] .sgxDcap userDataParams = .ok data) ∧
      (∃ data, reportData paddingSha256 id [] .tdx nonceParams = .ok data ∧
        reportData paddingSha256 id [] .tdx userDataParams = .ok data) ∧
      (∃ data, reportData paddingSha256 id [] .csv nonceParams = .ok data ∧
        reportData paddingSha256 id [] .csv userDataParams = .ok data) :=
  ⟨.inl (by decide), ⟨_, rfl, by decide⟩, ⟨_, rfl, by decide⟩,
    ⟨_, rfl, by decide⟩⟩

end TrustFlow.Attestation
