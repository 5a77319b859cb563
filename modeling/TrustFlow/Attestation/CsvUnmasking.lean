import TrustFlow.Attestation.CsvVerifier

/-! # Unmasking a CSV quote

`RetrieveCsvQuotePlainData` of the verifier and the chip id loop of the generator, as loops
over 32-bit words.  The verifier unmasks the fields of a quote one at a time, as bytes, hash
blocks or a certificate; every one of these calls agrees with unmasking the whole quote.

* `retrieveCsvQuotePlainData_eq_loop` — the loop is what the parser is modelled with;
* `unmasking_consistent` — the laws of unmasking.
-/

namespace TrustFlow.Attestation

/-! ## The loops -/

namespace CsvAttestationVerifier

/-- `RetrieveCsvQuotePlainData<T>` on the array of `elementNum` elements of `sizeofT` bytes that
    `srcData` starts with.  The size of an array in memory does not overflow a `size_t`. -/
def retrievePlainElements (sizeofT : Nat) (elementNum : UInt32) (srcData : Bytes)
    (anonce : Word32) : Except Exn Bytes := do
  let dataSize := sizeofT * elementNum.toNat
  enforce (dataSize % 4 = 0)
    (str "Data size in bytes must be times of sizeof(uint32_t), but got " ++ decimal dataSize)
  let dstData := List.replicate dataSize 0
  return xorLoop anonce.toUInt32 srcData (dataSize / 4) dstData

/-- A whole buffer, unmasked as one element. -/
def unmask (anonce : Word32) (buf : Bytes) : Except Exn Bytes :=
  retrievePlainElements buf.length 1 buf anonce

end CsvAttestationVerifier

namespace CsvAttestationGenerator

def SN_LEN : Nat := 64

/-- The chip id that `GenerateReport` takes from a quote, in an array that nothing initializes. -/
def chipId (quote : CsvAttestationReport) (uninitialized : Blob 64) : Bytes :=
  xorLoop quote.anonce.toUInt32 quote.sn.bytes (SN_LEN / 4) uninitialized.bytes

end CsvAttestationGenerator

namespace CsvAttestationVerifier

/-! ## What the loops compute -/

theorem retrievePlainElements_of_words {sizeofT : Nat} {elementNum : UInt32} {srcData : Bytes}
    (anonce : Word32) (hwords : 4 ∣ sizeofT * elementNum.toNat)
    (hin : sizeofT * elementNum.toNat ≤ srcData.length) :
    retrievePlainElements sizeofT elementNum srcData anonce =
      .ok (xorWords anonce (srcData.take (sizeofT * elementNum.toNat))) := by
  have hall := Nat.mul_div_cancel' hwords
  -- The loop reaches the end of the vector, so none of its zeros is left.
  have hloop : xorLoop anonce.toUInt32 srcData (sizeofT * elementNum.toNat / 4)
      (List.replicate (sizeofT * elementNum.toNat) 0) =
        xorWords anonce (srcData.take (sizeofT * elementNum.toNat)) := by
    rw [xorLoop_eq anonce (hall.trans_le hin) (by simp [hall]), hall, List.drop_replicate,
      Nat.sub_self, List.replicate_zero, List.append_nil]
  simp only [retrievePlainElements, enforce_pos _ (Nat.mod_eq_zero_of_dvd hwords), ok_bind, hloop]
  rfl

theorem retrievePlainElements_rejects {sizeofT : Nat} {elementNum : UInt32} (srcData : Bytes)
    (anonce : Word32) (hwords : ¬ 4 ∣ sizeofT * elementNum.toNat) :
    retrievePlainElements sizeofT elementNum srcData anonce = .error ⟨.enforceNotMet,
      str "Data size in bytes must be times of sizeof(uint32_t), but got " ++
        decimal (sizeofT * elementNum.toNat)⟩ := by
  have hmod : ¬ sizeofT * elementNum.toNat % 4 = 0 := fun h => hwords (Nat.dvd_of_mod_eq_zero h)
  simp only [retrievePlainElements, enforce_neg _ hmod, error_bind]

/-- The function that the parser is modelled with is the loop, at a place in a buffer. -/
theorem retrieveCsvQuotePlainData_eq_loop {src : Bytes} (beyond : Nat → UInt8)
    {sizeofT offset : Nat} {elementNum : UInt32} (anonce : Word32) (log : List Access)
    (hin : offset + sizeofT * elementNum.toNat ≤ src.length) :
    (retrieveCsvQuotePlainData ⟨src, beyond⟩ offset (sizeofT * elementNum.toNat) anonce).run log =
      (retrievePlainElements sizeofT elementNum (src.drop offset) anonce).map fun plain =>
        (plain, log ++ [⟨src.length, offset, sizeofT * elementNum.toNat⟩]) := by
  by_cases hwords : 4 ∣ sizeofT * elementNum.toNat
  · rw [run_retrieveCsvQuotePlainData ⟨src, rfl⟩ beyond anonce log (Nat.mod_eq_zero_of_dvd hwords)
        hin,
      retrievePlainElements_of_words anonce hwords (by rw [List.length_drop]; omega)]
    rfl
  · have hmod : ¬ sizeofT * elementNum.toNat % 4 = 0 := fun h => hwords (Nat.dvd_of_mod_eq_zero h)
    rw [retrievePlainElements_rejects _ _ hwords]
    simp only [retrieveCsvQuotePlainData, enforce_neg _ hmod, StateT.run_bind,
      ReadM.run_lift_error, error_bind]
    rfl

theorem unmask_eq (anonce : Word32) {buf : Bytes} (hwords : 4 ∣ buf.length) :
    unmask anonce buf = .ok (xorWords anonce buf) := by
  have hone : buf.length * (1 : UInt32).toNat = buf.length := Nat.mul_one _
  rw [unmask, retrievePlainElements_of_words anonce (by rwa [hone]) hone.le, hone,
    List.take_length]

theorem unmask_slice (anonce : Word32) {buf : Bytes} {off len : Nat} (hoff : 4 ∣ off)
    (hlen : 4 ∣ len) (hin : off + len ≤ buf.length) :
    unmask anonce (slice buf off len) = .ok (slice (xorWords anonce buf) off len) := by
  rw [unmask_eq anonce (by rwa [slice_length hin]), slice_xorWords anonce hoff hlen hin]

theorem chipId_eq (quote : CsvAttestationReport) (uninitialized : Blob 64) :
    CsvAttestationGenerator.chipId quote uninitialized = xorWords quote.anonce quote.sn.bytes := by
  have hsn := quote.sn.size
  have hid := uninitialized.size
  rw [CsvAttestationGenerator.chipId, CsvAttestationGenerator.SN_LEN,
    xorLoop_eq quote.anonce (by omega) (by omega), List.take_of_length_le (by omega),
    List.drop_of_length_le (by omega), List.append_nil]

/-! ## The laws -/

/-- The attributes are the fields of `plain`, the whole quote unmasked. -/
structure ReadsFields (plain : Bytes) (attrs : UnifiedAttestationAttributes) : Prop where
  vmId : attrs.hexProdId = bytesToHexString (slice plain 32 16)
  vmVersion : attrs.hexPlatformSwVersion = bytesToHexString (slice plain 48 16)
  userData : attrs.hexUserData = bytesToHexString (slice plain 64 32)
  mnonce : attrs.hexNonce = bytesToHexString (slice plain 128 16)
  measure : attrs.hexBootMeasurement = bytesToHexString (slice plain 144 32)
  policy : attrs.hexSecureFlags = bytesToHexString (slice plain 176 4)

structure ConsistentUnmasking (anonce : Word32) : Prop where
  /-- The element type a buffer is passed under makes no difference. -/
  everyType : ∀ (buf : Bytes) (sizeofT : Nat) (elementNum : UInt32), 4 ∣ buf.length →
    sizeofT * elementNum.toNat = buf.length →
    retrievePlainElements sizeofT elementNum buf anonce = unmask anonce buf
  twice : ∀ buf : Bytes, 4 ∣ buf.length →
    ∃ plain, unmask anonce buf = .ok plain ∧ unmask anonce plain = .ok buf
  append : ∀ as bs : Bytes, 4 ∣ as.length → 4 ∣ bs.length →
    ∃ p q, unmask anonce as = .ok p ∧ unmask anonce bs = .ok q ∧
      unmask anonce (as ++ bs) = .ok (p ++ q)
  field : ∀ (buf : Bytes) (off len : Nat), 4 ∣ buf.length → 4 ∣ off → 4 ∣ len →
    off + len ≤ buf.length →
    ∃ plain, unmask anonce buf = .ok plain ∧
      unmask anonce (slice buf off len) = .ok (slice plain off len)
  /-- Every field the verifier unmasks on its own, the two halves of `user_data` and the PEK
      certificate among them. -/
  quote : ∀ (quote : Blob 2548) (beyond : Nat → UInt8) (v : Verifier), v.quote = .ofBytes quote →
    v.quote.anonce = anonce →
    ∃ plain attrs, unmask anonce quote.bytes = .ok plain ∧
      (parseUnifiedReport beyond v).run [] = .ok (attrs, accesses) ∧ ReadsFields plain attrs ∧
      retrievePlainElements 1 32 v.quote.userData.bytes anonce = .ok (slice plain 64 32) ∧
      retrievePlainElements 1 32 (v.quote.userData.bytes.drop HASH_LEN) anonce =
        .ok (slice plain 96 32) ∧
      retrievePlainElements sizeofCsvCert 1 v.quote.pekCert.bytes anonce =
        .ok (slice plain 336 2084)
  chipId : ∀ (quote : CsvAttestationReport) (uninitialized : Blob 64), quote.anonce = anonce →
    unmask anonce quote.sn.bytes = .ok (CsvAttestationGenerator.chipId quote uninitialized)
  rejects : ∀ (buf : Bytes) (sizeofT : Nat) (elementNum : UInt32),
    sizeofT * elementNum.toNat = buf.length → ¬ 4 ∣ buf.length →
    retrievePlainElements sizeofT elementNum buf anonce = .error ⟨.enforceNotMet,
      str "Data size in bytes must be times of sizeof(uint32_t), but got " ++ decimal buf.length⟩

theorem retrievePlainElements_slice (quote : Blob 2548) (anonce : Word32)
    {sizeofT off len size : Nat} {elementNum : UInt32} (skip : Nat)
    (hsize : sizeofT * elementNum.toNat = size) (hfield : skip + size ≤ len)
    (hin : off + len ≤ 2548) (hoff : 4 ∣ off + skip) (hwords : 4 ∣ size) :
    retrievePlainElements sizeofT elementNum ((slice quote.bytes off len).drop skip) anonce =
      .ok (slice (xorWords anonce quote.bytes) (off + skip) size) := by
  have hquote := quote.size
  have hlen : (slice quote.bytes off len).length = len := slice_length (by omega)
  rw [retrievePlainElements_of_words anonce (by rwa [hsize]) (by rw [List.length_drop]; omega),
    hsize, slice_xorWords anonce hoff hwords (by omega),
    ← slice_slice quote.bytes off (n := len) hfield]
  rfl

theorem attributes_readsFields (quote : Blob 2548) (beyond : Nat → UInt8) {v : Verifier}
    (hquote : v.quote = .ofBytes quote) :
    ReadsFields (xorWords v.quote.anonce quote.bytes) (attributes beyond v) := by
  have hsize := quote.size
  have hfield : ∀ {off len : Nat}, 4 ∣ off → 4 ∣ len → off + len ≤ 2548 →
      slice (xorWords v.quote.anonce quote.bytes) off len =
        xorWords v.quote.anonce (slice quote.bytes off len) := by
    intro off len hoff hlen hin
    exact slice_xorWords _ hoff hlen (by omega)
  have hlower : slice (slice quote.bytes 64 64) 0 32 = slice quote.bytes 64 32 :=
    slice_slice quote.bytes 64 (by decide)
  constructor <;> rw [hfield (by decide) (by decide) (by decide)]
  · simp only [attributes, hquote, CsvAttestationReport.ofBytes, Blob.field]
  · simp only [attributes, hquote, CsvAttestationReport.ofBytes, Blob.field]
  · simp only [attributes, hquote, CsvAttestationReport.ofBytes, Blob.field, hlower]
  · simp only [attributes, hquote, CsvAttestationReport.ofBytes, Blob.field]
  · simp only [attributes, hquote, CsvAttestationReport.ofBytes, Blob.field]
  · simp only [attributes, hquote, CsvAttestationReport.ofBytes, Blob.field]

/-- The halves of `user_data` and the PEK certificate, as the verifier unmasks them. -/
theorem retrievePlainElements_quoteFields (quote : Blob 2548) (anonce : Word32) :
    let plain := xorWords anonce quote.bytes
    let fields := CsvAttestationReport.ofBytes quote
    retrievePlainElements 1 32 fields.userData.bytes anonce = .ok (slice plain 64 32) ∧
      retrievePlainElements 1 32 (fields.userData.bytes.drop HASH_LEN) anonce =
        .ok (slice plain 96 32) ∧
      retrievePlainElements sizeofCsvCert 1 fields.pekCert.bytes anonce =
        .ok (slice plain 336 2084) := by
  refine ⟨?_, ?_, ?_⟩
  · exact retrievePlainElements_slice quote anonce 0 rfl (by decide) (by decide)
      (by decide) (by decide)
  · exact retrievePlainElements_slice quote anonce 32 rfl (by decide) (by decide) (by decide)
      (by decide)
  · exact retrievePlainElements_slice quote anonce 0 rfl (by decide) (by decide)
      (by decide) (by decide)

/-- Unmasking by words is one function, whichever loop, element type or cut it is done with. -/
theorem unmasking_consistent (anonce : Word32) : ConsistentUnmasking anonce where
  everyType := by
    intro buf sizeofT elementNum hwords hsize
    rw [retrievePlainElements_of_words anonce (by rwa [hsize]) hsize.le, hsize, List.take_length,
      unmask_eq anonce hwords]
  twice := by
    intro buf hwords
    refine ⟨xorWords anonce buf, unmask_eq anonce hwords, ?_⟩
    rw [unmask_eq anonce (by rwa [xorWords_length anonce hwords]), xorWords_xorWords anonce hwords]
  append := by
    intro as bs has hbs
    refine ⟨xorWords anonce as, xorWords anonce bs, unmask_eq anonce has, unmask_eq anonce hbs, ?_⟩
    have hboth : 4 ∣ (as ++ bs).length := by
      rw [List.length_append]
      exact Nat.dvd_add has hbs
    rw [unmask_eq anonce hboth, xorWords_append anonce bs has]
  field := by
    intro buf off len hwords hoff hlen hin
    exact ⟨xorWords anonce buf, unmask_eq anonce hwords, unmask_slice anonce hoff hlen hin⟩
  quote := by
    intro quote beyond v hquote hanonce
    obtain ⟨hlower, hupper, hpek⟩ := retrievePlainElements_quoteFields quote anonce
    refine ⟨xorWords anonce quote.bytes, attributes beyond v, ?_, ?_, ?_, ?_, ?_, ?_⟩
    · apply unmask_eq
      rw [quote.size]
      decide
    · exact run_parseUnifiedReport beyond v []
    · rw [← hanonce]
      exact attributes_readsFields quote beyond hquote
    · rw [hquote, hlower]
    · rw [hquote, hupper]
    · rw [hquote, hpek]
  chipId := by
    intro quote uninitialized hanonce
    have hsn : 4 ∣ quote.sn.bytes.length := by
      rw [quote.sn.size]
      decide
    rw [unmask_eq anonce hsn, chipId_eq, hanonce]
  rejects := by
    intro buf sizeofT elementNum hsize hwords
    rw [retrievePlainElements_rejects buf anonce (by rwa [hsize]), hsize]

end CsvAttestationVerifier

end TrustFlow.Attestation
