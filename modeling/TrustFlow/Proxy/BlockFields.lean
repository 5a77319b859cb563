import TrustFlow.Proxy.FileRoundTrip

/-! # The fields of a block header

Where in a block `DecryptDataBlock` takes the IV, the MAC and the data from.  The offsets
are fixed, the lengths of the IV and of the MAC are bytes of the block.

* `decryptDataBlock_eq_spans` — the cipher gets the bytes under three spans;
* `blockFields_iff` — when the spans are the fields that the encoder writes. -/

namespace TrustFlow.Proxy

/-! ## Spans -/

/-- A range of bytes of a buffer (`absl::Span`). -/
structure Span where
  offset : Nat
  len : Nat
deriving DecidableEq

namespace Span

def Covers (s : Span) (i : Nat) : Prop := s.offset ≤ i ∧ i < s.offset + s.len

def Within (s t : Span) : Prop := ∀ i, s.Covers i → t.Covers i

def Apart (s t : Span) : Prop := ∀ i, s.Covers i → ¬ t.Covers i

def view (s : Span) (buf : Bytes) : Bytes := slice buf s.offset s.len

/-- `subspan(pos, len)` of a buffer: the length is cut off at what is left. -/
def subspan (buf : Bytes) (pos len : Nat) : Span := ⟨pos, min len (buf.length - pos)⟩

theorem view_subspan (buf : Bytes) (pos len : Nat) :
    (subspan buf pos len).view buf = slice buf pos len := by
  simp only [view, subspan, slice, ← List.length_drop]
  by_cases hlen : len ≤ (buf.drop pos).length
  · rw [min_eq_left hlen]
  · rw [min_eq_right (by omega), List.take_length, List.take_of_length_le (by omega)]

theorem within_iff {pos len width : Nat} :
    (⟨pos, len⟩ : Span).Within ⟨pos, width⟩ ↔ len ≤ width := by
  simp only [Within, Covers]
  constructor
  · intro hin
    by_contra hlong
    have hnext := hin (pos + width) (by omega)
    omega
  · intro hle i hi
    omega

theorem apart_of_before {s t : Span} (h : s.offset + s.len ≤ t.offset) : s.Apart t := by
  intro i hs ht
  have hs' := hs.2
  have ht' := ht.1
  omega

end Span

/-! ## The spans of a block -/

structure BlockSpans where
  iv : Span
  mac : Span
  encryptedData : Span
deriving DecidableEq

/-- `DecryptDataBlock` up to the call of the cipher. -/
def blockSpans (dataBlock : Bytes) : Except Exn BlockSpans := do
  enforce (kIvLenBytes ≤ dataBlock.length) (str "Data block format is not correct")
  let offset := 0
  let ivLen ← bytes2Int 8 ((Span.subspan dataBlock offset kIvLenBytes).view dataBlock)
  let offset := offset + kIvLenBytes
  enforce (offset + kIvFieldBytes ≤ dataBlock.length) (str "Data block format is not correct")
  let iv := Span.subspan dataBlock offset ivLen
  let offset := offset + kIvFieldBytes
  enforce (offset + kMacLenBytes ≤ dataBlock.length) (str "Data block format is not correct")
  let macLen ← bytes2Int 8 ((Span.subspan dataBlock offset kMacLenBytes).view dataBlock)
  let offset := offset + kMacLenBytes
  enforce (offset + kMacFieldBytes ≤ dataBlock.length) (str "Data block format is not correct")
  let mac := Span.subspan dataBlock offset macLen
  let offset := offset + kMacFieldBytes
  return { iv, mac, encryptedData := Span.subspan dataBlock offset (dataBlock.length - offset) }

/-- The rest of `DecryptDataBlock` looks at nothing but the bytes under the spans. -/
theorem decryptDataBlock_eq_spans (gcm : GcmLibrary) (dataBlock dataKey : Bytes) :
    decryptDataBlock gcm dataBlock dataKey = (do
      let spans ← blockSpans dataBlock
      let cipher ← gcmOf gcm dataKey
      cipher.decrypt dataKey (spans.iv.view dataBlock) (spans.encryptedData.view dataBlock) []
        (spans.mac.view dataBlock)) := by
  have hdata : ∀ pos, slice dataBlock pos (dataBlock.length - pos) = dataBlock.drop pos := by
    intro pos
    simp only [slice]
    rw [← List.length_drop, List.take_length]
  simp only [decryptDataBlock, blockSpans, bind_assoc, pure_bind, Span.view_subspan, hdata]

def ivLenByte (dataBlock : Bytes) : Nat := leNat (slice dataBlock 0 1)

def macLenByte (dataBlock : Bytes) : Nat := leNat (slice dataBlock 33 1)

theorem blockSpans_eq_ok {dataBlock : Bytes} {spans : BlockSpans} :
    blockSpans dataBlock = .ok spans ↔ blockHeaderLen ≤ dataBlock.length ∧
      spans = {
        iv := Span.subspan dataBlock 1 (ivLenByte dataBlock)
        mac := Span.subspan dataBlock 34 (macLenByte dataBlock)
        encryptedData := Span.subspan dataBlock 66 (dataBlock.length - 66) } := by
  have hint : ∀ off, bytes2Int 8 (slice dataBlock off 1) = .ok (leNat (slice dataBlock off 1)) :=
    fun off => bytes2Int_of_le (le_trans (List.length_take_le 1 _) (by decide))
  simp only [blockSpans, bind_eq_ok, enforce_eq_ok, Span.view_subspan]
  simp only [kIvLenBytes, kIvFieldBytes, kMacLenBytes, kMacFieldBytes, blockHeaderLen, hint]
  constructor
  · intro h
    obtain ⟨_, _, _, hiv, _, _, _, _, _, hmac, _, hlen, hspans⟩ := h
    cases hiv
    cases hmac
    cases hspans
    exact ⟨by omega, rfl⟩
  · intro h
    obtain ⟨hlen, rfl⟩ := h
    exact ⟨(), by omega, _, rfl, (), by omega, (), by omega, _, rfl, (), by omega, rfl⟩

/-! ## The fields -/

def ivField : Span := ⟨1, kIvFieldBytes⟩

def macField : Span := ⟨34, kMacFieldBytes⟩

/-- Where the encoder puts the tag. -/
def tagBytes : Span := ⟨34, kMacBytes⟩

structure InFields (spans : BlockSpans) : Prop where
  iv : spans.iv.Within ivField
  mac : spans.mac.Within macField
  tag : tagBytes.Within spans.mac
  ivMac : spans.iv.Apart spans.mac
  ivData : spans.iv.Apart spans.encryptedData
  macData : spans.mac.Apart spans.encryptedData

/-- A MAC length above that of its field does no harm in a block without data, which is where
    the length is cut off. -/
theorem inFields_iff {dataBlock : Bytes} {spans : BlockSpans}
    (h : blockSpans dataBlock = .ok spans) :
    InFields spans ↔ ivLenByte dataBlock ≤ kIvFieldBytes ∧ kMacBytes ≤ macLenByte dataBlock ∧
      (macLenByte dataBlock ≤ kMacFieldBytes ∨ dataBlock.length = blockHeaderLen) := by
  obtain ⟨hlen, rfl⟩ := blockSpans_eq_ok.mp h
  have hsize : 66 ≤ dataBlock.length := hlen
  simp only [kIvFieldBytes, kMacFieldBytes, kMacBytes, show blockHeaderLen = 66 from rfl]
  constructor
  · intro hin
    have hiv := Span.within_iff.mp hin.iv
    have hmac := Span.within_iff.mp hin.mac
    have htag := Span.within_iff.mp hin.tag
    simp only [kIvFieldBytes, kMacFieldBytes, kMacBytes] at hiv hmac htag
    omega
  · intro hlens
    have hiv : min (ivLenByte dataBlock) (dataBlock.length - 1) ≤ 32 := by omega
    have hmac : min (macLenByte dataBlock) (dataBlock.length - 34) ≤ 32 := by omega
    have htag : 16 ≤ min (macLenByte dataBlock) (dataBlock.length - 34) := by omega
    refine ⟨Span.within_iff.mpr hiv, Span.within_iff.mpr hmac, Span.within_iff.mpr htag, ?_, ?_, ?_⟩
    · apply Span.apart_of_before
      simp only [Span.subspan]
      omega
    · apply Span.apart_of_before
      simp only [Span.subspan]
      omega
    · apply Span.apart_of_before
      simp only [Span.subspan]
      omega

/-- A call that reaches the cipher hands it the bytes under three spans.  These respect the
    fields of the header if and only if the length bytes do. -/
theorem blockFields_iff {gcm : GcmLibrary} {dataBlock dataKey : Bytes} {spans : BlockSpans}
    {cipher : GcmCrypto} (hspans : blockSpans dataBlock = .ok spans)
    (hcipher : gcmOf gcm dataKey = .ok cipher) :
    decryptDataBlock gcm dataBlock dataKey =
        cipher.decrypt dataKey (spans.iv.view dataBlock) (spans.encryptedData.view dataBlock) []
          (spans.mac.view dataBlock) ∧
      (InFields spans ↔ ivLenByte dataBlock ≤ kIvFieldBytes ∧ kMacBytes ≤ macLenByte dataBlock ∧
        (macLenByte dataBlock ≤ kMacFieldBytes ∨ dataBlock.length = blockHeaderLen)) := by
  refine ⟨?_, inFields_iff hspans⟩
  rw [decryptDataBlock_eq_spans, hspans, hcipher]
  rfl

/-- A block of 100 bytes with the given length bytes. -/
def blockWith (ivLen macLen : UInt8) : Bytes :=
  [ivLen] ++ List.replicate 32 0 ++ [macLen] ++ List.replicate 66 0

def spansOf (ivLen macLen : Nat) : BlockSpans := ⟨⟨1, ivLen⟩, ⟨34, macLen⟩, ⟨66, 34⟩⟩

/-- With the length bytes that the encoder writes, the spans respect the fields. -/
theorem blockFields_encoder : InFields (spansOf 12 16) := by
  have hspans : blockSpans (blockWith 12 16) = .ok (spansOf 12 16) := by decide
  have hcipher : gcmOf ⟨plainGcm, plainGcm⟩ (List.replicate 16 0) = .ok plainGcm := rfl
  exact (blockFields_iff hspans hcipher).2.mpr (by decide)

/-- An IV of 40 bytes reaches into the MAC, and a MAC of 4 bytes has not the whole tag. -/
theorem blockFields_left :
    (blockSpans (blockWith 40 16) = .ok (spansOf 40 16) ∧ ¬ InFields (spansOf 40 16) ∧
      (spansOf 40 16).iv.Covers 34 ∧ (spansOf 40 16).mac.Covers 34) ∧
    (blockSpans (blockWith 12 4) = .ok (spansOf 12 4) ∧ ¬ InFields (spansOf 12 4)) := by
  have hlong : blockSpans (blockWith 40 16) = .ok (spansOf 40 16) := by decide
  have hshort : blockSpans (blockWith 12 4) = .ok (spansOf 12 4) := by decide
  refine ⟨⟨hlong, ?_, ?_, ?_⟩, hshort, ?_⟩
  · rw [inFields_iff hlong]
    decide
  · simp [Span.Covers, spansOf]
  · simp [Span.Covers, spansOf]
  · rw [inFields_iff hshort]
    decide

end TrustFlow.Proxy
