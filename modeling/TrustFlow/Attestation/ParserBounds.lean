import TrustFlow.Attestation.CsvSignedBytes
import TrustFlow.Attestation.TdxVerifier

/-! # Bounds of the quote parsers

Whether the ranges that `ParseUnifiedReport` reads lie inside the buffers it reads
them from.  The CSV parser views the second half of a digest behind a vector that
only holds the first half.  The TDX parser compares the length of the quote with
the layout of version 4 and then follows the version field, and the report body of
version 5 starts six bytes later. -/

namespace TrustFlow.Attestation

def AllInBounds (log : List Access) : Prop := ∀ a ∈ log, a.InBounds

instance (log : List Access) : Decidable (AllInBounds log) :=
  inferInstanceAs (Decidable (∀ a ∈ log, a.InBounds))

/-! ## CSV -/

namespace CsvAttestationVerifier

/-- `user_data` of the quote, unmasked by `anonce`. -/
def plainUserData (quote : CsvAttestationReport) : Bytes :=
  xorWords quote.anonce quote.userData.bytes

/-- The parser reads inside its buffers, and exports the lower half of the user data as user
    data and the upper half as public key hash. -/
def ParsesInBounds (beyond : Nat → UInt8) (v : Verifier) : Prop :=
  ∀ attrs log, (parseUnifiedReport beyond v).run [] = .ok (attrs, log) →
    AllInBounds log ∧
    attrs.hexUserData = bytesToHexString (slice (plainUserData v.quote) 0 32) ∧
    attrs.hexHashOrPemPubkey = bytesToHexString (slice (plainUserData v.quote) 32 32)

/-- Only the last range the parser reads leaves its buffer. -/
theorem not_allInBounds_accesses : ¬ AllInBounds accesses ∧ AllInBounds accesses.dropLast := by
  decide

theorem slice_plainUserData_lower (quote : CsvAttestationReport) :
    slice (plainUserData quote) 0 32 = xorWords quote.anonce (slice quote.userData.bytes 0 32) := by
  have hlen : 32 ≤ quote.userData.bytes.length := by simp [quote.userData.size]
  simp only [slice, List.drop_zero, plainUserData]
  exact xorWords_take quote.anonce (by decide) hlen

theorem view_behind (beyond : Nat → UInt8) {bs : Bytes} {n : Nat} (h : bs.length ≤ n) (len : Nat) :
    (Buffer.mk bs beyond).view n len = (List.range len).map fun i => beyond (n + i) := by
  simp only [Buffer.view, Buffer.byteAt]
  apply List.map_congr_left
  intro i _
  exact List.getD_eq_default bs _ (by omega)

/-- The parser never stays in bounds.  What it reads inside its buffers it reads correctly, the
    user data among it; the public key hash is whatever the 32 bytes behind the user data vector
    hold, and right only if these happen to be the upper half. -/
theorem parse_leaves_bounds (beyond : Nat → UInt8) (v : Verifier) :
    ¬ ParsesInBounds beyond v ∧
    ∃ attrs log last, (parseUnifiedReport beyond v).run [] = .ok (attrs, log ++ [last]) ∧
      AllInBounds log ∧ ¬ last.InBounds ∧
      attrs.hexUserData = bytesToHexString (slice (plainUserData v.quote) 0 32) ∧
      (attrs.hexHashOrPemPubkey = bytesToHexString (slice (plainUserData v.quote) 32 32) ↔
        (List.range 32).map (fun i => beyond (32 + i)) = slice (plainUserData v.quote) 32 32) := by
  have hrun := run_parseUnifiedReport beyond v []
  rw [List.nil_append] at hrun
  constructor
  · intro hparses
    exact not_allInBounds_accesses.1 (hparses _ _ hrun).1
  · refine ⟨attributes beyond v, accesses.dropLast, ⟨32, 32, 32⟩, hrun, ?_, by decide, ?_, ?_⟩
    · exact not_allInBounds_accesses.2
    · rw [slice_plainUserData_lower]
      rfl
    · have hview := view_behind beyond (plainUserData_length v.quote).le 32
      simp only [attributes, hview]
      constructor
      · intro hhex
        exact bytesToHexString_inj hhex
      · intro hbytes
        rw [hbytes]

/-- With 0xff behind the user data vector, the hash exported for the all-zero user data of this
    report is not that of the report, and the last range read starts where its buffer ends. -/
theorem sample_report_overread : ∃ attrs log,
    (parseUnifiedReport (fun _ => 0xff) sampleReport).run [] = .ok (attrs, log) ∧
      (⟨32, 32, 32⟩ : Access) ∈ log ∧ ¬ (⟨32, 32, 32⟩ : Access).InBounds ∧
      attrs.hexHashOrPemPubkey ≠
        bytesToHexString (slice (plainUserData sampleReport.quote) 32 32) := by
  refine ⟨_, _, run_parseUnifiedReport _ _ [], by decide, by decide, ?_⟩
  simp only [attributes, view_behind _ (plainUserData_length _).le]
  intro hhex
  have hbytes := bytesToHexString_inj hhex
  revert hbytes
  decide

end CsvAttestationVerifier

/-! ## TDX -/

namespace TdxAttestationVerifier

def ParsesInBounds (beyond : Nat → UInt8) (v : DcapVerifier) : Prop :=
  ∀ attrs log, (parseUnifiedReport beyond v).run [] = .ok (attrs, log) → AllInBounds log

/-- `sizeof(sgx_report2_body_t)`. -/
def sizeofReportBody : Nat := 584

/-- The report body is the last thing the parser reads, whatever the version. -/
theorem allInBounds_accesses_iff {quote : Bytes} {body : Nat} (h : Readable quote body) :
    AllInBounds (accesses quote.length body) ↔ body + sizeofReportBody ≤ quote.length := by
  have hsize : 636 ≤ quote.length := h.1
  simp only [AllInBounds, accesses, List.forall_mem_cons, Access.InBounds, sizeofReportBody,
    offTeeType, offVersion, offMrSeam, offMrsignerSeam, offTdAttributes, offMrTd, offMrConfigId,
    offMrOwner, offMrOwnerConfig, offRtMr, offReportData]
  constructor
  · intro hin
    omega
  · intro hfits
    simp only [List.not_mem_nil, false_imp_iff, implies_true, and_true]
    omega

theorem parsesInBounds_iff_fits (beyond : Nat → UInt8) (v : DcapVerifier) :
    ParsesInBounds beyond v ↔
      ∀ body, Readable v.quote body → body + sizeofReportBody ≤ v.quote.length := by
  constructor
  · intro hparses body hbody
    have hrun := parseUnifiedReport_of_readable beyond [] hbody
    exact (allInBounds_accesses_iff hbody).mp (hparses _ _ hrun)
  · intro hfits attrs log hrun
    obtain ⟨body, hbody, _, rfl⟩ := parseUnifiedReport_eq_ok.mp hrun
    exact (allInBounds_accesses_iff hbody).mpr (hfits body hbody)

/-- The parser stays inside the quote unless the quote is a TDX quote of version 5 that is long
    enough for version 4 and one or two bytes too short for its own layout. -/
theorem parsesInBounds_iff (beyond : Nat → UInt8) (v : DcapVerifier) :
    ParsesInBounds beyond v ↔
      ¬ (teeType v.quote = kIntelTeeTypeTdx ∧ version v.quote = 5 ∧
        (v.quote.length = 636 ∨ v.quote.length = 637)) := by
  rw [parsesInBounds_iff_fits]
  simp only [Readable, sizeofQuote4, sizeofReportBody, offBody4, offBody5]
  constructor
  · rintro hfits ⟨htype, hversion, hsize⟩
    have hfive := hfits 54 ⟨by omega, htype, .inr ⟨hversion, rfl⟩⟩
    omega
  · rintro hnot body ⟨hsize, htype, hversion⟩
    rcases hversion with ⟨_, rfl⟩ | ⟨hfive, rfl⟩
    · omega
    · have : ¬ (v.quote.length = 636 ∨ v.quote.length = 637) := fun h => hnot ⟨htype, hfive, h⟩
      omega

/-- A version 5 quote of 636 bytes, all zero but for the header fields. -/
def shortTdxQuote : Bytes := [5, 0, 0, 0, 0x81, 0, 0, 0] ++ List.replicate 628 0

theorem shortTdxQuote_readable : Readable shortTdxQuote offBody5 := by
  refine ⟨?_, ?_, .inr ⟨?_, rfl⟩⟩
  · decide +kernel
  · decide
  · decide

/-- The last two bytes of the report data of this quote lie behind its end. -/
theorem short_quote_overread : ∃ attrs log,
    (parseUnifiedReport (fun _ => 0xff) { report := {}, quote := shortTdxQuote }).run [] =
      .ok (attrs, log) ∧ (⟨636, 606, 32⟩ : Access) ∈ log ∧
      ¬ (⟨636, 606, 32⟩ : Access).InBounds := by
  refine ⟨_, _, parseUnifiedReport_of_readable _ [] shortTdxQuote_readable, ?_, by decide⟩
  have hsize : shortTdxQuote.length = 636 := by decide +kernel
  simp [accesses, hsize, offBody5, offReportData]

end TdxAttestationVerifier

end TrustFlow.Attestation
