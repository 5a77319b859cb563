import TrustFlow.Attestation.AttrsIsMatch
import TrustFlow.Attestation.Sgx2Verifier
import TrustFlow.Attestation.TdxVerifier

/-! # Rules on measurements

A rule names measurements by their hex texts, and a TDX rule names several registers by
one text.  Two quotes that satisfy the same rule agree on every register that the rule
names: the texts of the attributes are in lower case and as long as their registers.

* `strMet_unique` — the rule fixes the text;
* `hexTexts_inj` — the text fixes the registers. -/

namespace TrustFlow.Attestation

/-! ## Texts -/

/-- Of the texts in lower case, a comparison without case lets one through. -/
theorem strMet_unique {actual actual' expected : Bytes} (hne : expected ≠ [])
    (hlower : actual.map asciiToLower = actual) (hlower' : actual'.map asciiToLower = actual')
    (hmet : strMet actual expected = true) (hmet' : strMet actual' expected = true) :
    actual = actual' := by
  have hempty : expected.isEmpty = false := by simp [hne]
  simp only [strMet, hempty, Bool.false_or, equalsIgnoreCase_iff] at hmet hmet'
  rw [← hlower, ← hmet, hmet', hlower']

/-- The texts of registers, one after the other. -/
def hexTexts (registers : List Bytes) : Bytes := (registers.map bytesToHexString).flatten

theorem map_asciiToLower_hexTexts (registers : List Bytes) :
    (hexTexts registers).map asciiToLower = hexTexts registers := by
  induction registers with
  | nil => rfl
  | cons register registers ih =>
    simp only [hexTexts, List.map_cons, List.flatten_cons, List.map_append] at ih ⊢
    rw [map_asciiToLower_bytesToHexString, ih]

/-- Registers of the same sizes have the same texts only if they are the same. -/
theorem hexTexts_inj : ∀ {registers registers' : List Bytes},
    registers.map List.length = registers'.map List.length →
      hexTexts registers = hexTexts registers' → registers = registers'
  | [], [], _, _ => rfl
  | [], _ :: _, hsizes, _ => by simp at hsizes
  | _ :: _, [], hsizes, _ => by simp at hsizes
  | r :: rs, r' :: rs', hsizes, htexts => by
    simp only [List.map_cons, List.cons.injEq] at hsizes
    simp only [hexTexts, List.map_cons, List.flatten_cons] at htexts
    have hsplit := List.append_inj htexts (by simp [hsizes.1])
    rw [bytesToHexString_inj hsplit.1, hexTexts_inj hsizes.2 hsplit.2]

/-- Two sets of registers that meet the same text of a rule are the same. -/
theorem registers_unique {registers registers' : List Bytes} {expected : Bytes}
    (hne : expected ≠ []) (hsizes : registers.map List.length = registers'.map List.length)
    (hmet : strMet (hexTexts registers) expected = true)
    (hmet' : strMet (hexTexts registers') expected = true) : registers = registers' :=
  hexTexts_inj hsizes (strMet_unique hne (map_asciiToLower_hexTexts _)
    (map_asciiToLower_hexTexts _) hmet hmet')

/-! ## SGX -/

namespace Sgx2AttestationVerifier

structure Registers where
  mrEnclave : Bytes
  mrSigner : Bytes
deriving DecidableEq

def registers (quote : Bytes) : Registers where
  mrEnclave := slice quote offMrEnclave sizeofMeasurement
  mrSigner := slice quote offMrSigner sizeofMeasurement

theorem length_register {quote : Bytes} (h : sizeofQuote3 ≤ quote.length) {offset : Nat}
    (hoffset : offset + 32 ≤ sizeofQuote3) : (slice quote offset 32).length = 32 :=
  slice_length (le_trans hoffset h)

theorem registers_eq_of_match {H : Sha256} {v v' : DcapVerifier}
    {rule : UnifiedAttestationAttributes} (hsize : sizeofQuote3 ≤ v.quote.length)
    (hsize' : sizeofQuote3 ≤ v'.quote.length) (hta : rule.hexTaMeasurement ≠ [])
    (hsigner : rule.hexSigner ≠ []) (hmeets : MeetsRule H (attributes v) rule)
    (hmeets' : MeetsRule H (attributes v') rule) :
    registers v.quote = registers v'.quote := by
  obtain ⟨⟨_, _, _, _, _, _, htaMet, _, hsignerMet, _⟩, _⟩ := hmeets
  obtain ⟨⟨_, _, _, _, _, _, htaMet', _, hsignerMet', _⟩, _⟩ := hmeets'
  have hone : ∀ r : Bytes, bytesToHexString r = hexTexts [r] := fun r => by simp [hexTexts]
  simp only [attributes, hone] at htaMet htaMet' hsignerMet hsignerMet'
  have henclave := registers_unique hta (by
    simp only [List.map_cons, length_register hsize (show offMrEnclave + 32 ≤ _ by decide),
      length_register hsize' (show offMrEnclave + 32 ≤ _ by decide)]) htaMet htaMet'
  have hsigners := registers_unique hsigner (by
    simp only [List.map_cons, length_register hsize (show offMrSigner + 32 ≤ _ by decide),
      length_register hsize' (show offMrSigner + 32 ≤ _ by decide)]) hsignerMet hsignerMet'
  simp only [List.cons.injEq, and_true] at henclave hsigners
  simp only [registers, sizeofMeasurement, henclave, hsigners]

end Sgx2AttestationVerifier

/-! ## TDX -/

namespace TdxAttestationVerifier

structure Registers where
  mrSeam : Bytes
  mrsignerSeam : Bytes
  mrTd : Bytes
  mrConfigId : Bytes
  mrOwner : Bytes
  mrOwnerConfig : Bytes
  rtMr0 : Bytes
  rtMr1 : Bytes
  rtMr2 : Bytes
  rtMr3 : Bytes
deriving DecidableEq

/-- Where the report body of a quote is that the parser takes. -/
def reportBody (quote : Bytes) : Nat := if version quote = 4 then offBody4 else offBody5

def register (quote : Bytes) (offset : Nat) : Bytes :=
  slice quote (reportBody quote + offset) sizeofMeasurement

def registers (quote : Bytes) : Registers where
  mrSeam := register quote offMrSeam
  mrsignerSeam := register quote offMrsignerSeam
  mrTd := register quote offMrTd
  mrConfigId := register quote offMrConfigId
  mrOwner := register quote offMrOwner
  mrOwnerConfig := register quote offMrOwnerConfig
  rtMr0 := register quote (offRtMr 0)
  rtMr1 := register quote (offRtMr 1)
  rtMr2 := register quote (offRtMr 2)
  rtMr3 := register quote (offRtMr 3)

theorem Readable.body_eq {quote : Bytes} {body : Nat} (h : Readable quote body) :
    body = reportBody quote ∧ body ≤ 54 := by
  rcases h.2.2 with ⟨hversion, rfl⟩ | ⟨hversion, rfl⟩
  · simp [reportBody, hversion, offBody4]
  · simp [reportBody, hversion, offBody5]

/-- The registers end before the checked length, for both versions. -/
theorem view_register {v : DcapVerifier} {body : Nat} (beyond : Nat → UInt8)
    (h : Readable v.quote body) {offset : Nat} (hoffset : offset + 48 ≤ 520) :
    mrHex ⟨v.quote, beyond⟩ (body + offset) = bytesToHexString (register v.quote offset) ∧
      (register v.quote offset).length = 48 := by
  have hsize : 636 ≤ v.quote.length := h.1
  obtain ⟨hbody, hle⟩ := h.body_eq
  have hin : body + offset + 48 ≤ (Buffer.mk v.quote beyond).bytes.length := by
    show body + offset + 48 ≤ v.quote.length
    omega
  rw [mrHex, register, sizeofMeasurement, ← hbody, Buffer.view_eq_slice hin]
  exact ⟨rfl, slice_length hin⟩

/-- The three measurements are the texts of the registers. -/
theorem attributes_measurements {v : DcapVerifier} {body : Nat} (beyond : Nat → UInt8)
    (h : Readable v.quote body) :
    (attributes beyond v body).hexPlatformMeasurement =
        hexTexts ([offMrSeam, offMrsignerSeam, offMrTd, offMrConfigId, offMrOwner,
          offMrOwnerConfig].map (register v.quote)) ∧
      (attributes beyond v body).hexBootMeasurement =
        hexTexts ([offRtMr 0, offRtMr 1].map (register v.quote)) ∧
      (attributes beyond v body).hexTaMeasurement =
        hexTexts ([offRtMr 2, offRtMr 3].map (register v.quote)) := by
  have hview : ∀ {offset : Nat}, offset + 48 ≤ 520 →
      mrHex ⟨v.quote, beyond⟩ (body + offset) = bytesToHexString (register v.quote offset) :=
    fun hoffset => (view_register beyond h hoffset).1
  simp only [attributes]
  rw [hview (show offMrSeam + 48 ≤ 520 by decide),
    hview (show offMrsignerSeam + 48 ≤ 520 by decide),
    hview (show offMrTd + 48 ≤ 520 by decide), hview (show offMrConfigId + 48 ≤ 520 by decide),
    hview (show offMrOwner + 48 ≤ 520 by decide),
    hview (show offMrOwnerConfig + 48 ≤ 520 by decide), hview (show offRtMr 0 + 48 ≤ 520 by decide),
    hview (show offRtMr 1 + 48 ≤ 520 by decide), hview (show offRtMr 2 + 48 ≤ 520 by decide),
    hview (show offRtMr 3 + 48 ≤ 520 by decide)]
  simp [hexTexts]

theorem length_registers {v : DcapVerifier} {body : Nat} (h : Readable v.quote body)
    {offsets : List Nat} (hoffsets : ∀ offset ∈ offsets, offset + 48 ≤ 520) :
    (offsets.map (register v.quote)).map List.length = offsets.map fun _ => 48 := by
  rw [List.map_map]
  apply List.map_congr_left
  intro offset hoffset
  exact (view_register (fun _ => 0) h (hoffsets offset hoffset)).2

theorem registers_eq_of_match {H : Sha256} {beyond beyond' : Nat → UInt8} {v v' : DcapVerifier}
    {body body' : Nat} {rule : UnifiedAttestationAttributes} (h : Readable v.quote body)
    (h' : Readable v'.quote body') (hplatform : rule.hexPlatformMeasurement ≠ [])
    (hboot : rule.hexBootMeasurement ≠ []) (hta : rule.hexTaMeasurement ≠ [])
    (hmeets : MeetsRule H (attributes beyond v body) rule)
    (hmeets' : MeetsRule H (attributes beyond' v' body') rule) :
    registers v.quote = registers v'.quote := by
  obtain ⟨⟨_, _, _, _, hplatformMet, hbootMet, htaMet, _⟩, _⟩ := hmeets
  obtain ⟨⟨_, _, _, _, hplatformMet', hbootMet', htaMet', _⟩, _⟩ := hmeets'
  obtain ⟨hplatformEq, hbootEq, htaEq⟩ := attributes_measurements beyond h
  obtain ⟨hplatformEq', hbootEq', htaEq'⟩ := attributes_measurements beyond' h'
  rw [hplatformEq] at hplatformMet
  rw [hplatformEq'] at hplatformMet'
  rw [hbootEq] at hbootMet
  rw [hbootEq'] at hbootMet'
  rw [htaEq] at htaMet
  rw [htaEq'] at htaMet'
  have hsizes : ∀ {offsets : List Nat}, (∀ offset ∈ offsets, offset + 48 ≤ 520) →
      (offsets.map (register v.quote)).map List.length =
        (offsets.map (register v'.quote)).map List.length := fun hoffsets => by
    rw [length_registers h hoffsets, length_registers h' hoffsets]
  have hplatforms := registers_unique hplatform (hsizes (by decide)) hplatformMet hplatformMet'
  have hboots := registers_unique hboot (hsizes (by decide)) hbootMet hbootMet'
  have htas := registers_unique hta (hsizes (by decide)) htaMet htaMet'
  simp only [List.map_cons, List.map_nil, List.cons.injEq, and_true] at hplatforms hboots htas
  simp only [registers, hplatforms, hboots, htas]

end TdxAttestationVerifier

/-! ## Pinned registers -/

/-- Quotes that satisfy one and the same rule on measurements have the same registers, TDX quotes
    of both versions alike. -/
theorem measurementRules_pin (H : Sha256) (rule : UnifiedAttestationAttributes) :
    (∀ beyond beyond' v v' attrs attrs' log log',
      (Sgx2AttestationVerifier.parseUnifiedReport beyond v).run [] = .ok (attrs, log) →
      (Sgx2AttestationVerifier.parseUnifiedReport beyond' v').run [] = .ok (attrs', log') →
      rule.hexTaMeasurement ≠ [] → rule.hexSigner ≠ [] →
      attrsIsMatch H attrs rule = .ok .pass → attrsIsMatch H attrs' rule = .ok .pass →
        Sgx2AttestationVerifier.registers v.quote = Sgx2AttestationVerifier.registers v'.quote) ∧
    (∀ beyond beyond' v v' attrs attrs' log log',
      (TdxAttestationVerifier.parseUnifiedReport beyond v).run [] = .ok (attrs, log) →
      (TdxAttestationVerifier.parseUnifiedReport beyond' v').run [] = .ok (attrs', log') →
      rule.hexPlatformMeasurement ≠ [] → rule.hexBootMeasurement ≠ [] →
      rule.hexTaMeasurement ≠ [] →
      attrsIsMatch H attrs rule = .ok .pass → attrsIsMatch H attrs' rule = .ok .pass →
        TdxAttestationVerifier.registers v.quote = TdxAttestationVerifier.registers v'.quote) := by
  refine ⟨?_, ?_⟩
  · intro beyond beyond' v v' attrs attrs' log log' hparse hparse' hta hsigner hmatch hmatch'
    obtain ⟨hsize, rfl, _⟩ := Sgx2AttestationVerifier.parseUnifiedReport_eq_ok.mp hparse
    obtain ⟨hsize', rfl, _⟩ := Sgx2AttestationVerifier.parseUnifiedReport_eq_ok.mp hparse'
    rw [attrsIsMatch_eq_pass] at hmatch hmatch'
    exact Sgx2AttestationVerifier.registers_eq_of_match hsize hsize' hta hsigner hmatch hmatch'
  · intro beyond beyond' v v' attrs attrs' log log' hparse hparse' hplatform hboot hta hmatch
      hmatch'
    obtain ⟨body, hbody, rfl, _⟩ := TdxAttestationVerifier.parseUnifiedReport_eq_ok.mp hparse
    obtain ⟨body', hbody', rfl, _⟩ := TdxAttestationVerifier.parseUnifiedReport_eq_ok.mp hparse'
    rw [attrsIsMatch_eq_pass] at hmatch hmatch'
    exact TdxAttestationVerifier.registers_eq_of_match hbody hbody' hplatform hboot hta hmatch
      hmatch'

/-- A text of `n` bytes with the value 0xab, in upper case. -/
def upperText (n : Nat) : Bytes := (List.replicate n (str "AB")).flatten

def upperRule : UnifiedAttestationAttributes where
  hexTaMeasurement := upperText 32
  hexSigner := upperText 32

def upperTdxRule : UnifiedAttestationAttributes where
  hexPlatformMeasurement := upperText 288
  hexBootMeasurement := upperText 96
  hexTaMeasurement := upperText 96

/-- Two enclaves that differ in what follows the signer, and trust domains of both versions. -/
def sgxQuotes (fill : UInt8) : DcapVerifier where
  report := {}
  quote := List.replicate 208 0xab ++ List.replicate 228 fill

def tdxQuotes (version : UInt8) : DcapVerifier where
  report := {}
  quote := [version, 0, 0, 0, 0x81, 0, 0, 0] ++ List.replicate 630 0xab

/-- What a trust domain must have for the rule, said of its registers. -/
theorem meetsRule_upperTdxRule {v : DcapVerifier} {body : Nat}
    (h : TdxAttestationVerifier.Readable v.quote body)
    (hregisters :
      strMet (hexTexts ([16, 64, 136, 184, 232, 280].map (TdxAttestationVerifier.register v.quote)))
          (upperText 288) = true ∧
        strMet (hexTexts ([328, 376].map (TdxAttestationVerifier.register v.quote)))
          (upperText 96) = true ∧
        strMet (hexTexts ([424, 472].map (TdxAttestationVerifier.register v.quote)))
          (upperText 96) = true) :
    MeetsRule paddingSha256 (TdxAttestationVerifier.attributes (fun _ => 0) v body)
      upperTdxRule := by
  obtain ⟨hplatform, hboot, hta⟩ := TdxAttestationVerifier.attributes_measurements (fun _ => 0) h
  refine ⟨⟨rfl, rfl, rfl, rfl, ?_, ?_, ?_, rfl, rfl, rfl⟩, ⟨rfl, rfl⟩, rfl, rfl, rfl⟩
  · rw [hplatform]
    exact hregisters.1
  · rw [hboot]
    exact hregisters.2.1
  · rw [hta]
    exact hregisters.2.2

theorem measurementRules_pin_upper :
    Sgx2AttestationVerifier.registers (sgxQuotes 0).quote =
        Sgx2AttestationVerifier.registers (sgxQuotes 1).quote ∧
      TdxAttestationVerifier.registers (tdxQuotes 4).quote =
        TdxAttestationVerifier.registers (tdxQuotes 5).quote := by
  have hsgx : ∀ fill, (sgxQuotes fill).quote.length = 436 := fun fill => by
    simp only [sgxQuotes, List.length_append, List.length_replicate]
  have htdx : ∀ version, (tdxQuotes version).quote.length = 638 := fun version => by
    simp only [tdxQuotes, List.length_append, List.length_replicate, List.length_cons,
      List.length_nil]
  have hfour : TdxAttestationVerifier.Readable (tdxQuotes 4).quote
      TdxAttestationVerifier.offBody4 :=
    ⟨by rw [htdx]; decide, by decide, .inl ⟨by decide, rfl⟩⟩
  have hfive : TdxAttestationVerifier.Readable (tdxQuotes 5).quote
      TdxAttestationVerifier.offBody5 :=
    ⟨by rw [htdx]; decide, by decide, .inr ⟨by decide, rfl⟩⟩
  refine ⟨?_, ?_⟩
  · refine (measurementRules_pin paddingSha256 upperRule).1 (fun _ => 0) (fun _ => 0) _ _ _ _ _ _
      (Sgx2AttestationVerifier.parseUnifiedReport_of_size _ _ (hsgx 0).ge)
      (Sgx2AttestationVerifier.parseUnifiedReport_of_size _ _ (hsgx 1).ge) (by decide) (by decide)
      ?_ ?_
    · rw [attrsIsMatch_eq_pass]
      decide
    · rw [attrsIsMatch_eq_pass]
      decide
  · refine (measurementRules_pin paddingSha256 upperTdxRule).2 (fun _ => 0) (fun _ => 0) _ _ _ _ _ _
      (TdxAttestationVerifier.parseUnifiedReport_of_readable _ _ hfour)
      (TdxAttestationVerifier.parseUnifiedReport_of_readable _ _ hfive) (by decide) (by decide)
      (by decide) ?_ ?_
    · rw [attrsIsMatch_eq_pass]
      exact meetsRule_upperTdxRule hfour (by decide +kernel)
    · rw [attrsIsMatch_eq_pass]
      exact meetsRule_upperTdxRule hfive (by decide +kernel)

end TrustFlow.Attestation
