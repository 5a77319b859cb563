import TrustFlow.Attestation.CApi
import TrustFlow.Attestation.Sgx2Verifier
import TrustFlow.Attestation.TdxVerifier

/-! # Intel collateral on its way to the quote verifier

The generator fetches the collateral of a quote as a structure of seven C buffers
(`GetIntelCollateral`), strips the terminators and writes it as JSON.  The verifiers read the
JSON and build the same structure again, with a terminator behind each text that the size
counts.

* `HandsOver` — what a verifier passes to the quote verification library;
* `collateral_transported_iff` — every field arrives, unless a buffer leaves the `uint32_t` of
  its size no room for the terminator.
-/

namespace TrustFlow.Attestation

/-! ## The generator's side -/

/-- A `char*` of `sgx_ql_qve_collateral_t` with its size field. -/
structure CharArray where
  memory : Buffer
  size : UInt32
  whole : memory.bytes.length = size.toNat

/-- `sgx_ql_qve_collateral_t` as `tee_qv_get_collateral` returns it. -/
structure QveCollateral where
  version : UInt32
  teeType : UInt32
  pckCrlIssuerChain : CharArray
  rootCaCrl : CharArray
  pckCrl : CharArray
  tcbInfoIssuerChain : CharArray
  tcbInfo : CharArray
  qeIdentityIssuerChain : CharArray
  qeIdentity : CharArray

/-- The message the generator fills.  No verifier reads its `tee_type`. -/
structure FetchedCollateral extends SgxQlQveCollateral where
  teeType : Nat := 0

/-- `CharArray2String`: without the last byte, if that is a NUL. -/
def charArray2String (buf : Buffer) (bufLen : UInt32) : Bytes :=
  if buf.byteAt (bufLen - 1).toNat = 0 then buf.view 0 (bufLen - 1).toNat
  else buf.view 0 bufLen.toNat

def CharArray.toString (a : CharArray) : Bytes := charArray2String a.memory a.size

/-- `tee_qv_get_collateral`: the return code, 0 being `SGX_QL_SUCCESS`, and the structure that
    the pointer leads to. -/
abbrev TeeQvGetCollateral := Bytes → UInt32 → Nat × Option QveCollateral

def getIntelCollateral (teeQvGetCollateral : TeeQvGetCollateral) (quote : Bytes)
    (quoteSize : UInt32) : Except Exn FetchedCollateral :=
  match teeQvGetCollateral quote quoteSize with
  | (0, some p) => .ok {
      version := p.version.toNat
      pckCrlIssuerChain := p.pckCrlIssuerChain.toString
      rootCaCrl := p.rootCaCrl.toString
      pckCrl := p.pckCrl.toString
      tcbInfoIssuerChain := p.tcbInfoIssuerChain.toString
      tcbInfo := p.tcbInfo.toString
      qeIdentityIssuerChain := p.qeIdentityIssuerChain.toString
      qeIdentity := p.qeIdentity.toString
      teeType := p.teeType.toNat }
  | (ret, _) => .error ⟨.enforceNotMet, str "tee_qv_get_collateral err: " ++ hexText ret⟩

/-- The library of the generator and the JSON functions of both sides. -/
structure TransportEnv where
  teeQvGetCollateral : TeeQvGetCollateral
  encodeCollateral : FetchedCollateral → Except Bytes Bytes
  codec : ReportCodec

/-- The collateral of a quote, from the library of the generator to the member `collateral_` of a
    verifier. -/
def transport (env : TransportEnv) (quote : Bytes) (quoteSize : UInt32) :
    Except Exn SgxQlQveCollateral := do
  let collateral ← getIntelCollateral env.teeQvGetCollateral quote quoteSize
  let json ← pb2json env.encodeCollateral collateral
  env.codec.sgxQlQveCollateral json

/-! ## The seven fields -/

inductive CollateralField where
  | pckCrlIssuerChain
  | rootCaCrl
  | pckCrl
  | tcbInfoIssuerChain
  | tcbInfo
  | qeIdentityIssuerChain
  | qeIdentity
deriving DecidableEq, Repr

def QveCollateral.array (raw : QveCollateral) : CollateralField → CharArray
  | .pckCrlIssuerChain => raw.pckCrlIssuerChain
  | .rootCaCrl => raw.rootCaCrl
  | .pckCrl => raw.pckCrl
  | .tcbInfoIssuerChain => raw.tcbInfoIssuerChain
  | .tcbInfo => raw.tcbInfo
  | .qeIdentityIssuerChain => raw.qeIdentityIssuerChain
  | .qeIdentity => raw.qeIdentity

def SgxQlQveCollateral.text (collateral : SgxQlQveCollateral) : CollateralField → Bytes
  | .pckCrlIssuerChain => collateral.pckCrlIssuerChain
  | .rootCaCrl => collateral.rootCaCrl
  | .pckCrl => collateral.pckCrl
  | .tcbInfoIssuerChain => collateral.tcbInfoIssuerChain
  | .tcbInfo => collateral.tcbInfo
  | .qeIdentityIssuerChain => collateral.qeIdentityIssuerChain
  | .qeIdentity => collateral.qeIdentity

def CollateralData.buffer (data : CollateralData) : CollateralField → CollateralBuffer
  | .pckCrlIssuerChain => data.pckCrlIssuerChain
  | .rootCaCrl => data.rootCaCrl
  | .pckCrl => data.pckCrl
  | .tcbInfoIssuerChain => data.tcbInfoIssuerChain
  | .tcbInfo => data.tcbInfo
  | .qeIdentityIssuerChain => data.qeIdentityIssuerChain
  | .qeIdentity => data.qeIdentity

/-- A NUL-free text in UTF-8. -/
def PlainText (text : Bytes) : Prop := 0 ∉ text ∧ IsUtf8 text

/-- The buffer is a non-empty text, with or without a terminator. -/
structure CharArray.Holds (a : CharArray) (text : Bytes) : Prop where
  nonempty : text ≠ []
  plain : PlainText text
  bytes : a.memory.bytes = text ∨ a.memory.bytes = text ++ [0]

/-- JSON keeps the fields of a collateral of plain texts. -/
def TransportEnv.Lossless (env : TransportEnv) : Prop :=
  ∀ collateral : FetchedCollateral, (∀ f, PlainText (collateral.text f)) →
    ∃ json, env.encodeCollateral collateral = .ok json ∧
      env.codec.sgxQlQveCollateral json = .ok collateral.toSgxQlQveCollateral

/-! ## What a verifier passes on -/

/-- A quote verification library that takes `data` and nothing else. -/
def DcapQvl.takesOnly (data : CollateralData) : DcapQvl where
  getQuoteSupplementalDataSize := (0, 0)
  sizeofSupplemental := 0
  verifyQuote _ given := if given = data then (0, .ok) else (1, .ok)

/-- The verifier hands its library `data`. -/
def HandsOver (verifyPlatform : DcapQvl → DcapVerifier → Except Exn Unit) (v : DcapVerifier)
    (data : CollateralData) : Prop :=
  verifyPlatform (.takesOnly data) v = .ok ()

/-- Each field under its own name: the text, one terminator, and a size that counts it. -/
structure Delivered (version : Nat) (text : CollateralField → Bytes) (data : CollateralData) :
    Prop where
  version : data.version = version
  buffer : ∀ f, data.buffer f = ⟨text f ++ [0], (text f).length + 1⟩

/-- A text and its terminator fit the size field: a buffer of the largest size has the terminator
    already. -/
def CharArray.RoomForNul (a : CharArray) : Prop :=
  a.size.toNat = 2 ^ 32 - 1 → a.memory.bytes.getLast? = some 0

/-! ## One buffer -/

theorem CharArray.Holds.size_lt {a : CharArray} {text : Bytes} (h : a.Holds text) :
    text.length < 2 ^ 32 := by
  have hsize : a.memory.bytes.length < 2 ^ 32 := by
    rw [a.whole]
    exact a.size.toNat_lt
  obtain hbytes | hbytes := h.bytes
  · rwa [hbytes] at hsize
  · rw [hbytes, List.length_append] at hsize
    omega

theorem CharArray.Holds.toString_eq {a : CharArray} {text : Bytes} (h : a.Holds text) :
    a.toString = text := by
  have hpos := List.length_pos_of_ne_nil h.nonempty
  have hwhole := a.whole
  rw [CharArray.toString, charArray2String]
  obtain hbytes | hbytes := h.bytes
  · -- Unterminated: the last byte is one of the text.
    rw [hbytes] at hwhole
    have hlast : (a.size - 1).toNat = text.length - 1 := by
      rw [UInt32.toNat_sub_of_le _ _ (UInt32.le_iff_toNat_le.mpr (by simp; omega)), ← hwhole]
      rfl
    have hbyte : a.memory.byteAt (text.length - 1) ≠ 0 := by
      rw [Buffer.byteAt, hbytes, List.getD_eq_getElem _ _ (by omega)]
      intro hzero
      exact h.plain.1 (hzero ▸ List.getElem_mem _)
    rw [hlast, if_neg hbyte, ← hwhole, Buffer.view_eq_slice (by simp [hbytes]), hbytes, slice,
      List.drop_zero, List.take_length]
  · rw [hbytes, List.length_append, List.length_singleton] at hwhole
    have hlast : (a.size - 1).toNat = text.length := by
      rw [UInt32.toNat_sub_of_le _ _ (UInt32.le_iff_toNat_le.mpr (by simp; omega)), ← hwhole]
      rfl
    have hbyte : a.memory.byteAt text.length = 0 := by
      simp [Buffer.byteAt, hbytes]
    rw [hlast, if_pos hbyte, Buffer.view_eq_slice (by simp [hbytes]), hbytes, slice,
      List.drop_zero, List.take_left]

/-- The size of the rebuilt buffer is right unless it wraps around. -/
theorem CharArray.Holds.size_eq_iff {a : CharArray} {text : Bytes} (h : a.Holds text) :
    (text.length + 1) % 2 ^ 32 = text.length + 1 ↔ a.RoomForNul := by
  have hlt := h.size_lt
  have hwhole := a.whole
  have hsize := a.size.toNat_lt
  rw [CharArray.RoomForNul, ← hwhole]
  rw [← hwhole] at hsize
  obtain hbytes | hbytes := h.bytes
  · have hlast : text.getLast? ≠ some 0 := fun hzero => h.plain.1 (List.mem_of_getLast? hzero)
    rw [hbytes] at hsize ⊢
    constructor
    · intro hmod hfull
      rw [hfull] at hmod
      omega
    · intro hroom
      have hne : text.length ≠ 2 ^ 32 - 1 := fun hfull => hlast (hroom hfull)
      exact Nat.mod_eq_of_lt (by omega)
  · rw [hbytes, List.length_append, List.length_singleton] at hsize
    constructor
    · intro _ _
      rw [hbytes, List.getLast?_concat]
    · intro _
      exact Nat.mod_eq_of_lt hsize

/-! ## The seven buffers -/

theorem getIntelCollateral_of_success {teeQvGetCollateral : TeeQvGetCollateral} {quote : Bytes}
    {quoteSize : UInt32} {raw : QveCollateral}
    (hfetch : teeQvGetCollateral quote quoteSize = (0, some raw)) :
    ∃ collateral, getIntelCollateral teeQvGetCollateral quote quoteSize = .ok collateral ∧
      collateral.version = raw.version.toNat ∧
      ∀ f, collateral.text f = (raw.array f).toString := by
  rw [getIntelCollateral, hfetch]
  refine ⟨_, rfl, rfl, ?_⟩
  intro f
  cases f <;> rfl

theorem setCollateral_of_ne_nil (name : Bytes) {value : Bytes} (h : value ≠ []) :
    setCollateral name value = .ok ⟨value ++ [0], (value.length + 1) % 2 ^ 32⟩ := by
  rw [setCollateral, enforce_pos _ h]
  rfl

theorem initializeCollateralData_of_ne_nil {collateral : SgxQlQveCollateral}
    (h : ∀ f, collateral.text f ≠ []) :
    ∃ data, initializeCollateralData collateral = .ok data ∧
      data.version = collateral.version ∧
      ∀ f, data.buffer f =
        ⟨collateral.text f ++ [0], ((collateral.text f).length + 1) % 2 ^ 32⟩ := by
  have hpckCrlIssuerChain : collateral.pckCrlIssuerChain ≠ [] := h .pckCrlIssuerChain
  have hrootCaCrl : collateral.rootCaCrl ≠ [] := h .rootCaCrl
  have hpckCrl : collateral.pckCrl ≠ [] := h .pckCrl
  have htcbInfoIssuerChain : collateral.tcbInfoIssuerChain ≠ [] := h .tcbInfoIssuerChain
  have htcbInfo : collateral.tcbInfo ≠ [] := h .tcbInfo
  have hqeIdentityIssuerChain : collateral.qeIdentityIssuerChain ≠ [] := h .qeIdentityIssuerChain
  have hqeIdentity : collateral.qeIdentity ≠ [] := h .qeIdentity
  simp only [initializeCollateralData, setCollateral_of_ne_nil, hpckCrlIssuerChain, hrootCaCrl,
    hpckCrl, htcbInfoIssuerChain, htcbInfo, hqeIdentityIssuerChain, hqeIdentity, ne_eq,
    not_false_eq_true, ok_bind]
  refine ⟨_, rfl, rfl, ?_⟩
  intro f
  cases f <;> rfl

theorem verifyDcapPlatform_takesOnly (data : CollateralData) (quote : Bytes)
    (collateral : SgxQlQveCollateral) :
    verifyDcapPlatform (.takesOnly data) quote collateral = .ok () ↔
      initializeCollateralData collateral = .ok data := by
  rw [verifyDcapPlatform]
  cases hinit : initializeCollateralData collateral with
  | error e => simp
  | ok given =>
    by_cases hsame : given = data
    · simp [DcapQvl.takesOnly, hsame, enforce]
    · simp [DcapQvl.takesOnly, hsame, enforce]

/-- The texts of the seven buffers of `raw`. -/
def QveCollateral.Holds (raw : QveCollateral) (text : CollateralField → Bytes) : Prop :=
  ∀ f, (raw.array f).Holds (text f)

theorem transport_of_holds {env : TransportEnv} (hjson : env.Lossless) {quote : Bytes}
    {quoteSize : UInt32} {raw : QveCollateral} {text : CollateralField → Bytes}
    (hfetch : env.teeQvGetCollateral quote quoteSize = (0, some raw)) (hraw : raw.Holds text) :
    ∃ collateral, transport env quote quoteSize = .ok collateral ∧
      collateral.version = raw.version.toNat ∧ ∀ f, collateral.text f = text f := by
  obtain ⟨fetched, hget, hversion, harrays⟩ := getIntelCollateral_of_success hfetch
  have htext : ∀ f, fetched.text f = text f := by
    intro f
    rw [harrays f, (hraw f).toString_eq]
  obtain ⟨json, hencode, hdecode⟩ := hjson fetched fun f => htext f ▸ (hraw f).plain
  refine ⟨fetched.toSgxQlQveCollateral, ?_, hversion, htext⟩
  rw [transport, hget, ok_bind, pb2json, hencode, ok_bind, hdecode]

/-- What arrives is in order exactly if each size has room for the terminator. -/
theorem delivered_iff {raw : QveCollateral} {text : CollateralField → Bytes}
    (hraw : raw.Holds text) {version : Nat} {data : CollateralData}
    (hversion : data.version = version)
    (hbuffer : ∀ f, data.buffer f = ⟨text f ++ [0], ((text f).length + 1) % 2 ^ 32⟩) :
    Delivered version text data ↔ ∀ f, (raw.array f).RoomForNul := by
  constructor
  · intro hdelivered f
    apply (hraw f).size_eq_iff.mp
    have hsize := hdelivered.buffer f
    rw [hbuffer f] at hsize
    exact congrArg CollateralBuffer.size hsize
  · intro hroom
    refine ⟨hversion, fun f => ?_⟩
    rw [hbuffer f, (hraw f).size_eq_iff.mpr (hroom f)]

theorem Delivered.size_ne_zero {version : Nat} {text : CollateralField → Bytes}
    {data : CollateralData} (h : Delivered version text data) (f : CollateralField) :
    (data.buffer f).size ≠ 0 := by
  rw [h.buffer f]
  exact Nat.succ_ne_zero _

/-- Whatever the verifiers do with a quote, both hand over every field of its collateral as the
    library of the generator reported it, exactly if no buffer is an unterminated text of the
    largest size. -/
theorem collateral_transported_iff {env : TransportEnv} (hjson : env.Lossless) {quote : Bytes}
    {quoteSize : UInt32} {raw : QveCollateral} {text : CollateralField → Bytes}
    (hfetch : env.teeQvGetCollateral quote quoteSize = (0, some raw)) (hraw : raw.Holds text) :
    (∃ collateral, transport env quote quoteSize = .ok collateral ∧
      ∀ v : DcapVerifier, v.collateral = collateral →
        ∃ data, HandsOver Sgx2AttestationVerifier.verifyPlatform v data ∧
          HandsOver TdxAttestationVerifier.verifyPlatform v data ∧
          Delivered raw.version.toNat text data) ↔
      ∀ f, (raw.array f).RoomForNul := by
  obtain ⟨collateral, htransport, hversion, htext⟩ := transport_of_holds hjson hfetch hraw
  have hne : ∀ f, collateral.text f ≠ [] := fun f => htext f ▸ (hraw f).nonempty
  obtain ⟨data, hinit, hdata, hbuffer⟩ := initializeCollateralData_of_ne_nil hne
  simp only [htext] at hbuffer
  have hiff := delivered_iff hraw (hdata.trans hversion) hbuffer
  rw [← hiff]
  constructor
  · rintro ⟨collateral', htransport', hall⟩
    obtain rfl : collateral = collateral' := by
      rw [htransport] at htransport'
      exact Except.ok.inj htransport'
    obtain ⟨data', hhands, -, hdelivered⟩ := hall ⟨{}, [], collateral⟩ rfl
    -- The library that takes only `data'` was given `data`.
    have hsame : data = data' := by
      have hgiven := (verifyDcapPlatform_takesOnly data' [] collateral).mp hhands
      rw [hinit] at hgiven
      exact Except.ok.inj hgiven
    rwa [hsame]
  · intro hdelivered
    refine ⟨collateral, htransport, fun v hv => ⟨data, ?_, ?_, hdelivered⟩⟩
    · apply (verifyDcapPlatform_takesOnly data v.quote v.collateral).mpr
      rw [hv, hinit]
    · apply (verifyDcapPlatform_takesOnly data v.quote v.collateral).mpr
      rw [hv, hinit]

/-! ## Two collaterals -/

theorem CharArray.whole_ofBytes {bytes : Bytes} (h : bytes.length < 2 ^ 32) :
    bytes.length = (UInt32.ofNat bytes.length).toNat :=
  (UInt32.toNat_ofNat_of_lt' h).symm

def CharArray.ofBytes (bytes : Bytes) (h : bytes.length < 2 ^ 32) : CharArray :=
  ⟨⟨bytes, fun _ => 0⟩, UInt32.ofNat bytes.length, CharArray.whole_ofBytes h⟩

def sampleArray : CharArray := .ofBytes (str "CRL" ++ [0]) (by decide)

theorem sampleArray_holds : sampleArray.Holds (str "CRL") :=
  ⟨by decide, ⟨by decide, _, rfl⟩, .inr rfl⟩

/-- A collateral in which only the TCB info is of interest. -/
def sampleCollateral (tcbInfo : CharArray) : QveCollateral where
  version := 3
  teeType := 0
  pckCrlIssuerChain := sampleArray
  rootCaCrl := sampleArray
  pckCrl := sampleArray
  tcbInfoIssuerChain := sampleArray
  tcbInfo
  qeIdentityIssuerChain := sampleArray
  qeIdentity := sampleArray

def sampleTexts (tcbInfo : Bytes) : CollateralField → Bytes
  | .tcbInfo => tcbInfo
  | _ => str "CRL"

theorem sampleCollateral_holds {a : CharArray} {tcbInfo : Bytes} (h : a.Holds tcbInfo) :
    (sampleCollateral a).Holds (sampleTexts tcbInfo) := by
  intro f
  cases f with
  | tcbInfo => exact h
  | _ => exact sampleArray_holds

/-- A text format without escapes: each text with a NUL behind it, then the version in unary. -/
def nulSeparated (c : FetchedCollateral) : Bytes :=
  c.pckCrlIssuerChain ++ 0 :: (c.rootCaCrl ++ 0 :: (c.pckCrl ++ 0 :: (c.tcbInfoIssuerChain ++ 0 ::
    (c.tcbInfo ++ 0 :: (c.qeIdentityIssuerChain ++ 0 :: (c.qeIdentity ++ 0 ::
      List.replicate c.version 1))))))

/-- What is behind the first NUL. -/
def behindText (bs : Bytes) : Bytes := bs.drop (strlen bs + 1)

def readNulSeparated (bs : Bytes) : SgxQlQveCollateral where
  version := (behindText^[7] bs).length
  pckCrlIssuerChain := cText bs
  rootCaCrl := cText (behindText bs)
  pckCrl := cText (behindText^[2] bs)
  tcbInfoIssuerChain := cText (behindText^[3] bs)
  tcbInfo := cText (behindText^[4] bs)
  qeIdentityIssuerChain := cText (behindText^[5] bs)
  qeIdentity := cText (behindText^[6] bs)

theorem behindText_append {text : Bytes} (h : 0 ∉ text) (rest : Bytes) :
    behindText (text ++ 0 :: rest) = rest := by
  rw [behindText, strlen, cText_append_nul h, List.drop_append]
  simp

def sampleTransport (raw : QveCollateral) : TransportEnv where
  teeQvGetCollateral _ _ := (0, some raw)
  encodeCollateral collateral := .ok (nulSeparated collateral)
  codec := {
    base64Decode := .ok
    dcapReport := fun _ => .ok {}
    sgxQlQveCollateral := fun json => .ok (readNulSeparated json)
    hygonCsvReport := fun _ => .ok {}
    hygonCsvCertChain := fun _ => .ok {} }

theorem sampleTransport_lossless (raw : QveCollateral) : (sampleTransport raw).Lossless := by
  intro c hplain
  refine ⟨nulSeparated c, rfl, ?_⟩
  have hpckCrlIssuerChain := (hplain .pckCrlIssuerChain).1
  have hrootCaCrl := (hplain .rootCaCrl).1
  have hpckCrl := (hplain .pckCrl).1
  have htcbInfoIssuerChain := (hplain .tcbInfoIssuerChain).1
  have htcbInfo := (hplain .tcbInfo).1
  have hqeIdentityIssuerChain := (hplain .qeIdentityIssuerChain).1
  have hqeIdentity := (hplain .qeIdentity).1
  simp only [SgxQlQveCollateral.text] at *
  simp [sampleTransport, readNulSeparated, nulSeparated, behindText_append, cText_append_nul, *]

def shortTcbInfo : CharArray := .ofBytes (str "TCB") (by decide)

theorem shortTcbInfo_holds : shortTcbInfo.Holds (str "TCB") :=
  ⟨by decide, ⟨by decide, _, rfl⟩, .inl rfl⟩

theorem shortCollateral_transported :
    ∃ collateral, transport (sampleTransport (sampleCollateral shortTcbInfo)) [] 0 =
        .ok collateral ∧
      ∀ v : DcapVerifier, v.collateral = collateral →
        ∃ data, HandsOver Sgx2AttestationVerifier.verifyPlatform v data ∧
          HandsOver TdxAttestationVerifier.verifyPlatform v data ∧
          Delivered 3 (sampleTexts (str "TCB")) data := by
  apply (collateral_transported_iff (sampleTransport_lossless _) rfl
    (sampleCollateral_holds shortTcbInfo_holds)).mpr
  intro f hfull
  cases f with
  | tcbInfo => exact absurd hfull (by decide)
  | _ => exact absurd hfull (by decide)

/-- A text of `2 ^ 32 - 1` bytes, which no terminator follows. -/
def longText : Bytes := List.replicate (2 ^ 32 - 1) 97

theorem longText_length : longText.length = 2 ^ 32 - 1 := List.length_replicate

theorem plainText_replicate (n : Nat) : PlainText (List.replicate n 97) := by
  refine ⟨fun hzero => ?_, isUtf8_of_ascii fun c hc => ?_⟩
  · exact absurd (List.eq_of_mem_replicate hzero) (by decide)
  · rw [List.eq_of_mem_replicate hc]
    decide

def longTcbInfo : CharArray := .ofBytes longText (by rw [longText_length]; decide)

theorem longTcbInfo_holds : longTcbInfo.Holds longText := by
  refine ⟨?_, plainText_replicate _, .inl rfl⟩
  intro hnil
  have hlen := longText_length
  rw [hnil] at hlen
  exact absurd hlen (by decide)

/-- The verifiers hand this TCB info over with a size of 0. -/
theorem longTcbInfo_size_wraps :
    (sampleTransport (sampleCollateral longTcbInfo)).Lossless ∧
      (sampleCollateral longTcbInfo).Holds (sampleTexts longText) ∧
      ∃ collateral data,
        transport (sampleTransport (sampleCollateral longTcbInfo)) [] 0 = .ok collateral ∧
        HandsOver Sgx2AttestationVerifier.verifyPlatform ⟨{}, [], collateral⟩ data ∧
        HandsOver TdxAttestationVerifier.verifyPlatform ⟨{}, [], collateral⟩ data ∧
        data.tcbInfo.size = 0 ∧ ¬ Delivered 3 (sampleTexts longText) data := by
  have hjson := sampleTransport_lossless (sampleCollateral longTcbInfo)
  have hraw := sampleCollateral_holds longTcbInfo_holds
  obtain ⟨collateral, htransport, hversion, htext⟩ := transport_of_holds hjson
    (show (sampleTransport (sampleCollateral longTcbInfo)).teeQvGetCollateral [] 0 =
      (0, some (sampleCollateral longTcbInfo)) from rfl) hraw
  have hne : ∀ f, collateral.text f ≠ [] := fun f => htext f ▸ (hraw f).nonempty
  obtain ⟨data, hinit, hdata, hbuffer⟩ := initializeCollateralData_of_ne_nil hne
  have hgiven := (verifyDcapPlatform_takesOnly data [] collateral).mpr hinit
  have hsize : data.tcbInfo.size = 0 := by
    have hfield := congrArg CollateralBuffer.size (hbuffer .tcbInfo)
    rw [htext .tcbInfo, sampleTexts, longText_length] at hfield
    exact hfield
  exact ⟨hjson, hraw, collateral, data, htransport, hgiven, hgiven, hsize,
    fun hdelivered => hdelivered.size_ne_zero .tcbInfo hsize⟩

end TrustFlow.Attestation
