import TrustFlow.Crypto
import TrustFlow.Proxy.RaCert

/-! # Encrypted responses

The Capsule Manager answers with a JSON web encryption: a header, an encrypted key, and what
AES-GCM needs to open the ciphertext, all as base64 texts.  `ParseEncryptedResponse` takes the
six parts together.  The header is parsed and dropped: it enters neither the additional data of
the cipher nor a test of the algorithms it names.

* `parseEncryptedResponse_eq_ok` — what an accepted response consists of;
* `parseEncryptedResponse_header` — the header never matters once it parses;
* `responseAuthenticated_iff` — which changes of a response are noticed. -/

namespace TrustFlow.Proxy

/-! ## The messages -/

def kRsaOaep : Bytes := str "RSA-OAEP"
def kAes128Gcm : Bytes := str "A128GCM"

/-- `Jwe::JoseHeader`. -/
structure JoseHeader where
  alg : Bytes
  enc : Bytes
deriving DecidableEq

/-- `secretflowapis::v2::sdc::Jwe`. -/
structure Jwe where
  protectedHeader : Bytes
  encryptedKey : Bytes
  iv : Bytes
  ciphertext : Bytes
  tag : Bytes
  aad : Bytes
deriving DecidableEq

structure EncryptedResponse where
  status : Status
  message : Jwe
deriving DecidableEq

/-- The libraries under `ParseEncryptedResponse<T>`: `cppcodec::base64_url_unpadded`, the JSON
    parser of protobuf for the header and for `T`, `yacl::crypto::RsaDecryptor` on a PEM key and
    `yacl::crypto::Aes128GcmCrypto`. -/
structure JweLibs (T : Type) where
  decode : Bytes → Except Exn Bytes
  parseHeader : Bytes → Except Bytes JoseHeader
  parseResponse : Bytes → Except Bytes T
  rsaDecrypt : (privateKey encryptedKey : Bytes) → Except Exn Bytes
  aes128 : GcmCrypto

/-! ## The parser -/

/-- `YACL_ENFORCE(pb_status.ok(), …)` after `JsonStringToMessage`. -/
def enforceParsed {α : Type} (json : Bytes) : Except Bytes α → Except Exn α
  | .ok message => .ok message
  | .error error =>
    .error ⟨.enforceNotMet, str "Parsing json to pb message failed, json: " ++ json ++
      str ", error: " ++ error⟩

section Parser

variable {T : Type} [Inhabited T]

def parseEncryptedResponse (libs : JweLibs T) (encRes : EncryptedResponse) (privateKey : Bytes) :
    Except Exn (Status × T) := do
  if encRes.status.code ≠ kCodeOk then
    return (encRes.status, default)
  let jwe := encRes.message
  let headerJson ← libs.decode jwe.protectedHeader
  let _jweHeader ← enforceParsed headerJson (libs.parseHeader headerJson)
  let encryptedKey ← libs.decode jwe.encryptedKey
  let iv ← libs.decode jwe.iv
  let cipher ← libs.decode jwe.ciphertext
  let tag ← libs.decode jwe.tag
  let aad ← libs.decode jwe.aad
  let cek ← libs.rsaDecrypt privateKey encryptedKey
  let plain ← libs.aes128.decrypt cek iv cipher aad tag
  let response ← enforceParsed plain (libs.parseResponse plain)
  return (encRes.status, response)

end Parser

/-! ## The parts of a response -/

inductive JweField where
  | protectedHeader
  | encryptedKey
  | iv
  | ciphertext
  | tag
  | aad
deriving DecidableEq

def Jwe.field (jwe : Jwe) : JweField → Bytes
  | .protectedHeader => jwe.protectedHeader
  | .encryptedKey => jwe.encryptedKey
  | .iv => jwe.iv
  | .ciphertext => jwe.ciphertext
  | .tag => jwe.tag
  | .aad => jwe.aad

namespace JweLibs

variable {T : Type} (libs : JweLibs T)

/-- A different encrypted key decrypts to a different key, or not at all. -/
def RsaSeparates (privateKey : Bytes) : Prop :=
  ∀ encryptedKey encryptedKey' cek, libs.rsaDecrypt privateKey encryptedKey = .ok cek →
    libs.rsaDecrypt privateKey encryptedKey' = .ok cek → encryptedKey = encryptedKey'

/-- The protected header is the base64 text of a JSON header, this one. -/
def HasHeader (jwe : Jwe) (header : JoseHeader) : Prop :=
  ∃ json, libs.decode jwe.protectedHeader = .ok json ∧ libs.parseHeader json = .ok header

/-- The inputs of the cipher are these. -/
def HasSealed (privateKey : Bytes) (jwe : Jwe) (s : GcmSealed) : Prop :=
  (∃ encryptedKey, libs.decode jwe.encryptedKey = .ok encryptedKey ∧
    libs.rsaDecrypt privateKey encryptedKey = .ok s.key) ∧
  libs.decode jwe.iv = .ok s.iv ∧ libs.decode jwe.ciphertext = .ok s.ciphertext ∧
  libs.decode jwe.tag = .ok s.tag ∧ libs.decode jwe.aad = .ok s.aad

/-- The two messages differ in the decoded value of this field and of no other. -/
def DifferIn (f : JweField) (jwe jwe' : Jwe) : Prop :=
  libs.decode (jwe.field f) ≠ libs.decode (jwe'.field f) ∧
  ∀ g, g ≠ f → libs.decode (jwe.field g) = libs.decode (jwe'.field g)

end JweLibs

/-! ## What the parser accepts -/

theorem enforceParsed_eq_ok {α : Type} {json : Bytes} {parsed : Except Bytes α} {message : α} :
    enforceParsed json parsed = .ok message ↔ parsed = .ok message := by
  cases parsed with
  | ok message' => simp [enforceParsed]
  | error error => simp [enforceParsed]

section Accepts

variable {T : Type} [Inhabited T] {libs : JweLibs T} {privateKey : Bytes}

/-- An accepted response has a header, whichever, and its other five parts open the cipher. -/
theorem parseEncryptedResponse_eq_ok {r : EncryptedResponse} {status : Status} {response : T}
    (hcode : r.status.code = kCodeOk) :
    parseEncryptedResponse libs r privateKey = .ok (status, response) ↔
      status = r.status ∧ (∃ header, libs.HasHeader r.message header) ∧
      ∃ s plain, libs.HasSealed privateKey r.message s ∧
        libs.aes128.decrypt s.key s.iv s.ciphertext s.aad s.tag = .ok plain ∧
        libs.parseResponse plain = .ok response := by
  have hreturn : ∀ parsed : T, (pure (r.status, parsed) : Except Exn (Status × T)) =
      .ok (status, response) ↔ status = r.status ∧ parsed = response := by
    intro parsed
    simp [pure, Except.pure, eq_comm]
  simp only [parseEncryptedResponse, hcode, ne_eq, not_true_eq_false, if_false, bind_eq_ok,
    enforceParsed_eq_ok, JweLibs.HasHeader, JweLibs.HasSealed, hreturn]
  constructor
  · rintro ⟨json, hjson, header, hheader, encryptedKey, hkey, iv, hiv, cipher, hcipher, tag, htag,
      aad, haad, cek, hcek, plain, hplain, parsed, hparsed, hstatus, rfl⟩
    exact ⟨hstatus, ⟨header, json, hjson, hheader⟩, ⟨cek, iv, aad, cipher, tag⟩, plain,
      ⟨⟨encryptedKey, hkey, hcek⟩, hiv, hcipher, htag, haad⟩, hplain, hparsed⟩
  · rintro ⟨hstatus, ⟨header, json, hjson, hheader⟩, s, plain,
      ⟨⟨encryptedKey, hkey, hcek⟩, hiv, hcipher, htag, haad⟩, hplain, hparsed⟩
    exact ⟨json, hjson, header, hheader, encryptedKey, hkey, s.iv, hiv, s.ciphertext, hcipher,
      s.tag, htag, s.aad, haad, s.key, hcek, plain, hplain, response, hparsed, hstatus, rfl⟩

/-- With another header that parses, the same response comes out. -/
theorem parseEncryptedResponse_header {r r' : EncryptedResponse} {header : JoseHeader}
    {status : Status} {response : T} (hcode : r.status.code = kCodeOk)
    (hstatus : r'.status = r.status)
    (haccepted : parseEncryptedResponse libs r privateKey = .ok (status, response))
    (hothers : ∀ g, g ≠ JweField.protectedHeader →
      libs.decode (r.message.field g) = libs.decode (r'.message.field g))
    (hheader : libs.HasHeader r'.message header) :
    parseEncryptedResponse libs r' privateKey = .ok (status, response) := by
  have hkey := hothers .encryptedKey (by decide)
  have hiv := hothers .iv (by decide)
  have hcipher := hothers .ciphertext (by decide)
  have htag := hothers .tag (by decide)
  have haad := hothers .aad (by decide)
  simp only [Jwe.field] at hkey hiv hcipher htag haad
  rw [parseEncryptedResponse_eq_ok hcode] at haccepted
  obtain ⟨rfl, _, s, plain, hsealed, hplain, hparsed⟩ := haccepted
  rw [parseEncryptedResponse_eq_ok (hstatus ▸ hcode)]
  refine ⟨hstatus.symm, ⟨header, hheader⟩, s, plain, ?_, hplain, hparsed⟩
  simpa only [JweLibs.HasSealed, hkey, hiv, hcipher, htag, haad] using hsealed

omit [Inhabited T] in
/-- The inputs of the cipher determine the decoded value of every field but the header. -/
theorem JweLibs.HasSealed.decode_eq {jwe jwe' : Jwe} {s : GcmSealed}
    (hrsa : libs.RsaSeparates privateKey) (h : libs.HasSealed privateKey jwe s)
    (h' : libs.HasSealed privateKey jwe' s) {f : JweField} (hf : f ≠ .protectedHeader) :
    libs.decode (jwe.field f) = libs.decode (jwe'.field f) := by
  obtain ⟨⟨encryptedKey, hkey, hcek⟩, hiv, hcipher, htag, haad⟩ := h
  obtain ⟨⟨encryptedKey', hkey', hcek'⟩, hiv', hcipher', htag', haad'⟩ := h'
  cases f with
  | protectedHeader => exact absurd rfl hf
  | encryptedKey =>
    have hsame := hrsa encryptedKey encryptedKey' s.key hcek hcek'
    exact hkey.trans (hsame ▸ hkey'.symm)
  | iv => exact hiv.trans hiv'.symm
  | ciphertext => exact hcipher.trans hcipher'.symm
  | tag => exact htag.trans htag'.symm
  | aad => exact haad.trans haad'.symm

/-! ## Changed responses -/

variable (libs privateKey) in
def Rejects (r : EncryptedResponse) : Prop :=
  ∀ status response, parseEncryptedResponse libs r privateKey ≠ .ok (status, response)

/-- A change of any part that reaches the cipher is noticed. -/
theorem rejects_of_differIn {message : GcmSealed} {r r' : EncryptedResponse} {f : JweField}
    {status : Status} {response : T} (hgcm : libs.aes128.OpensOnly message)
    (hrsa : libs.RsaSeparates privateKey) (hcode : r.status.code = kCodeOk)
    (hstatus : r'.status = r.status)
    (haccepted : parseEncryptedResponse libs r privateKey = .ok (status, response))
    (hdiffer : libs.DifferIn f r.message r'.message) (hf : f ≠ .protectedHeader) :
    Rejects libs privateKey r' := by
  intro status' response' haccepted'
  rw [parseEncryptedResponse_eq_ok hcode] at haccepted
  rw [parseEncryptedResponse_eq_ok (hstatus ▸ hcode)] at haccepted'
  obtain ⟨_, _, s, plain, hsealed, hplain, _⟩ := haccepted
  obtain ⟨_, _, s', plain', hsealed', hplain', _⟩ := haccepted'
  -- the ideal cipher opens one message only, so both runs gave it the same inputs
  have hsame : s' = s := (hgcm s' ⟨plain', hplain'⟩).trans (hgcm s ⟨plain, hplain⟩).symm
  exact hdiffer.1 (hsealed.decode_eq hrsa (hsame ▸ hsealed') hf)

variable (libs) in
/-- The header names the two algorithms that the code runs. -/
def NamesAlgorithms (jwe : Jwe) : Prop :=
  ∃ header, libs.HasHeader jwe header ∧ header.alg = kRsaOaep ∧ header.enc = kAes128Gcm

variable (libs privateKey) in
/-- The changed response is refused, and the accepted one names its algorithms. -/
def Authenticated (r r' : EncryptedResponse) : Prop :=
  Rejects libs privateKey r' ∧ NamesAlgorithms libs r.message

/-- A change of the header is noticed only if the new header is not one, and no accepted
    response has to name the algorithms. -/
theorem responseAuthenticated_iff {message : GcmSealed} {r r' : EncryptedResponse} {f : JweField}
    {status : Status} {response : T} (hgcm : libs.aes128.OpensOnly message)
    (hrsa : libs.RsaSeparates privateKey) (hcode : r.status.code = kCodeOk)
    (hstatus : r'.status = r.status)
    (haccepted : parseEncryptedResponse libs r privateKey = .ok (status, response))
    (hdiffer : libs.DifferIn f r.message r'.message) :
    Authenticated libs privateKey r r' ↔
      (f = .protectedHeader → ∀ header, ¬ libs.HasHeader r'.message header) ∧
      NamesAlgorithms libs r.message := by
  refine and_congr_left fun _ => ⟨?_, ?_⟩
  · rintro hrejects rfl header hheader
    exact hrejects status response
      (parseEncryptedResponse_header hcode hstatus haccepted hdiffer.2 hheader)
  · intro hnone
    by_cases hf : f = .protectedHeader
    · intro status' response' haccepted'
      rw [parseEncryptedResponse_eq_ok (hstatus ▸ hcode)] at haccepted'
      obtain ⟨_, ⟨header, hheader⟩, _⟩ := haccepted'
      exact hnone hf header hheader
    · exact rejects_of_differIn hgcm hrsa hcode hstatus haccepted hdiffer hf

end Accepts

/-! ## An instance -/

def onePadTag : Bytes := List.replicate 16 116

/-- A cipher that opens one message: key `k`, IV `n`, its only tag, no additional data. -/
def onePadGcm : GcmCrypto where
  encrypt _ _ plaintext _ := (plaintext, onePadTag)
  decrypt key iv ciphertext aad mac :=
    if key = str "k" ∧ iv = str "n" ∧ aad = [] ∧ ciphertext = str "data" ∧ mac = onePadTag then
      .ok ciphertext
    else .error ⟨.runtimeError, []⟩
  ciphertext_length _ _ _ _ := rfl
  mac_length _ _ _ _ := List.length_replicate

def headerText : Bytes := str "\x7b\"alg\":\"RSA-OAEP\",\"enc\":\"A128GCM\"\x7d"

/-- Texts stand for their decoded values, and the JSON of a header is the usual one, that of the
    header with no field, or none. -/
def plainJweLibs : JweLibs Bytes where
  decode text := .ok text
  parseHeader json :=
    if json = headerText then .ok ⟨kRsaOaep, kAes128Gcm⟩
    else if json = str "\x7b\x7d" then .ok ⟨[], []⟩
    else .error (str "invalid JSON")
  parseResponse json := .ok json
  rsaDecrypt _ encryptedKey := .ok encryptedKey
  aes128 := onePadGcm

def sealedResponse : EncryptedResponse where
  status := ⟨0, []⟩
  message :=
    { protectedHeader := headerText, encryptedKey := str "k", iv := str "n",
      ciphertext := str "data", tag := onePadTag, aad := [] }

def withHeader (text : Bytes) : EncryptedResponse :=
  { sealedResponse with message := { sealedResponse.message with protectedHeader := text } }

def withTag (text : Bytes) : EncryptedResponse :=
  { sealedResponse with message := { sealedResponse.message with tag := text } }

theorem onePadGcm_opensOnly :
    onePadGcm.OpensOnly ⟨str "k", str "n", [], str "data", onePadTag⟩ := by
  rintro ⟨key, iv, aad, ciphertext, tag⟩ ⟨plain, hplain⟩
  simp only [onePadGcm] at hplain
  split at hplain
  next hmessage =>
    obtain ⟨rfl, rfl, rfl, rfl, rfl⟩ := hmessage
    rfl
  next => cases hplain

theorem plainJweLibs_rsaSeparates : plainJweLibs.RsaSeparates [] := by
  intro encryptedKey encryptedKey' cek h h'
  exact (Except.ok.inj h).trans (Except.ok.inj h').symm

theorem responseAuthenticated_tag :
    Authenticated plainJweLibs [] sealedResponse (withTag (str "u")) := by
  have haccepted : parseEncryptedResponse plainJweLibs sealedResponse [] =
      .ok (⟨0, []⟩, str "data") := by decide
  have hdiffer : plainJweLibs.DifferIn .tag sealedResponse.message
      (withTag (str "u")).message := by
    refine ⟨by decide, fun g hg => ?_⟩
    cases g with
    | tag => exact absurd rfl hg
    | _ => rfl
  have hstatus : (withTag (str "u")).status = sealedResponse.status := rfl
  have hnames : NamesAlgorithms plainJweLibs sealedResponse.message :=
    ⟨⟨kRsaOaep, kAes128Gcm⟩, ⟨headerText, rfl, by decide⟩, rfl, rfl⟩
  exact (responseAuthenticated_iff onePadGcm_opensOnly plainJweLibs_rsaSeparates rfl hstatus
    haccepted hdiffer).mpr ⟨fun htag => absurd htag (by decide), hnames⟩

/-- The header was replaced by an empty one: accepted, with no algorithm named. -/
theorem response_header_unauthenticated :
    parseEncryptedResponse plainJweLibs sealedResponse [] = .ok (⟨0, []⟩, str "data") ∧
    plainJweLibs.decode sealedResponse.message.protectedHeader ≠
      plainJweLibs.decode (withHeader (str "\x7b\x7d")).message.protectedHeader ∧
    parseEncryptedResponse plainJweLibs (withHeader (str "\x7b\x7d")) [] =
      .ok (⟨0, []⟩, str "data") ∧
    plainJweLibs.parseHeader (withHeader (str "\x7b\x7d")).message.protectedHeader =
      .ok ⟨[], []⟩ := by
  decide

end TrustFlow.Proxy
