import TrustFlow.Data.Base64Decode
import TrustFlow.Proxy.EncryptedResponse

/-! # Encrypted requests

`GenEncryptedRequest` signs a request and seals it for the certificate of the Capsule
Manager: a JSON web signature inside of a JSON web encryption, of which
`ParseEncryptedResponse` opens the outer layer.

* `opens_of_sealedFor` — the holder of the private key reads what was sealed;
* `signedRequests_eq_sent` — a receiver that checks the signature takes the requests
  that were sent with a certificate, and nothing else, for requests of its owner. -/

namespace TrustFlow.Proxy

/-! ## The messages -/

def kRs256 : Bytes := str "RS256"
def kJwsConcatDelimiter : Bytes := str "."
def kContentKeyBytes : Nat := 16
def kJweIvBytes : Nat := 12

/-- `Jws::JoseHeader`. -/
structure JwsHeader where
  alg : Bytes
  x5c : List Bytes
deriving DecidableEq

/-- `secretflowapis::v2::sdc::Jws`. -/
structure Jws where
  protectedHeader : Bytes
  payload : Bytes
  signature : Bytes
deriving DecidableEq, Inhabited

structure EncryptedRequest where
  hasSignature : Bool
  message : Jwe
deriving DecidableEq

/-- The libraries under `GenEncryptedRequest`: the JSON printer of protobuf, `RsaEncryptor` on the
    public key of a certificate, `X509CertPemToDer`, `RsaSigner` on a PEM key and
    `Aes128GcmCrypto`. -/
structure SealLibs where
  printJweHeader : JoseHeader → Except Bytes Bytes
  printJwsHeader : JwsHeader → Except Bytes Bytes
  printJws : Jws → Except Bytes Bytes
  rsaEncrypt : (cert cek : Bytes) → Except Exn Bytes
  x509CertPemToDer : Bytes → Except Exn Bytes
  rsaSign : (privateKey message : Bytes) → Except Exn Bytes
  aes128 : GcmCrypto

/-! ## The generator -/

/-- `YACL_ENFORCE(pb_status.ok(), …)` after `MessageToJsonString`. -/
def enforcePrinted : Except Bytes Bytes → Except Exn Bytes
  | .ok json => .ok json
  | .error error =>
    .error ⟨.enforceNotMet, str "Parsing pb message to json failed, error: " ++ error⟩

def Jws.signInput (jws : Jws) : Bytes := jws.protectedHeader ++ kJwsConcatDelimiter ++ jws.payload

def genJws (libs : SealLibs) (requestStr privateKey cert : Bytes) : Except Exn Jws := do
  let certDer ← libs.x509CertPemToDer cert
  let jwsHeaderStr ← enforcePrinted (libs.printJwsHeader ⟨kRs256, [base64Encode certDer]⟩)
  let unsigned : Jws := {
    protectedHeader := base64UrlUnpaddedEncode jwsHeaderStr
    payload := base64UrlUnpaddedEncode requestStr
    signature := [] }
  let sig ← libs.rsaSign privateKey unsigned.signInput
  return { unsigned with signature := base64UrlUnpaddedEncode sig }

/-- The content key and the IV are random; `print` is the JSON printer for requests. -/
def genEncryptedRequest {T : Type} (libs : SealLibs) (print : T → Except Bytes Bytes)
    (cek : Blob kContentKeyBytes) (iv : Blob kJweIvBytes) (request : T)
    (privateKey cert peerCert : Bytes) (hasSignature : Bool) : Except Exn EncryptedRequest := do
  let requestStr ← enforcePrinted (print request)
  let jweHeaderStr ← enforcePrinted (libs.printJweHeader ⟨kRsaOaep, kAes128Gcm⟩)
  let encryptedKey ← libs.rsaEncrypt peerCert cek.bytes
  let aadB64 := base64UrlUnpaddedEncode []
  let plain ← (if hasSignature then do
      let jws ← genJws libs requestStr privateKey cert
      enforcePrinted (libs.printJws jws)
    else
      pure requestStr)
  -- The cipher is given the text of the additional data, not the data.
  let sealed := libs.aes128.encrypt cek.bytes iv.bytes plain aadB64
  return {
    hasSignature
    message := {
      protectedHeader := base64UrlUnpaddedEncode jweHeaderStr
      encryptedKey := base64UrlUnpaddedEncode encryptedKey
      iv := base64UrlUnpaddedEncode iv.bytes
      ciphertext := base64UrlUnpaddedEncode sealed.1
      tag := base64UrlUnpaddedEncode sealed.2
      aad := aadB64 } }

/-! ## What was generated -/

theorem enforcePrinted_eq_ok {printed : Except Bytes Bytes} {json : Bytes} :
    enforcePrinted printed = .ok json ↔ printed = .ok json := by
  cases printed with
  | ok json' => simp [enforcePrinted]
  | error error => simp [enforcePrinted]

/-- The message is this text, sealed under a key that is encrypted to the certificate. -/
def SealedFor (libs : SealLibs) (peerCert : Bytes) (message : Jwe) (plain : Bytes) : Prop :=
  ∃ headerStr encryptedKey cek iv,
    libs.printJweHeader ⟨kRsaOaep, kAes128Gcm⟩ = .ok headerStr ∧
    libs.rsaEncrypt peerCert cek = .ok encryptedKey ∧
    message = {
      protectedHeader := base64UrlUnpaddedEncode headerStr
      encryptedKey := base64UrlUnpaddedEncode encryptedKey
      iv := base64UrlUnpaddedEncode iv
      ciphertext := base64UrlUnpaddedEncode (libs.aes128.encrypt cek iv plain []).1
      tag := base64UrlUnpaddedEncode (libs.aes128.encrypt cek iv plain []).2
      aad := [] }

section Generated

variable {T : Type} {libs : SealLibs} {print : T → Except Bytes Bytes}
  {cek : Blob kContentKeyBytes} {iv : Blob kJweIvBytes} {request : T}
  {privateKey cert peerCert : Bytes}

theorem genJws_eq_ok {requestStr : Bytes} {jws : Jws} :
    genJws libs requestStr privateKey cert = .ok jws ↔
      ∃ certDer headerStr sig, libs.x509CertPemToDer cert = .ok certDer ∧
        libs.printJwsHeader ⟨kRs256, [base64Encode certDer]⟩ = .ok headerStr ∧
        libs.rsaSign privateKey jws.signInput = .ok sig ∧
        jws = ⟨base64UrlUnpaddedEncode headerStr, base64UrlUnpaddedEncode requestStr,
          base64UrlUnpaddedEncode sig⟩ := by
  simp only [genJws, bind_eq_ok, enforcePrinted_eq_ok]
  constructor
  · rintro ⟨certDer, hder, headerStr, hheader, sig, hsig, hjws⟩
    cases hjws
    exact ⟨certDer, headerStr, sig, hder, hheader, hsig, rfl⟩
  · rintro ⟨certDer, headerStr, sig, hder, hheader, hsig, rfl⟩
    exact ⟨certDer, hder, headerStr, hheader, sig, hsig, rfl⟩

theorem genEncryptedRequest_unsigned {encReq : EncryptedRequest}
    (h : genEncryptedRequest libs print cek iv request privateKey cert peerCert false =
      .ok encReq) :
    ∃ requestStr, print request = .ok requestStr ∧
      SealedFor libs peerCert encReq.message requestStr := by
  simp only [genEncryptedRequest, bind_eq_ok, enforcePrinted_eq_ok] at h
  obtain ⟨requestStr, hprint, headerStr, hheader, encryptedKey, hkey, plain, hplain, h⟩ := h
  cases hplain
  cases h
  exact ⟨requestStr, hprint, headerStr, encryptedKey, _, _, hheader, hkey, rfl⟩

theorem genEncryptedRequest_signed {encReq : EncryptedRequest}
    (h : genEncryptedRequest libs print cek iv request privateKey cert peerCert true =
      .ok encReq) :
    ∃ requestStr jws plain, print request = .ok requestStr ∧
      genJws libs requestStr privateKey cert = .ok jws ∧ libs.printJws jws = .ok plain ∧
      SealedFor libs peerCert encReq.message plain := by
  simp only [genEncryptedRequest, bind_eq_ok, enforcePrinted_eq_ok, if_true] at h
  obtain ⟨requestStr, hprint, headerStr, hheader, encryptedKey, hkey, plain, ⟨jws, hjws, hplain⟩,
    h⟩ := h
  cases h
  exact ⟨requestStr, jws, plain, hprint, hjws, hplain, headerStr, encryptedKey, _, _, hheader,
    hkey, rfl⟩

end Generated

/-! ## The outer layer -/

/-- The two ends of the outer layer: one base64, printers and parsers that agree, and a private
    key that belongs to the certificate. -/
structure Paired {T : Type} (libs : SealLibs) (print : T → Except Bytes Bytes)
    (reader : JweLibs T) (peerCert privateKey : Bytes) : Prop where
  decode : ∀ text bs, reader.decode text = .ok bs ↔ base64UrlUnpaddedDecode text = some bs
  header : ∀ header json, libs.printJweHeader header = .ok json →
    reader.parseHeader json = .ok header
  parse : ∀ message json, print message = .ok json → reader.parseResponse json = .ok message
  rsa : ∀ cek encryptedKey, libs.rsaEncrypt peerCert cek = .ok encryptedKey →
    reader.rsaDecrypt privateKey encryptedKey = .ok cek
  aes128 : reader.aes128 = libs.aes128
  inverts : libs.aes128.Inverts

section Opens

variable {T : Type} [Inhabited T] {libs : SealLibs} {print : T → Except Bytes Bytes}
  {reader : JweLibs T} {peerCert privateKey : Bytes}

omit [Inhabited T] in
theorem Paired.decode_encode (hpaired : Paired libs print reader peerCert privateKey)
    (bs : Bytes) : reader.decode (base64UrlUnpaddedEncode bs) = .ok bs :=
  (hpaired.decode _ _).mpr (base64UrlUnpaddedDecode_encode bs)

/-- A message that was sealed for a certificate opens with its private key. -/
theorem opens_of_sealedFor (hpaired : Paired libs print reader peerCert privateKey)
    {status : Status} (hcode : status.code = kCodeOk) {jwe : Jwe} {message : T} {plain : Bytes}
    (hprint : print message = .ok plain) (hsealed : SealedFor libs peerCert jwe plain) :
    parseEncryptedResponse reader ⟨status, jwe⟩ privateKey = .ok (status, message) := by
  obtain ⟨headerStr, encryptedKey, cek, iv, hheader, hkey, rfl⟩ := hsealed
  have hdecode := hpaired.decode_encode
  rw [parseEncryptedResponse_eq_ok hcode]
  refine ⟨rfl, ⟨_, headerStr, hdecode _, hpaired.header _ _ hheader⟩,
    ⟨cek, iv, [], (libs.aes128.encrypt cek iv plain []).1,
      (libs.aes128.encrypt cek iv plain []).2⟩, plain, ?_, ?_, hpaired.parse _ _ hprint⟩
  · exact ⟨⟨encryptedKey, hdecode _, hpaired.rsa _ _ hkey⟩, hdecode _, hdecode _, hdecode _,
      hdecode []⟩
  · rw [hpaired.aes128]
    exact hpaired.inverts cek iv plain []

end Opens

/-! ## The inner layer -/

/-- A receiver of signed requests: what it opens the outer layer with, its parsers, and the
    verification of a signature with the key of a certificate. -/
structure Receiver (T : Type) where
  jwe : JweLibs Jws
  parseJwsHeader : Bytes → Except Bytes JwsHeader
  parseRequest : Bytes → Except Bytes T
  rsaVerify : (certDer message signature : Bytes) → Bool
  privateKey : Bytes

section Receivers

variable {T : Type}

/-- The receiver finds this signature inside of the request. -/
def Receiver.Opens (receiver : Receiver T) (encReq : EncryptedRequest) (jws : Jws) : Prop :=
  parseEncryptedResponse receiver.jwe ⟨⟨kCodeOk, []⟩, encReq.message⟩ receiver.privateKey =
    .ok (⟨kCodeOk, []⟩, jws)

/-- The signature is one for this request, with the key of the certificate that it names. -/
structure Receiver.Signed (receiver : Receiver T) (jws : Jws) (certDer : Bytes) (request : T) :
    Prop where
  header : ∃ json, receiver.jwe.decode jws.protectedHeader = .ok json ∧
    receiver.parseJwsHeader json = .ok ⟨kRs256, [base64Encode certDer]⟩
  payload : ∃ json, receiver.jwe.decode jws.payload = .ok json ∧
    receiver.parseRequest json = .ok request
  signature : ∃ sig, receiver.jwe.decode jws.signature = .ok sig ∧
    receiver.rsaVerify certDer jws.signInput sig = true

/-- The receiver reads what the libraries write, and has the private key of `peerCert`. -/
structure Receiver.Reads (receiver : Receiver T) (libs : SealLibs)
    (print : T → Except Bytes Bytes) (peerCert : Bytes) : Prop where
  jwe : Paired libs libs.printJws receiver.jwe peerCert receiver.privateKey
  header : ∀ header json, libs.printJwsHeader header = .ok json →
    receiver.parseJwsHeader json = .ok header
  request : ∀ request json, print request = .ok json → receiver.parseRequest json = .ok request

/-- A request, and the encrypted request that was generated for it. -/
def Sent (libs : SealLibs) (print : T → Except Bytes Bytes) (privateKey cert peerCert : Bytes)
    (sent : T × EncryptedRequest) : Prop :=
  ∃ cek iv, genEncryptedRequest libs print cek iv sent.1 privateKey cert peerCert true =
    .ok sent.2

variable {libs : SealLibs} {print : T → Except Bytes Bytes} {receiver : Receiver T}
  {privateKey cert certDer peerCert : Bytes}

/-- What a receiver finds in a request that was sent. -/
theorem Sent.opens (hreads : receiver.Reads libs print peerCert) {sent : T × EncryptedRequest}
    (h : Sent libs print privateKey cert peerCert sent) :
    ∃ requestStr jws, print sent.1 = .ok requestStr ∧
      genJws libs requestStr privateKey cert = .ok jws ∧ receiver.Opens sent.2 jws := by
  obtain ⟨cek, iv, hgen⟩ := h
  obtain ⟨requestStr, jws, plain, hprint, hjws, hplain, hsealed⟩ := genEncryptedRequest_signed hgen
  exact ⟨requestStr, jws, hprint, hjws, opens_of_sealedFor hreads.jwe rfl hplain hsealed⟩

theorem Receiver.Opens.unique {encReq : EncryptedRequest} {jws jws' : Jws}
    (h : receiver.Opens encReq jws) (h' : receiver.Opens encReq jws') : jws = jws' := by
  have heq := Except.ok.inj (h.symm.trans h')
  exact (Prod.mk.inj heq).2

/-- The texts of a generated signature have no dots, so what it signs is signed by no signature
    with other parts. -/
theorem genJws_signInput {requestStr : Bytes} {jws jws' : Jws}
    (h : genJws libs requestStr privateKey cert = .ok jws) (heq : jws'.signInput = jws.signInput) :
    jws'.protectedHeader = jws.protectedHeader ∧ jws'.payload = jws.payload := by
  obtain ⟨certDer, headerStr, sig, _, _, _, rfl⟩ := genJws_eq_ok.mp h
  have hdot : ∀ bs, 46 ∉ base64UrlUnpaddedEncode bs :=
    not_mem_base64UrlUnpaddedEncode (by decide)
  have hstr : kJwsConcatDelimiter = [46] := by decide
  simp only [Jws.signInput, hstr, List.append_assoc, List.singleton_append] at heq
  have hparts := (List.append_cons_inj_of_notMem (hdot headerStr) (hdot requestStr)).mp heq.symm
  exact ⟨hparts.1.symm, hparts.2.2.symm⟩

/-- A generated signature is one for its request. -/
theorem signed_of_genJws (hreads : receiver.Reads libs print peerCert)
    (hder : libs.x509CertPemToDer cert = .ok certDer)
    (hverifies : ∀ message sig, libs.rsaSign privateKey message = .ok sig →
      receiver.rsaVerify certDer message sig = true)
    {request : T} {requestStr : Bytes} {jws : Jws} (hprint : print request = .ok requestStr)
    (h : genJws libs requestStr privateKey cert = .ok jws) :
    receiver.Signed jws certDer request := by
  obtain ⟨certDer', headerStr, sig, hder', hheader, hsig, heq⟩ := genJws_eq_ok.mp h
  obtain rfl : certDer = certDer' := Except.ok.inj (hder.symm.trans hder')
  have hdecode := hreads.jwe.decode_encode
  refine ⟨⟨headerStr, ?_, hreads.header _ _ hheader⟩, ⟨requestStr, ?_, hreads.request _ _ hprint⟩,
    ⟨sig, ?_, hverifies _ _ hsig⟩⟩
  · rw [heq, hdecode]
  · rw [heq, hdecode]
  · rw [heq, hdecode]

/-- Another signature of the same text is one for the same request. -/
theorem request_of_signInput (hreads : receiver.Reads libs print peerCert)
    {request request' : T} {requestStr : Bytes} {jws jws' : Jws}
    (hprint : print request = .ok requestStr)
    (h : genJws libs requestStr privateKey cert = .ok jws)
    (hsigned : receiver.Signed jws' certDer request') (heq : jws'.signInput = jws.signInput) :
    request' = request := by
  obtain ⟨json, hdecode, hparse⟩ := hsigned.payload
  obtain ⟨_, _, _, _, _, _, hjws⟩ := genJws_eq_ok.mp h
  rw [(genJws_signInput h heq).2, hjws, hreads.jwe.decode_encode] at hdecode
  cases hdecode
  exact Except.ok.inj (hparse.symm.trans (hreads.request _ _ hprint))

end Receivers

/-! ## An instance -/

section Instance

variable {T : Type} [DecidableEq T]

/-- A printer for the messages of a table. -/
def tablePrint (table : List (T × Bytes)) (message : T) : Except Bytes Bytes :=
  match table.find? (·.1 = message) with
  | some (_, json) => .ok json
  | none => .error (str "another message")

def tableParse {T : Type} (table : List (T × Bytes)) (json : Bytes) : Except Bytes T :=
  match table.find? (·.2 = json) with
  | some (message, _) => .ok message
  | none => .error (str "another text")

theorem tableParse_of_tablePrint {table : List (T × Bytes)} (h : table.Pairwise (·.2 ≠ ·.2))
    (message : T) (json : Bytes) (hprint : tablePrint table message = .ok json) :
    tableParse table json = .ok message := by
  rw [tablePrint] at hprint
  split at hprint
  next entry found hfind =>
    obtain rfl := Except.ok.inj hprint
    have hmessage : entry = message := by simpa using List.find?_some hfind
    have hparse : table.find? (·.2 = found) = some (entry, found) :=
      find?_of_pairwise h (List.mem_of_find?_eq_some hfind) (by simp) (by simp)
    rw [tableParse, hparse, hmessage]
  next => cases hprint

def jweHeaderText : Bytes := str "\x7b\"alg\":\"RSA-OAEP\",\"enc\":\"A128GCM\"\x7d"

def jwsHeaderText : Bytes := str "\x7b\"alg\":\"RS256\",\"x5c\":[\"ZGVy\"]\x7d"

/-- Every text can be signed. -/
def sampleSign (message : Bytes) : Bytes := str "signature of " ++ message

/-- The signed form of a request with the given text. -/
def jwsFor (requestStr : Bytes) : Jws :=
  let unsigned : Jws := {
    protectedHeader := base64UrlUnpaddedEncode jwsHeaderText
    payload := base64UrlUnpaddedEncode requestStr
    signature := [] }
  { unsigned with signature := base64UrlUnpaddedEncode (sampleSign unsigned.signInput) }

def jwsText (jws : Jws) : Bytes :=
  str "\x7b\"protected\":\"" ++ jws.protectedHeader ++ str "\",\"payload\":\"" ++ jws.payload ++
    str "\",\"signature\":\"" ++ jws.signature ++ str "\"\x7d"

def jwsTable (texts : List Bytes) : List (Jws × Bytes) :=
  texts.map fun text => (jwsFor text, jwsText (jwsFor text))

/-- Libraries for requests with the given texts.  Keys are encrypted to themselves. -/
def tableLibs (texts : List Bytes) : SealLibs where
  printJweHeader := tablePrint [(⟨kRsaOaep, kAes128Gcm⟩, jweHeaderText)]
  printJwsHeader := tablePrint [(⟨kRs256, [base64Encode (str "der")]⟩, jwsHeaderText)]
  printJws := tablePrint (jwsTable texts)
  rsaEncrypt _ cek := .ok cek
  x509CertPemToDer _ := .ok (str "der")
  rsaSign _ message := .ok (sampleSign message)
  aes128 := { onePadGcm with
    decrypt := fun _ _ ciphertext _ mac =>
      if mac = onePadTag then .ok ciphertext else yaclThrow (str "tag mismatch") }

def decodeExn (text : Bytes) : Except Exn Bytes :=
  match base64UrlUnpaddedDecode text with
  | some bs => .ok bs
  | none => .error ⟨.stdException, str "parse error"⟩

def tableReader {T : Type} (table : List (T × Bytes)) : JweLibs T where
  decode := decodeExn
  parseHeader := tableParse [(⟨kRsaOaep, kAes128Gcm⟩, jweHeaderText)]
  parseResponse := tableParse table
  rsaDecrypt _ encryptedKey := .ok encryptedKey
  aes128 := (tableLibs []).aes128

def tableReceiver {T : Type} (table : List (T × Bytes)) : Receiver T where
  jwe := tableReader (jwsTable (table.map Prod.snd))
  parseJwsHeader := tableParse [(⟨kRs256, [base64Encode (str "der")]⟩, jwsHeaderText)]
  parseRequest := tableParse table
  rsaVerify _ message sig := decide (sig = sampleSign message)
  privateKey := str "manager key"

def sampleCek : Blob kContentKeyBytes := ⟨List.replicate 16 1, List.length_replicate⟩

def sampleJweIv : Blob kJweIvBytes := ⟨List.replicate 12 2, List.length_replicate⟩

theorem decodeExn_iff (text bs : Bytes) :
    decodeExn text = .ok bs ↔ base64UrlUnpaddedDecode text = some bs := by
  rw [decodeExn]
  cases base64UrlUnpaddedDecode text with
  | none => simp
  | some bs' => simp

theorem tableReader_paired (texts : List Bytes) {table : List (T × Bytes)}
    (htable : table.Pairwise (·.2 ≠ ·.2)) (peerCert privateKey : Bytes) :
    Paired (tableLibs texts) (tablePrint table) (tableReader table) peerCert privateKey where
  decode := decodeExn_iff
  header := tableParse_of_tablePrint (List.pairwise_singleton _ _)
  parse := tableParse_of_tablePrint htable
  rsa cek encryptedKey h := by
    cases h
    rfl
  aes128 := rfl
  inverts _ _ plaintext _ := by simp [tableLibs, onePadGcm]

theorem jwsText_inj {text text' : Bytes} (h : jwsText (jwsFor text) = jwsText (jwsFor text')) :
    text = text' := by
  -- The payload goes as far as the next quote.
  have hpayload : ∀ bs rest, (base64UrlUnpaddedEncode bs ++ 34 :: rest).takeWhile (· ≠ 34) =
      base64UrlUnpaddedEncode bs := by
    intro bs rest
    rw [List.takeWhile_append_of_pos]
    · simp
    · intro c hc
      simp only [decide_eq_true_eq]
      rintro rfl
      exact not_mem_base64UrlUnpaddedEncode (by decide) bs hc
  have hnext : str "\",\"signature\":\"" = 34 :: str ",\"signature\":\"" := by decide
  simp only [jwsText, jwsFor, List.append_assoc, List.append_cancel_left_eq, hnext,
    List.cons_append] at h
  have htake := congrArg (List.takeWhile (· ≠ 34)) h
  rw [hpayload, hpayload] at htake
  have hdecode := base64UrlUnpaddedDecode_encode text
  rw [htake, base64UrlUnpaddedDecode_encode] at hdecode
  exact (Option.some.inj hdecode).symm

/-- Different requests have different signed forms. -/
theorem jwsTable_pairwise {texts : List Bytes} (h : texts.Nodup) :
    (jwsTable texts).Pairwise (·.2 ≠ ·.2) :=
  List.pairwise_map.mpr (h.imp fun hne heq => hne (jwsText_inj heq))

theorem tablePrint_jwsTable {texts : List Bytes} {text : Bytes} (h : text ∈ texts) :
    tablePrint (jwsTable texts) (jwsFor text) = .ok (jwsText (jwsFor text)) := by
  have hmem : (jwsFor text, jwsText (jwsFor text)) ∈ jwsTable texts := List.mem_map_of_mem h
  rw [tablePrint]
  split
  next entry json hfind =>
    obtain ⟨text', _, heq⟩ := List.mem_map.mp (List.mem_of_find?_eq_some hfind)
    have hentry : entry = jwsFor text := by simpa using List.find?_some hfind
    cases heq
    rw [hentry]
  next hnone => simpa using List.find?_eq_none.mp hnone _ hmem

theorem tableReceiver_reads {table : List (T × Bytes)} (htable : table.Pairwise (·.2 ≠ ·.2))
    (peerCert : Bytes) :
    (tableReceiver table).Reads (tableLibs (table.map Prod.snd)) (tablePrint table) peerCert where
  jwe := tableReader_paired _ (jwsTable_pairwise (List.pairwise_map.mpr htable)) peerCert _
  header := tableParse_of_tablePrint (List.pairwise_singleton _ _)
  request := tableParse_of_tablePrint htable

theorem tableReceiver_verifies {T : Type} {texts : List Bytes} (table : List (T × Bytes))
    (privateKey certDer message sig : Bytes)
    (h : (tableLibs texts).rsaSign privateKey message = .ok sig) :
    (tableReceiver table).rsaVerify certDer message sig = true := by
  cases h
  exact decide_eq_true rfl

theorem table_genJws (texts : List Bytes) (requestStr privateKey cert : Bytes) :
    genJws (tableLibs texts) requestStr privateKey cert = .ok (jwsFor requestStr) := by
  refine genJws_eq_ok.mpr ⟨str "der", jwsHeaderText, _, rfl, ?_, rfl, rfl⟩
  simp [tableLibs, tablePrint]

omit [DecidableEq T] in
theorem table_genEncryptedRequest {texts : List Bytes} {print : T → Except Bytes Bytes}
    {request : T} {requestStr jws : Bytes} (hprint : print request = .ok requestStr)
    (hjws : tablePrint (jwsTable texts) (jwsFor requestStr) = .ok jws)
    (cek : Blob kContentKeyBytes) (iv : Blob kJweIvBytes) (privateKey cert peerCert : Bytes)
    (hasSignature : Bool) :
    ∃ encReq, genEncryptedRequest (tableLibs texts) print cek iv request privateKey cert peerCert
      hasSignature = .ok encReq := by
  have hheader : (tableLibs texts).printJweHeader ⟨kRsaOaep, kAes128Gcm⟩ = .ok jweHeaderText := by
    simp [tableLibs, tablePrint]
  have hjws : (tableLibs texts).printJws (jwsFor requestStr) = .ok jws := hjws
  have hkey : (tableLibs texts).rsaEncrypt peerCert cek.bytes = .ok cek.bytes := rfl
  cases hasSignature with
  | false =>
    simp only [genEncryptedRequest, hprint, hheader, hkey, enforcePrinted, ok_bind]
    exact ⟨_, rfl⟩
  | true =>
    simp only [genEncryptedRequest, hprint, hheader, hkey, enforcePrinted, ok_bind, if_true,
      table_genJws, hjws]
    exact ⟨_, rfl⟩

/-! One message and its text. -/

def onlyPrint (message : T) : T → Except Bytes Bytes := tablePrint [(message, str "message")]

def sampleLibs : SealLibs := tableLibs [str "message"]

def sampleReader {T : Type} (message : T) : JweLibs T := tableReader [(message, str "message")]

theorem sampleReader_paired (message : T) (peerCert privateKey : Bytes) :
    Paired sampleLibs (onlyPrint message) (sampleReader message) peerCert privateKey :=
  tableReader_paired _ (List.pairwise_singleton _ _) peerCert privateKey

theorem sample_genEncryptedRequest (request : T) (cek : Blob kContentKeyBytes)
    (iv : Blob kJweIvBytes) (privateKey cert peerCert : Bytes) (hasSignature : Bool) :
    ∃ encReq, genEncryptedRequest sampleLibs (onlyPrint request) cek iv request privateKey cert
      peerCert hasSignature = .ok encReq := by
  have hprint : onlyPrint request request = .ok (str "message") := by simp [onlyPrint, tablePrint]
  exact table_genEncryptedRequest hprint (tablePrint_jwsTable (List.mem_singleton_self _)) cek iv
    privateKey cert peerCert hasSignature

end Instance

/-! ## The requests of a certificate -/

/-- Let a private key sign the requests of a list, and let a receiver be presented with anything
    but a signature of another text with that key.  Then the requests that it takes for signed with
    the certificate are those of the list. -/
theorem signedRequests_eq_sent {T : Type} (libs : SealLibs) (print : T → Except Bytes Bytes)
    (receiver : Receiver T) (privateKey cert certDer peerCert : Bytes)
    (sent : List (T × EncryptedRequest)) (presented : EncryptedRequest → Prop)
    (hreads : receiver.Reads libs print peerCert)
    (hder : libs.x509CertPemToDer cert = .ok certDer)
    (hverifies : ∀ message sig, libs.rsaSign privateKey message = .ok sig →
      receiver.rsaVerify certDer message sig = true)
    (hsent : ∀ s ∈ sent, Sent libs print privateKey cert peerCert s ∧ presented s.2)
    (hunforgeable : ∀ encReq jws sig, presented encReq → receiver.Opens encReq jws →
      receiver.jwe.decode jws.signature = .ok sig →
      receiver.rsaVerify certDer jws.signInput sig = true →
      ∃ s ∈ sent, ∃ jws', receiver.Opens s.2 jws' ∧ jws.signInput = jws'.signInput)
    (request : T) :
    (∃ encReq jws, presented encReq ∧ receiver.Opens encReq jws ∧
      receiver.Signed jws certDer request) ↔ request ∈ sent.map Prod.fst := by
  constructor
  · rintro ⟨encReq, jws, hpresented, hopens, hsigned⟩
    obtain ⟨sig, hdecode, hverify⟩ := hsigned.signature
    obtain ⟨s, hs, jws', hopens', heq⟩ := hunforgeable _ _ _ hpresented hopens hdecode hverify
    obtain ⟨requestStr, jws'', hprint, hgen, hopens''⟩ := (hsent s hs).1.opens hreads
    obtain rfl := hopens'.unique hopens''
    have hrequest := request_of_signInput hreads hprint hgen hsigned heq
    exact List.mem_map.mpr ⟨s, hs, hrequest.symm⟩
  · intro hmem
    obtain ⟨s, hs, rfl⟩ := List.mem_map.mp hmem
    obtain ⟨requestStr, jws, hprint, hgen, hopens⟩ := (hsent s hs).1.opens hreads
    exact ⟨s.2, jws, (hsent s hs).2, hopens, signed_of_genJws hreads hder hverifies hprint hgen⟩

/-- Two requests, with their texts. -/
def requestTable : List (Nat × Bytes) :=
  [(7, str "\x7b\"id\":7\x7d"), (8, str "\x7b\"id\":8\x7d")]

theorem requestTable_pairwise : requestTable.Pairwise (·.2 ≠ ·.2) := by decide

/-- Each of the two can be sent, and a receiver finds its signed form. -/
theorem exists_sent {entry : Nat × Bytes} (hentry : entry ∈ requestTable) :
    ∃ encReq, Sent (tableLibs (requestTable.map Prod.snd)) (tablePrint requestTable) (str "key")
        (str "cert") (str "manager") (entry.1, encReq) ∧
      (tableReceiver requestTable).Opens encReq (jwsFor entry.2) := by
  have hprint : tablePrint requestTable entry.1 = .ok entry.2 := by
    rcases List.mem_pair.mp hentry with rfl | rfl <;> rfl
  have hjws := tablePrint_jwsTable (List.mem_map_of_mem (f := Prod.snd) hentry)
  obtain ⟨encReq, hgen⟩ := table_genEncryptedRequest hprint hjws sampleCek sampleJweIv (str "key")
    (str "cert") (str "manager") true
  have hsent : Sent (tableLibs (requestTable.map Prod.snd)) (tablePrint requestTable) (str "key")
      (str "cert") (str "manager") (entry.1, encReq) := ⟨_, _, hgen⟩
  obtain ⟨requestStr, jws, hprint', hjws', hopens⟩ :=
    hsent.opens (tableReceiver_reads requestTable_pairwise (str "manager"))
  obtain rfl := Except.ok.inj (hprint.symm.trans hprint')
  rw [table_genJws] at hjws'
  cases hjws'
  exact ⟨encReq, hsent, hopens⟩

/-- Requests in which any signatures of the two requests are put under any texts. -/
def ReplaysOf (receiver : Receiver Nat) (encReq : EncryptedRequest) : Prop :=
  ∀ jws, receiver.Opens encReq jws →
    ∃ entry ∈ requestTable, jws.signature = (jwsFor entry.2).signature

theorem replaysOf_sent {entry : Nat × Bytes} (hentry : entry ∈ requestTable)
    {encReq : EncryptedRequest} (h : (tableReceiver requestTable).Opens encReq (jwsFor entry.2)) :
    ReplaysOf (tableReceiver requestTable) encReq := by
  intro jws hopens
  obtain rfl := hopens.unique h
  exact ⟨entry, hentry, rfl⟩

/-- A replayed signature verifies under its own text only. -/
theorem signInput_of_replayed {jws : Jws} {text sig certDer : Bytes}
    (hsignature : jws.signature = (jwsFor text).signature)
    (hdecode : (tableReceiver requestTable).jwe.decode jws.signature = .ok sig)
    (hverify : (tableReceiver requestTable).rsaVerify certDer jws.signInput sig = true) :
    jws.signInput = (jwsFor text).signInput := by
  have hsig : sig = sampleSign (jwsFor text).signInput := by
    have hdecode : decodeExn jws.signature = .ok sig := hdecode
    rw [hsignature, decodeExn_iff] at hdecode
    exact Option.some.inj (hdecode.symm.trans (base64UrlUnpaddedDecode_encode _))
  have hverify : sig = sampleSign jws.signInput := of_decide_eq_true hverify
  exact List.append_cancel_left (hverify.symm.trans hsig)

/-- Two requests were sent, and the network can replay their signatures. -/
theorem signedRequests_eq_sent_sample : ∃ encReq encReq',
    Sent (tableLibs (requestTable.map Prod.snd)) (tablePrint requestTable) (str "key") (str "cert")
      (str "manager") (7, encReq) ∧
    Sent (tableLibs (requestTable.map Prod.snd)) (tablePrint requestTable) (str "key") (str "cert")
      (str "manager") (8, encReq') ∧
    ∀ request, (∃ presented jws, ReplaysOf (tableReceiver requestTable) presented ∧
      (tableReceiver requestTable).Opens presented jws ∧
      (tableReceiver requestTable).Signed jws (str "der") request) ↔ request ∈ [7, 8] := by
  have hfirst : (7, str "\x7b\"id\":7\x7d") ∈ requestTable := by simp [requestTable]
  have hsecond : (8, str "\x7b\"id\":8\x7d") ∈ requestTable := by simp [requestTable]
  obtain ⟨encReq, hsent, hopens⟩ := exists_sent hfirst
  obtain ⟨encReq', hsent', hopens'⟩ := exists_sent hsecond
  refine ⟨encReq, encReq', hsent, hsent', signedRequests_eq_sent _ _ (tableReceiver requestTable)
    (str "key") (str "cert") (str "der") (str "manager") [(7, encReq), (8, encReq')]
    (ReplaysOf (tableReceiver requestTable))
    (tableReceiver_reads requestTable_pairwise (str "manager")) rfl (tableReceiver_verifies _ _ _)
    ?_ ?_⟩
  · intro s hs
    rcases List.mem_pair.mp hs with rfl | rfl
    · exact ⟨hsent, replaysOf_sent hfirst hopens⟩
    · exact ⟨hsent', replaysOf_sent hsecond hopens'⟩
  · intro presented jws sig hpresented hopened hdecode hverify
    obtain ⟨entry, hentry, hsignature⟩ := hpresented jws hopened
    have hinput := signInput_of_replayed hsignature hdecode hverify
    rcases List.mem_pair.mp hentry with rfl | rfl
    · exact ⟨_, List.mem_cons_self, _, hopens, hinput⟩
    · exact ⟨_, List.mem_cons_of_mem _ (List.mem_singleton_self _), _, hopens', hinput⟩

end TrustFlow.Proxy
