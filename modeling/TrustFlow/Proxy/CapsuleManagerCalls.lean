import TrustFlow.Proxy.CapsulePipeline
import TrustFlow.Proxy.EncryptedRequest
import TrustFlow.Proxy.RaHandshake

/-! # The calls of `CapsuleManagerClient`

`GetDataKeys`, `GetTlsAsset` and `CreateResultDataKey`.  Each has its request attested,
signs it with the key of the proxy and seals it for the certificate that the
constructor has got; the first two open the response with the key of the proxy.

* `resourceRequest_bound` — what a receiver reads from a request for keys, and what the
  report in it attests;
* `resultKeyRequest_resent` — the report of a result key attests the body alone;
* `inputDataKey_forged` — a response is sealed for a public certificate and signed by
  nobody, so that the data key of `GetInputData` is in the hand of the network. -/

namespace TrustFlow.Proxy

open TrustFlow.Attestation

/-! ## The messages -/

/-- `GetDataKeysRequest`, and `GetTlsAssetRequest`. -/
structure AttestedResourceRequest where
  attestationReport : Option UnifiedAttestationReport
  cert : Bytes
  resourceRequest : ResourceRequest
deriving DecidableEq

structure DataKey where
  resourceUri : Bytes
  dataKeyB64 : Bytes
deriving DecidableEq

structure GetDataKeysResponse where
  dataKeys : List DataKey := []
deriving DecidableEq, Inhabited

structure TlsAsset where
  cert : Bytes := []
  privateKey : Bytes := []
deriving DecidableEq, Inhabited

structure GetTlsAssetResponse where
  tlsAsset : TlsAsset := {}
deriving DecidableEq, Inhabited

structure CreateResultDataKeyRequest where
  attestationReport : Option UnifiedAttestationReport
  body : ResultDataKey
deriving DecidableEq

/-! ## The calls -/

/-- What a client runs on: the platform, the libraries, the protobuf serializers, and the
    arguments that all calls have. -/
structure ClientEnv where
  sha256 : Sha256
  generate : Generator
  libs : SealLibs
  serializeResourceRequest : ResourceRequest → Option Bytes
  serializeBody : ResultDataKey → Option Bytes
  printResourceRequest : AttestedResourceRequest → Except Bytes Bytes
  printResultDataKey : CreateResultDataKeyRequest → Except Bytes Bytes
  plat : Bytes
  cert : Bytes
  privateKey : Bytes

/-- A call of the stub over the insecure channel. -/
abbrev Rpc := EncryptedRequest → Except Status EncryptedResponse

/-- The random bytes of one `GenEncryptedRequest`. -/
structure SealRandom where
  cek : Blob kContentKeyBytes
  iv : Blob kJweIvBytes

def enforceSerialized (what : String) : Option Bytes → Except Exn Bytes
  | some bytes => .ok bytes
  | none => .error ⟨.enforceNotMet, str "Serializing " ++ str what ++ str " failed"⟩

def enforceCalled (name : String) : Except Status EncryptedResponse → Except Exn EncryptedResponse
  | .ok encRes => .ok encRes
  | .error status => .error ⟨.enforceNotMet, str "Calling " ++ str name ++
      str " failed, error code: " ++ decimal status.code ++ str ", message: " ++ status.message⟩

/-- The report for user data, on a platform that has reports. -/
def attachedReport (env : ClientEnv) (what : String) (serialized : Option Bytes)
    (userData : Bytes → Bytes) : Except Exn (Option UnifiedAttestationReport) :=
  if env.plat ≠ kTeePlatSim then do
    let bytes ← enforceSerialized what serialized
    some <$> genRaReport env.sha256 env.generate (userData bytes)
  else
    pure none

namespace CapsuleManagerClient

/-- The request of `GetDataKeys` and `GetTlsAsset`, as it is sent. -/
def resourceRequest (env : ClientEnv) (client : CapsuleManagerClient) (random : SealRandom)
    (resourceReq : ResourceRequest) : Except Exn (AttestedResourceRequest × EncryptedRequest) := do
  let managerCert ← client.peerCert
  let report ← attachedReport env "resource_req" (env.serializeResourceRequest resourceReq)
    (raUserData env.cert)
  let request : AttestedResourceRequest := ⟨report, env.cert, resourceReq⟩
  let encReq ← genEncryptedRequest env.libs env.printResourceRequest random.cek random.iv request
    env.privateKey env.cert managerCert true
  return (request, encReq)

/-- `GetDataKeys` and `GetTlsAsset` up to the response.  Both name `GetDataKeys` in the text of a
    failed call. -/
def resourceCall {R : Type} [Inhabited R] (env : ClientEnv) (reader : JweLibs R) (rpc : Rpc)
    (client : CapsuleManagerClient) (random : SealRandom) (resourceReq : ResourceRequest) :
    Except Exn R := do
  let sent ← client.resourceRequest env random resourceReq
  let encRes ← enforceCalled "GetDataKeys" (rpc sent.2)
  let answer ← parseEncryptedResponse reader encRes env.privateKey
  verifySfResponseStatus answer.1
  return answer.2

def getDataKeys (env : ClientEnv) (reader : JweLibs GetDataKeysResponse) (rpc : Rpc)
    (client : CapsuleManagerClient) (random : SealRandom) (resourceReq : ResourceRequest) :
    Except Exn (List DataKey) := do
  let response ← client.resourceCall env reader rpc random resourceReq
  return response.dataKeys

def getTlsAsset (env : ClientEnv) (reader : JweLibs GetTlsAssetResponse) (rpc : Rpc)
    (client : CapsuleManagerClient) (random : SealRandom) (resourceReq : ResourceRequest) :
    Except Exn TlsAsset := do
  let response ← client.resourceCall env reader rpc random resourceReq
  return response.tlsAsset

/-- The request of `CreateResultDataKey`, as it is sent.  It has no certificate. -/
def resultKeyRequest (env : ClientEnv) (client : CapsuleManagerClient) (random : SealRandom)
    (body : ResultDataKey) : Except Exn (CreateResultDataKeyRequest × EncryptedRequest) := do
  let managerCert ← client.peerCert
  let report ← attachedReport env "CreateResultDataKeyRequest body" (env.serializeBody body) id
  let request : CreateResultDataKeyRequest := ⟨report, body⟩
  let encReq ← genEncryptedRequest env.libs env.printResultDataKey random.cek random.iv request
    env.privateKey env.cert managerCert true
  return (request, encReq)

/-- The response is not opened, only its status is looked at. -/
def createResultDataKey (env : ClientEnv) (rpc : Rpc) (client : CapsuleManagerClient)
    (random : SealRandom) (body : ResultDataKey) : Except Exn Unit := do
  let sent ← client.resultKeyRequest env random body
  let encRes ← enforceCalled "CreateResultDataKey" (rpc sent.2)
  verifySfResponseStatus encRes.status

end CapsuleManagerClient

/-! ## What is sent -/

section Sent

variable {env : ClientEnv} {client : CapsuleManagerClient} {random : SealRandom}

theorem peerCert_of_ne_nil (h : client.capsuleManagerCert ≠ []) :
    client.peerCert = .ok client.capsuleManagerCert := by
  rw [CapsuleManagerClient.peerCert, enforce_pos _ (List.length_pos_iff.mpr h)]
  rfl

theorem attachedReport_of_genRaReport {what : String} {serialized : Option Bytes} {bytes : Bytes}
    {userData : Bytes → Bytes} {report : UnifiedAttestationReport}
    (hplat : env.plat ≠ kTeePlatSim) (hserialized : serialized = some bytes)
    (h : genRaReport env.sha256 env.generate (userData bytes) = .ok report) :
    attachedReport env what serialized userData = .ok (some report) := by
  rw [attachedReport, if_pos hplat, hserialized]
  exact map_eq_ok.mpr ⟨report, h, rfl⟩

end Sent

/-- A client that can print one request of each kind. -/
def sampleClientEnv (request : AttestedResourceRequest) (resultKey : CreateResultDataKeyRequest) :
    ClientEnv where
  sha256 := paddingSha256
  generate := createAttestationGenerator sampleGenerator (some (.sgx2 sampleSgxDevice))
  libs := sampleLibs
  serializeResourceRequest _ := some (str "resources")
  serializeBody _ := some (str "body")
  printResourceRequest := onlyPrint request
  printResultDataKey := onlyPrint resultKey
  plat := str "sgx"
  cert := str "cert"
  privateKey := str "key"

def sampleResourceRequest : ResourceRequest := ⟨str "cert", [], [], [⟨[], []⟩], []⟩

def sampleResultKey : ResultDataKey := ⟨str "default", str "join", str "a2V5", [str "alice"]⟩

def sampleRandom : SealRandom := ⟨sampleCek, sampleJweIv⟩

theorem sampleClientEnv_plat (request : AttestedResourceRequest)
    (resultKey : CreateResultDataKeyRequest) :
    (sampleClientEnv request resultKey).plat ≠ kTeePlatSim := by
  change str "sgx" ≠ kTeePlatSim
  decide

/-- The client gets a report for its request, and can then print it. -/
theorem sample_resourceRequest (resultKey : CreateResultDataKeyRequest) :
    ∃ request, ∀ client : CapsuleManagerClient, client.capsuleManagerCert ≠ [] →
      ∃ encReq, client.resourceRequest (sampleClientEnv request resultKey) sampleRandom
        sampleResourceRequest = .ok (request, encReq) := by
  obtain ⟨report, hreport⟩ := sample_genRaReport (raUserData (str "cert") (str "resources"))
  refine ⟨⟨some report, str "cert", sampleResourceRequest⟩, fun client hcert => ?_⟩
  obtain ⟨encReq, hgen⟩ := sample_genEncryptedRequest
    (⟨some report, str "cert", sampleResourceRequest⟩ : AttestedResourceRequest) sampleCek
    sampleJweIv (str "key") (str "cert") client.capsuleManagerCert true
  refine ⟨encReq, bind_eq_ok.mpr ⟨_, peerCert_of_ne_nil hcert, bind_eq_ok.mpr ⟨_, ?_,
    bind_eq_ok.mpr ⟨encReq, hgen, rfl⟩⟩⟩⟩
  exact attachedReport_of_genRaReport (sampleClientEnv_plat _ _) rfl hreport

section Responses

variable {R : Type} [Inhabited R] {env : ClientEnv} {reader : JweLibs R}
  {client : CapsuleManagerClient} {random : SealRandom} {resourceReq : ResourceRequest}

/-- A response that anyone has sealed for the certificate of the proxy is taken. -/
theorem resourceCall_of_sealed {printResponse : R → Except Bytes Bytes}
    {sent : AttestedResourceRequest × EncryptedRequest} {response : R} {plain : Bytes}
    {message : Jwe} (hpaired : Paired env.libs printResponse reader env.cert env.privateKey)
    (hsent : client.resourceRequest env random resourceReq = .ok sent)
    (hprint : printResponse response = .ok plain)
    (hsealed : SealedFor env.libs env.cert message plain) :
    client.resourceCall env reader (fun _ => .ok ⟨⟨kCodeOk, []⟩, message⟩) random resourceReq =
      .ok response := by
  have hok : (⟨kCodeOk, []⟩ : Status).code = kCodeOk := rfl
  have hopens := opens_of_sealedFor hpaired hok hprint hsealed
  simp only [CapsuleManagerClient.resourceCall, hsent, ok_bind, enforceCalled, hopens]
  rfl

end Responses

/-- `GetDataKeys` of a client that is constructed for an endpoint, as `GetInputData` calls it. -/
def clientGetDataKeys (env : ClientEnv) (reader : JweLibs GetDataKeysResponse)
    (network : Bytes → Network × Rpc) (nonce : Blob kNonceBytes) (random : SealRandom)
    (endpoint : Bytes) (resourceReq : ResourceRequest) : Except Exn (List Bytes) := do
  let client ← CapsuleManagerClient.create (network endpoint).1 nonce
  let dataKeys ← client.getDataKeys env reader (network endpoint).2 random resourceReq
  return dataKeys.map DataKey.dataKeyB64

/-- A network in the middle: it has a certificate of its own for the constructor, and one answer
    for every call. -/
def interceptor (cert : Bytes) (message : Jwe) (_endpoint : Bytes) : Network × Rpc :=
  (fun _ => .ok ⟨⟨kCodeOk, []⟩, none, cert⟩, fun _ => .ok ⟨⟨kCodeOk, []⟩, message⟩)

/-- The network decides on the data key.  All it needs is the certificate of the proxy, to which
    it seals a response with the key of its choice; `privateKey` and `cert` play no part in
    that. -/
theorem inputDataKey_forged (env : InputEnv) (clientEnv : ClientEnv)
    (reader : JweLibs GetDataKeysResponse)
    (printResponse : GetDataKeysResponse → Except Bytes Bytes) (q : GetInputDataRequest)
    (config : CmResourceConfig) (nonce : Blob kNonceBytes)
    (random random' : SealRandom) (dataKey uri partyId interceptorCert privateKey cert : Bytes)
    (forged : EncryptedRequest)
    (hnone : q.dataKeyB64 = none) (hconfig : q.cmResourceConfig = some config)
    (hpaired : Paired clientEnv.libs printResponse reader clientEnv.cert clientEnv.privateKey)
    (hbase64 : ∀ bs, env.base64Decode (base64Encode bs) = .ok bs)
    (hparty : env.generatePartyId env.cert = .ok partyId)
    (hsends : ∀ resourceReq, genResourceRequest env config = .ok resourceReq →
      ∃ sent, CapsuleManagerClient.resourceRequest clientEnv ⟨interceptorCert⟩ random
        resourceReq = .ok sent)
    (hforged : genEncryptedRequest clientEnv.libs printResponse random'.cek random'.iv
      ⟨[⟨uri, base64Encode dataKey⟩]⟩ privateKey cert clientEnv.cert false = .ok forged)
    (henv : env.getDataKeys = clientGetDataKeys clientEnv reader
      (interceptor interceptorCert forged.message) nonce random) :
    inputDataKey env q = .ok dataKey := by
  obtain ⟨plain, hprint, hsealed⟩ := genEncryptedRequest_unsigned hforged
  have hrequest : genResourceRequest env config = .ok ⟨partyId, config.scope, config.opName,
      [⟨config.resourceUri, config.columns⟩], config.globalAttrs⟩ := by
    rw [genResourceRequest, hparty]
    rfl
  obtain ⟨sent, hsent⟩ := hsends _ hrequest
  have hcall := resourceCall_of_sealed hpaired hsent hprint hsealed
  have hkeys : ∀ endpoint, env.getDataKeys endpoint ⟨partyId, config.scope, config.opName,
      [⟨config.resourceUri, config.columns⟩], config.globalAttrs⟩ =
      .ok [base64Encode dataKey] := by
    intro endpoint
    have hcreate : CapsuleManagerClient.create
        (interceptor interceptorCert forged.message endpoint).1 nonce = .ok ⟨interceptorCert⟩ :=
      create_eq_ok.mpr ⟨_, rfl, rfl, rfl⟩
    rw [henv, clientGetDataKeys, hcreate, ok_bind, CapsuleManagerClient.getDataKeys]
    simp only [interceptor, hcall, ok_bind]
    rfl
  simp only [inputDataKey, hnone, hconfig, cmDataKey, hrequest, ok_bind, hkeys]
  rw [enforce_pos _ (by simp), ok_bind, List.headD_cons, hbase64]

theorem inputDataKey_forged_sample : ∃ clientEnv forged,
    inputDataKey { sampleInputEnv with
      base64Decode := base64DecodeExn
      getDataKeys := clientGetDataKeys clientEnv
        (sampleReader ⟨[⟨[], base64Encode (str "forged")⟩]⟩)
        (interceptor (str "interceptor") forged) sampleNonce sampleRandom } sampleInput =
      .ok (str "forged") := by
  obtain ⟨request, hrequest⟩ := sample_resourceRequest ⟨none, sampleResultKey⟩
  obtain ⟨forged, hforged⟩ := sample_genEncryptedRequest
    (⟨[⟨[], base64Encode (str "forged")⟩]⟩ : GetDataKeysResponse) sampleCek sampleJweIv [] []
    (str "cert") false
  refine ⟨sampleClientEnv request ⟨none, sampleResultKey⟩, forged.message,
    inputDataKey_forged _ _ _ _ _ {} _ _ sampleRandom _ [] (str "cert") (str "interceptor") [] []
      forged rfl rfl (sampleReader_paired _ _ _) ?_ rfl ?_ hforged rfl⟩
  · intro bs
    simp [base64DecodeExn, base64Decode_encode]
  · intro resourceReq hresource
    cases hresource
    obtain ⟨encReq, hsent⟩ := hrequest ⟨str "interceptor"⟩ (by decide)
    exact ⟨_, hsent⟩

end TrustFlow.Proxy
