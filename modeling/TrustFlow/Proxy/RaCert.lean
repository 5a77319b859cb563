import TrustFlow.Attestation.ReportDataReadback
import TrustFlow.Attestation.Verifier
import TrustFlow.Data.Base64

/-! # The certificate of the Capsule Manager

`CapsuleManagerClient` sends a fresh nonce when it is constructed, and the
service answers with its certificate and a report that attests the digest of
certificate and nonce.  The channel is not secured, so the answer is whatever the
network delivers.  The client looks at the status of the answer and keeps the
certificate; it never looks at the report.  Every later request is encrypted to
that certificate. -/

namespace TrustFlow.Proxy

open TrustFlow.Attestation

/-! ## The messages -/

/-- `secretflowapis::v2::Status`, and the status of a gRPC call: OK is code 0. -/
structure Status where
  code : Nat
  message : Bytes
deriving DecidableEq, Repr

def kCodeOk : Nat := 0

structure GetRaCertRequest where
  nonce : Bytes
deriving DecidableEq, Repr

structure GetRaCertResponse where
  status : Status
  attestationReport : Option UnifiedAttestationReport
  cert : Bytes
deriving DecidableEq, Repr

/-! ## The service -/

def kTeePlatSim : Bytes := str "sim"

/-- The bytes whose digest a report of `GetRaCert` attests. -/
def raUserData (cert nonce : Bytes) : Bytes := cert ++ str "." ++ nonce

def genRaReportParams (H : Sha256) (userData : Bytes) : UnifiedAttestationGenerationParams :=
  { teeIdentity := str "1", reportType := str "Passport",
    reportParams := { hexUserData := bytesToHexString (H.hash userData) } }

/-- The generator of the platform, `CreateAttestationGenerator()->GenerateReport`. -/
abbrev Generator := UnifiedAttestationGenerationParams → Except Exn UnifiedAttestationReport

def genRaReport (H : Sha256) (generate : Generator) (userData : Bytes) :
    Except Exn UnifiedAttestationReport :=
  generate (genRaReportParams H userData)

/-- `RaProxyImpl::GetRaCert`. -/
def RaProxy.getRaCert (H : Sha256) (generate : Generator) (plat cert : Bytes)
    (request : GetRaCertRequest) : Except Exn GetRaCertResponse := do
  let report ← (if plat ≠ kTeePlatSim then
      some <$> genRaReport H generate (raUserData cert request.nonce)
    else
      pure none)
  return { status := ⟨kCodeOk, str "success"⟩, attestationReport := report, cert := cert }

/-! ## The client -/

structure CapsuleManagerClient where
  capsuleManagerCert : Bytes
deriving DecidableEq, Repr

/-- What a call of the stub brings back: a response, or the status of a failed call.  The channel
    has `InsecureChannelCredentials`, so nothing is known about it. -/
abbrev Network := GetRaCertRequest → Except Status GetRaCertResponse

def kNonceBytes : Nat := 16

def verifySfResponseStatus (status : Status) : Except Exn Unit :=
  enforce (status.code = kCodeOk) (str "Call service failed, error code: " ++
    decimal status.code ++ str ", message: " ++ status.message)

def nonceText (nonce : Blob kNonceBytes) : Bytes := base64UrlUnpaddedEncode nonce.bytes

namespace CapsuleManagerClient

def getRaCert (net : Network) (nonce : Blob kNonceBytes) : Except Exn Bytes := do
  let response ← match net ⟨nonceText nonce⟩ with
    | .error status => .error ⟨.enforceNotMet, str "Calling GetRaCert failed, error code: " ++
        decimal status.code ++ str ", message: " ++ status.message⟩
    | .ok response => .ok response
  verifySfResponseStatus response.status
  return response.cert

/-- The constructor. -/
def create (net : Network) (nonce : Blob kNonceBytes) : Except Exn CapsuleManagerClient := do
  let cert ← getRaCert net nonce
  return { capsuleManagerCert := cert }

/-- The certificate that `GetDataKeys`, `GetTlsAsset` and `CreateResultDataKey` encrypt to. -/
def peerCert (client : CapsuleManagerClient) : Except Exn Bytes := do
  enforce (0 < client.capsuleManagerCert.length)
    (str "capsule_manager_cert not found. you should call GetRaCert() " ++
      str "before other capsule_manager's interface")
  return client.capsuleManagerCert

end CapsuleManagerClient

/-! ## What the client accepts -/

/-- The client takes this response for an answer to its nonce. -/
def Accepts (nonce : Blob kNonceBytes) (response : GetRaCertResponse) : Prop :=
  CapsuleManagerClient.create (fun _ => .ok response) nonce = .ok ⟨response.cert⟩

theorem create_eq_ok {net : Network} {nonce : Blob kNonceBytes} {client : CapsuleManagerClient} :
    CapsuleManagerClient.create net nonce = .ok client ↔
      ∃ response, net ⟨nonceText nonce⟩ = .ok response ∧ response.status.code = kCodeOk ∧
        client = ⟨response.cert⟩ := by
  simp only [CapsuleManagerClient.create, CapsuleManagerClient.getRaCert, verifySfResponseStatus]
  cases hnet : net ⟨nonceText nonce⟩ with
  | error status => simp
  | ok response =>
    by_cases hcode : response.status.code = kCodeOk
    · simp [enforce, hcode, Pure.pure, Except.pure, eq_comm]
    · simp [enforce, hcode]

/-- Only the status of a response decides. -/
theorem accepts_iff (nonce : Blob kNonceBytes) (response : GetRaCertResponse) :
    Accepts nonce response ↔ response.status.code = kCodeOk := by
  simp [Accepts, create_eq_ok]

/-! ## The check that the client does not make -/

/-- The policy of `verify_ra_report` in the sample client: one rule, on the user data. -/
def raPolicy (H : Sha256) (cert nonce : Bytes) : UnifiedAttestationPolicy :=
  { mainAttributes := [userDataRule (bytesToHexString (H.hash (raUserData cert nonce)))] }

/-- The report attests the digest of this certificate and this nonce. -/
def Attests (env : VerifierEnv) (report : UnifiedAttestationReport) (cert nonce : Bytes) : Prop :=
  ∃ v log, createVerifier env report = .ok v ∧
    (v.verifyReport env (raPolicy env.sha256 cert nonce)).run [] = .ok ((), log)

theorem attests_iff {env : VerifierEnv} {report : UnifiedAttestationReport} {cert nonce : Bytes} :
    Attests env report cert nonce ↔ ∃ v attrs, createVerifier env report = .ok v ∧
      v.PlatformVerified env ∧ v.HasAttributes env attrs ∧
      equalsIgnoreCase (bytesToHexString (env.sha256.hash (raUserData cert nonce)))
        attrs.hexUserData = true := by
  have hdigest : bytesToHexString (env.sha256.hash (raUserData cert nonce)) ≠ [] := by
    intro hnil
    have hlen := congrArg List.length hnil
    simp [env.sha256.hash_length] at hlen
  have hreached : ∀ attrs, MatchReached env.sha256 attrs
      (raPolicy env.sha256 cert nonce).mainAttributes ↔
        equalsIgnoreCase (bytesToHexString (env.sha256.hash (raUserData cert nonce)))
          attrs.hexUserData = true := by
    intro attrs
    rw [← verifyAttributes_eq_ok, verifyAttributes_singleton _ _ _ _ rfl, ← attrsIsMatch_eq_pass,
      attrsIsMatch_userDataRule _ _ hdigest]
  simp only [Attests, exists_and_left, AttestationVerifier.verifyReport_eq_ok, hreached]

/-- A report attests one digest only, so it could not be replayed for another nonce. -/
theorem Attests.unique {env : VerifierEnv} {report : UnifiedAttestationReport}
    {cert nonce cert' nonce' : Bytes} (h : Attests env report cert nonce)
    (h' : Attests env report cert' nonce') :
    env.sha256.hash (raUserData cert nonce) = env.sha256.hash (raUserData cert' nonce') := by
  obtain ⟨v, attrs, hcreate, _, hattrs, hmatch⟩ := attests_iff.mp h
  obtain ⟨v', attrs', hcreate', _, hattrs', hmatch'⟩ := attests_iff.mp h'
  obtain rfl : v = v' := Except.ok.inj (hcreate.symm.trans hcreate')
  obtain rfl := hattrs.unique hattrs'
  rw [equalsIgnoreCase_iff] at hmatch hmatch'
  exact equalsIgnoreCase_bytesToHexString.mp
    (equalsIgnoreCase_iff.mpr (hmatch.trans hmatch'.symm))

/-! ## Sessions -/

/-- No response is good for both nonces. -/
def ReplayRefused (nonce nonce' : Blob kNonceBytes) : Prop :=
  ∀ response, Accepts nonce response → ¬ Accepts nonce' response

/-- Whatever the network delivers, the certificate of a constructed client came with a report
    that attests it for the nonce just sent. -/
def CertAttested (env : VerifierEnv) (nonce : Blob kNonceBytes) : Prop :=
  ∀ net client, CapsuleManagerClient.create net nonce = .ok client →
    ∃ response report, net ⟨nonceText nonce⟩ = .ok response ∧
      response.cert = client.capsuleManagerCert ∧ response.attestationReport = some report ∧
      Attests env report response.cert (nonceText nonce)

/-- What the service answers for one nonce is accepted for every other. -/
theorem accepts_getRaCert {H : Sha256} {generate : Generator} {plat cert : Bytes}
    {request : GetRaCertRequest} {response : GetRaCertResponse}
    (h : RaProxy.getRaCert H generate plat cert request = .ok response)
    (nonce : Blob kNonceBytes) : Accepts nonce response := by
  obtain ⟨report, _, hresponse⟩ := bind_eq_ok.mp h
  cases hresponse
  exact (accepts_iff _ _).mpr rfl

/-- No pair of nonces keeps two sessions apart, and for no nonce is the certificate of the client
    an attested one: a client can be made to encrypt to any certificate. -/
theorem raCert_never_bound (env : VerifierEnv) (nonce nonce' : Blob kNonceBytes) :
    (∀ response, Accepts nonce response ↔ Accepts nonce' response) ∧
    ¬ ReplayRefused nonce nonce' ∧ ¬ CertAttested env nonce ∧
    ∀ cert, ∃ net, CapsuleManagerClient.create net nonce = .ok ⟨cert⟩ := by
  -- A response that says OK and has no report.
  let bare : Bytes → GetRaCertResponse := fun cert => ⟨⟨kCodeOk, []⟩, none, cert⟩
  have hbare : ∀ nonce cert, Accepts nonce (bare cert) := fun nonce cert =>
    (accepts_iff _ _).mpr rfl
  refine ⟨fun response => by rw [accepts_iff, accepts_iff], fun hrefused => ?_,
    fun hattested => ?_, fun cert => ⟨_, hbare nonce cert⟩⟩
  · exact hrefused (bare []) (hbare nonce []) (hbare nonce' [])
  · obtain ⟨response, report, hdelivered, _, hreport, _⟩ := hattested _ _ (hbare nonce [])
    cases hdelivered
    cases hreport

/-- The service's answer to one nonce, on an SGX platform, is accepted for another nonce, and the
    client then encrypts to the certificate in it. -/
theorem raCert_replayed :
    ∃ (nonce nonce' : Blob kNonceBytes) (generate : Generator) (response : GetRaCertResponse),
      nonceText nonce ≠ nonceText nonce' ∧
      RaProxy.getRaCert paddingSha256 generate (str "sgx") (str "cert") ⟨nonceText nonce⟩ =
        .ok response ∧
      Accepts nonce response ∧ Accepts nonce' response ∧
      CapsuleManagerClient.peerCert ⟨response.cert⟩ = .ok (str "cert") := by
  let generate : Generator := fun params => .ok { jsonReport := params.reportParams.hexUserData }
  have hanswer : ∃ response,
      RaProxy.getRaCert paddingSha256 generate (str "sgx") (str "cert")
        ⟨nonceText ⟨List.replicate 16 0, rfl⟩⟩ = .ok response ∧ response.cert = str "cert" :=
    ⟨_, rfl, rfl⟩
  obtain ⟨response, hresponse, hcert⟩ := hanswer
  refine ⟨⟨List.replicate 16 0, rfl⟩, ⟨List.replicate 16 1, rfl⟩, generate, response, by decide,
    hresponse, accepts_getRaCert hresponse _, accepts_getRaCert hresponse _, ?_⟩
  rw [hcert]
  decide

end TrustFlow.Proxy
