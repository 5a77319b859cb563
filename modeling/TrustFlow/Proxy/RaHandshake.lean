import TrustFlow.Attestation.GeneratedReports
import TrustFlow.Proxy.RaCert

/-! # What an answer of `GetRaCert` attests

The service puts its certificate, a dot and the nonce of the request behind each
other and has the digest attested.  It takes any nonce, also one with a dot in it, so
its own certificate is not all that a report can be read for: a report for the nonce
`x.n` attests the nonce `n` for the certificate with `.x` behind it.
`getRaCert_attests_iff` says that there is no other way to read a report. -/

namespace TrustFlow.Proxy

open TrustFlow.Attestation

/-! ## The attested bytes -/

/-- A nonce without dots begins behind the last dot of the attested bytes. -/
theorem raUserData_eq_iff {cert nonce cert' nonce' : Bytes} (hdot : 46 ∉ nonce') :
    raUserData cert' nonce' = raUserData cert nonce ↔
      (cert' = cert ∧ nonce' = nonce) ∨
      ∃ extra, cert' = raUserData cert extra ∧ nonce = raUserData extra nonce' := by
  have hstr : str "." = [46] := by decide
  simp only [raUserData, hstr, List.append_assoc, List.singleton_append]
  constructor
  · intro heq
    rcases List.append_eq_append_iff.mp heq with ⟨gap, hcert, hnonce⟩ | ⟨gap, hcert, hnonce⟩
    · -- The service's certificate is the longer one: then the nonce would begin with a dot.
      cases gap with
      | nil =>
        simp only [List.append_nil, List.nil_append, List.cons.injEq, true_and] at hcert hnonce
        exact .inl ⟨hcert.symm, hnonce⟩
      | cons d gap =>
        simp only [List.cons_append, List.cons.injEq] at hnonce
        rw [hnonce.2] at hdot
        simp at hdot
    · cases gap with
      | nil =>
        simp only [List.append_nil, List.nil_append, List.cons.injEq, true_and] at hcert hnonce
        exact .inl ⟨hcert, hnonce.symm⟩
      | cons d gap =>
        simp only [List.cons_append, List.cons.injEq] at hnonce
        obtain ⟨rfl, hnonce⟩ := hnonce
        exact .inr ⟨gap, hcert, hnonce⟩
  · rintro (⟨rfl, rfl⟩ | ⟨extra, rfl, rfl⟩)
    · rfl
    · simp

theorem dot_not_mem_nonceText (nonce : Blob kNonceBytes) : 46 ∉ nonceText nonce :=
  not_mem_base64UrlUnpaddedEncode (by decide) nonce.bytes

/-! ## The report -/

theorem valueBytes_genRaReportParams (H : Sha256) (userData : Bytes) :
    valueBytes (genRaReportParams H userData) = H.hash userData := by
  have hvalue : givenValue (genRaReportParams H userData) = bytesToHexString (H.hash userData) :=
    if_pos rfl
  rw [valueBytes, hvalue, hexStringToBytes_bytesToHexString, zeroPadded_of_length (H.hash_length _)]

/-- One rule, that the user data is the digest of these bytes. -/
def digestPolicy (H : Sha256) (userData : Bytes) : UnifiedAttestationPolicy :=
  { mainAttributes := [userDataRule (bytesToHexString (H.hash userData))] }

/-- The report attests the digest of this user data. -/
def AttestsData (env : VerifierEnv) (report : UnifiedAttestationReport) (userData : Bytes) :
    Prop :=
  ∃ v log, createVerifier env report = .ok v ∧
    (v.verifyReport env (digestPolicy env.sha256 userData)).run [] = .ok ((), log)

theorem attests_iff_attestsData {env : VerifierEnv} {report : UnifiedAttestationReport}
    {cert nonce : Bytes} :
    Attests env report cert nonce ↔ AttestsData env report (raUserData cert nonce) :=
  Iff.rfl

theorem matchReached_digestPolicy (H : Sha256) (attrs : UnifiedAttestationAttributes)
    (userData : Bytes) : MatchReached H attrs (digestPolicy H userData).mainAttributes ↔
      equalsIgnoreCase (bytesToHexString (H.hash userData)) attrs.hexUserData = true := by
  have hdigest : bytesToHexString (H.hash userData) ≠ [] := by
    apply List.ne_nil_of_length_pos
    rw [bytesToHexString_length, H.hash_length]
    decide
  rw [← verifyAttributes_eq_ok, verifyAttributes_singleton _ _ _ _ rfl, ← attrsIsMatch_eq_pass,
    attrsIsMatch_userDataRule _ _ hdigest]

section Handshake

variable {env : VerifierEnv} {gen : GeneratorEnv} {tee : Tee}

/-- A report for user data attests what has the same digest. -/
theorem attestsData_genRaReport_iff (hagree : CodecsAgree gen.printer env.codec)
    (hhonest : tee.Honest gen env) {userData : Bytes} {report : UnifiedAttestationReport}
    (h : genRaReport env.sha256 (createAttestationGenerator gen (some tee)) userData = .ok report)
    (userData' : Bytes) :
    AttestsData env report userData' ↔ env.sha256.hash userData' = env.sha256.hash userData := by
  obtain ⟨v, attrs, hcreate, hplatform, hattrs, _, hvalue⟩ :=
    verified_of_generated hagree hhonest rfl h
  rw [valueBytes_genRaReportParams] at hvalue
  simp only [AttestsData, exists_and_left, AttestationVerifier.verifyReport_eq_ok,
    matchReached_digestPolicy]
  constructor
  · rintro ⟨v', hcreate', _, attrs', hattrs', hmatch⟩
    obtain rfl : v = v' := Except.ok.inj (hcreate.symm.trans hcreate')
    rw [hattrs'.unique hattrs, hvalue] at hmatch
    exact equalsIgnoreCase_bytesToHexString.mp hmatch
  · intro hhash
    refine ⟨v, hcreate, hplatform, attrs, hattrs, ?_⟩
    rw [hvalue]
    exact equalsIgnoreCase_bytesToHexString.mpr hhash

theorem getRaCert_eq_ok {H : Sha256} {generate : Generator} {plat cert : Bytes}
    {request : GetRaCertRequest} {response : GetRaCertResponse} (hplat : plat ≠ kTeePlatSim)
    (h : RaProxy.getRaCert H generate plat cert request = .ok response) :
    ∃ report, genRaReport H generate (raUserData cert request.nonce) = .ok report ∧
      response.attestationReport = some report ∧ response.cert = cert := by
  obtain ⟨report?, hreport, hresponse⟩ := bind_eq_ok.mp h
  rw [if_pos hplat] at hreport
  obtain ⟨report, hgen, rfl⟩ := map_eq_ok.mp hreport
  cases hresponse
  exact ⟨report, hgen, rfl, rfl⟩

/-- On an honest TEE, the answer to any request attests its certificate for the nonce of the
    request; all else that it attests is that certificate with a part of the nonce behind it. -/
theorem getRaCert_attests_iff (env : VerifierEnv) (gen : GeneratorEnv) (tee : Tee)
    (plat cert : Bytes) (request : GetRaCertRequest) (response : GetRaCertResponse)
    (hagree : CodecsAgree gen.printer env.codec) (hhonest : tee.Honest gen env)
    (hplat : plat ≠ kTeePlatSim)
    (h : RaProxy.getRaCert env.sha256 (createAttestationGenerator gen (some tee)) plat cert
      request = .ok response) :
    ∃ report, response.attestationReport = some report ∧ response.cert = cert ∧
      Attests env report cert request.nonce ∧
      ∀ cert' (nonce' : Blob kNonceBytes),
        env.sha256.CollisionFree
          [raUserData cert request.nonce, raUserData cert' (nonceText nonce')] →
        (Attests env report cert' (nonceText nonce') ↔
          (cert' = cert ∧ nonceText nonce' = request.nonce) ∨
          ∃ extra, cert' = raUserData cert extra ∧
            request.nonce = raUserData extra (nonceText nonce')) := by
  obtain ⟨report, hreport, hattached, hcert⟩ := getRaCert_eq_ok hplat h
  have hattests := attestsData_genRaReport_iff hagree hhonest hreport
  refine ⟨report, hattached, hcert, (hattests _).mpr rfl, fun cert' nonce' hfree => ?_⟩
  rw [attests_iff_attestsData, hattests, ← raUserData_eq_iff (dot_not_mem_nonceText nonce')]
  constructor
  · intro hhash
    exact hfree _ (by simp) _ (by simp) hhash
  · intro heq
    rw [heq]

end Handshake

def sampleNonce : Blob kNonceBytes := ⟨List.replicate 16 7, List.length_replicate⟩

theorem sample_genRaReport (userData : Bytes) : ∃ report,
    genRaReport sampleVerifierEnv.sha256
      (createAttestationGenerator sampleGenerator (some (.sgx2 sampleSgxDevice))) userData =
        .ok report := by
  apply sample_generates _ rfl
  have hlen : (bytesToHexString (paddingSha256.hash userData)).length = 64 := by
    rw [bytesToHexString_length, paddingSha256.hash_length]
  exact ⟨Nat.zero_le _, hlen.le, .inl rfl⟩

/-- A nonce with a dot in it: the same report is good for the nonce behind the dot. -/
theorem getRaCert_attests_iff_sample : ∃ response report,
    RaProxy.getRaCert sampleVerifierEnv.sha256
      (createAttestationGenerator sampleGenerator (some (.sgx2 sampleSgxDevice))) (str "sgx")
      (str "cert") ⟨raUserData (str "x") (nonceText sampleNonce)⟩ = .ok response ∧
    response.attestationReport = some report ∧
    Attests sampleVerifierEnv report (str "cert.x") (nonceText sampleNonce) ∧
    ¬ Attests sampleVerifierEnv report (str "root") (nonceText sampleNonce) := by
  obtain ⟨report, hreport⟩ :=
    sample_genRaReport (raUserData (str "cert") (raUserData (str "x") (nonceText sampleNonce)))
  have hanswer : RaProxy.getRaCert sampleVerifierEnv.sha256
      (createAttestationGenerator sampleGenerator (some (.sgx2 sampleSgxDevice))) (str "sgx")
      (str "cert") ⟨raUserData (str "x") (nonceText sampleNonce)⟩ =
        .ok ⟨⟨kCodeOk, str "success"⟩, some report, str "cert"⟩ := by
    rw [RaProxy.getRaCert, if_pos (by decide), hreport]
    rfl
  obtain ⟨report', hreport', _, _, hiff⟩ := getRaCert_attests_iff sampleVerifierEnv sampleGenerator
    (.sgx2 sampleSgxDevice) (str "sgx") (str "cert") _ _ sample_codecsAgree sampleSgxDevice_honest
    (by decide) hanswer
  cases hreport'
  have hfree : ∀ cert ∈ [str "cert.x", str "root"], sampleVerifierEnv.sha256.CollisionFree
      [raUserData (str "cert") (raUserData (str "x") (nonceText sampleNonce)),
        raUserData cert (nonceText sampleNonce)] := by
    unfold Sha256.CollisionFree
    decide
  refine ⟨_, report, hanswer, rfl, ?_, ?_⟩
  · exact (hiff _ _ (hfree _ (by simp))).mpr (.inr ⟨str "x", by decide, rfl⟩)
  · intro hother
    rcases (hiff _ _ (hfree _ (by simp))).mp hother with hcert | ⟨extra, hcert, _⟩
    · exact absurd hcert.1 (by decide)
    · have hlen := congrArg List.length hcert
      simp only [raUserData, List.length_append, show (str "root").length = 4 by decide,
        show (str "cert").length = 4 by decide, show (str ".").length = 1 by decide] at hlen
      omega

end TrustFlow.Proxy
