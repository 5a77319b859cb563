import TrustFlow.Attestation.CsvVerifier
import TrustFlow.Attestation.Sgx2Verifier
import TrustFlow.Attestation.TdxVerifier
import TrustFlow.Attestation.VerifyAttributes

/-! # The attestation verifier

The three platform verifiers behind the interface `AttestationVerifier`, the
factory that picks one by the platform name of a report, and `VerifyReport`:
verify the platform, parse the report, verify the attributes. -/

namespace TrustFlow.Attestation

/-- The libraries below the verifiers, and the memory behind their buffers. -/
structure VerifierEnv where
  sha256 : Sha256
  codec : ReportCodec
  sgxQvl : DcapQvl
  tdxQvl : DcapQvl
  sm2 : CsvAttestationVerifier.Sm2
  beyond : Nat → UInt8

inductive AttestationVerifier where
  | sgx2 (v : DcapVerifier)
  | tdx (v : DcapVerifier)
  | csv (v : CsvAttestationVerifier.Verifier)

/-- `VerifierFactory::Create` with the three platforms registered. -/
def createVerifier (env : VerifierEnv) (report : UnifiedAttestationReport) :
    Except Exn AttestationVerifier :=
  if report.strTeePlatform = kPlatformTdx then
    AttestationVerifier.tdx <$> TdxAttestationVerifier.init env.codec report
  else if report.strTeePlatform = kPlatformSgxDcap then
    AttestationVerifier.sgx2 <$> Sgx2AttestationVerifier.init env.codec report
  else if report.strTeePlatform = kPlatformCsv then
    AttestationVerifier.csv <$> CsvAttestationVerifier.init env.codec report
  else
    .error ⟨.enforceNotMet, str "Supported platform list: " ++ kPlatformTdx ++ str ", " ++
      kPlatformSgxDcap ++ str ", " ++ kPlatformCsv ++ str ", but not include " ++
      report.strTeePlatform⟩

namespace AttestationVerifier

def report : AttestationVerifier → UnifiedAttestationReport
  | .sgx2 v => v.report
  | .tdx v => v.report
  | .csv v => v.report

def verifyPlatform (env : VerifierEnv) : AttestationVerifier → ReadM Unit
  | .sgx2 v => Sgx2AttestationVerifier.verifyPlatform env.sgxQvl v
  | .tdx v => TdxAttestationVerifier.verifyPlatform env.tdxQvl v
  | .csv v => CsvAttestationVerifier.verifyPlatform env.sm2 env.beyond v

def parseUnifiedReport (env : VerifierEnv) :
    AttestationVerifier → ReadM UnifiedAttestationAttributes
  | .sgx2 v => Sgx2AttestationVerifier.parseUnifiedReport env.beyond v
  | .tdx v => TdxAttestationVerifier.parseUnifiedReport env.beyond v
  | .csv v => CsvAttestationVerifier.parseUnifiedReport env.beyond v

def verifyReport (env : VerifierEnv) (v : AttestationVerifier)
    (policy : UnifiedAttestationPolicy) : ReadM Unit := do
  v.verifyPlatform env
  let attrs ← v.parseUnifiedReport env
  verifyAttributes env.sha256 attrs policy

/-! ## The steps of a verification -/

def PlatformVerified (env : VerifierEnv) (v : AttestationVerifier) : Prop :=
  ∃ log, (v.verifyPlatform env).run [] = .ok ((), log)

/-- The attributes that the bytes of the quote stand for, where the parser accepts it. -/
def HasAttributes (env : VerifierEnv) :
    AttestationVerifier → UnifiedAttestationAttributes → Prop
  | .sgx2 v, attrs => Sgx2AttestationVerifier.sizeofQuote3 ≤ v.quote.length ∧
      attrs = Sgx2AttestationVerifier.attributes v
  | .tdx v, attrs => ∃ body, TdxAttestationVerifier.Readable v.quote body ∧
      attrs = TdxAttestationVerifier.attributes env.beyond v body
  | .csv v, attrs => attrs = CsvAttestationVerifier.attributes env.beyond v

/-- Parsing returns the attributes of the quote, whatever was read before. -/
theorem exists_parse_iff {env : VerifierEnv} {v : AttestationVerifier}
    {attrs : UnifiedAttestationAttributes} (log : List Access) :
    (∃ log', (v.parseUnifiedReport env).run log = .ok (attrs, log')) ↔
      v.HasAttributes env attrs := by
  cases v with
  | sgx2 v =>
    simp only [parseUnifiedReport, HasAttributes, Sgx2AttestationVerifier.parseUnifiedReport_eq_ok]
    simp
  | tdx v =>
    simp only [parseUnifiedReport, HasAttributes, TdxAttestationVerifier.parseUnifiedReport_eq_ok]
    constructor
    · rintro ⟨log', body, hbody, hattrs, _⟩
      exact ⟨body, hbody, hattrs⟩
    · rintro ⟨body, hbody, hattrs⟩
      exact ⟨_, body, hbody, hattrs, rfl⟩
  | csv v =>
    simp only [parseUnifiedReport, HasAttributes, CsvAttestationVerifier.run_parseUnifiedReport]
    constructor
    · rintro ⟨log', h⟩
      cases h
      rfl
    · rintro rfl
      exact ⟨_, rfl⟩

theorem HasAttributes.unique {env : VerifierEnv} {v : AttestationVerifier}
    {attrs attrs' : UnifiedAttestationAttributes} (h : v.HasAttributes env attrs)
    (h' : v.HasAttributes env attrs') : attrs = attrs' := by
  obtain ⟨log, hlog⟩ := (exists_parse_iff []).mpr h
  obtain ⟨log', hlog'⟩ := (exists_parse_iff []).mpr h'
  rw [hlog] at hlog'
  cases hlog'
  rfl

theorem HasAttributes.unset {env : VerifierEnv} {v : AttestationVerifier}
    {attrs : UnifiedAttestationAttributes} (h : v.HasAttributes env attrs) :
    attrs.strTeeName = [] ∧ attrs.strTeeIdentity = [] ∧ attrs.hexSpid = [] := by
  cases v with
  | sgx2 v =>
    obtain ⟨_, rfl⟩ := h
    exact ⟨rfl, rfl, rfl⟩
  | tdx v =>
    obtain ⟨body, _, rfl⟩ := h
    exact ⟨rfl, rfl, rfl⟩
  | csv v =>
    obtain rfl := h
    exact ⟨rfl, rfl, rfl⟩

/-- A report is accepted exactly when its platform is verified and its attributes reach a
    matching rule. -/
theorem verifyReport_eq_ok {env : VerifierEnv} {v : AttestationVerifier}
    {policy : UnifiedAttestationPolicy} :
    (∃ log, (v.verifyReport env policy).run [] = .ok ((), log)) ↔
      v.PlatformVerified env ∧ ∃ attrs, v.HasAttributes env attrs ∧
        MatchReached env.sha256 attrs policy.mainAttributes := by
  simp only [verifyReport, StateT.run_bind]
  constructor
  · rintro ⟨log, h⟩
    obtain ⟨⟨_, log₁⟩, hplatform, h⟩ := bind_eq_ok.mp h
    obtain ⟨⟨attrs, log₂⟩, hparse, h⟩ := bind_eq_ok.mp h
    refine ⟨⟨log₁, hplatform⟩, attrs, (exists_parse_iff log₁).mp ⟨log₂, hparse⟩, ?_⟩
    rw [← verifyAttributes_eq_ok]
    cases hverify : verifyAttributes env.sha256 attrs policy with
    | error e => simp [hverify] at h
    | ok u => rfl
  · rintro ⟨⟨log₁, hplatform⟩, attrs, hattrs, hreached⟩
    obtain ⟨log₂, hparse⟩ := (exists_parse_iff log₁).mpr hattrs
    refine ⟨log₂, ?_⟩
    rw [hplatform, ok_bind, hparse, ok_bind, (verifyAttributes_eq_ok _ _ _).mpr hreached]
    rfl

end AttestationVerifier

end TrustFlow.Attestation
