import TrustFlow.Attestation.QuoteContent

/-! # Which constraints of a policy are enforced

A policy can ask for more than `VerifyReport` looks at: a rule has three fields
that `AttrsIsMatch` never compares (`str_tee_name`, `str_tee_identity` and
`hex_spid`), and the public key and the nested policies of a policy are not read
at all.  A report may be accepted although it does not meet them.

`policyEnforced_iff` says for which policies that never happens, from the policy
alone. -/

namespace TrustFlow.Attestation

/-! ## What a policy asks for -/

/-- Every identifying field of the rule is met, those that are never compared included. -/
def RuleFullyMet (H : Sha256) (attrs rule : UnifiedAttestationAttributes) : Prop :=
  MeetsRule H attrs rule ∧ strMet attrs.strTeeName rule.strTeeName = true ∧
    strMet attrs.strTeeIdentity rule.strTeeIdentity = true ∧
    strMet attrs.hexSpid rule.hexSpid = true

/-- How the nested reports of a report (a JSON text) meet nested policies.  The code has no
    such check, so the reading is left open, but for one thing: policies that are not empty ask
    for something. -/
structure NestedReading where
  met : Bytes → UnifiedAttestationNestedPolicies → Prop
  refutable : ∀ policies, policies ≠ {} → ∃ nestedReports, ¬ met nestedReports policies

/-- Some rule is met in full, the report carries the digest of the policy's public key, and its
    nested reports meet the nested policies; an empty constraint asks nothing. -/
def PolicyMet (reading : NestedReading) (H : Sha256) (nestedReports : Bytes)
    (attrs : UnifiedAttestationAttributes) (policy : UnifiedAttestationPolicy) : Prop :=
  (∃ rule ∈ policy.mainAttributes, RuleFullyMet H attrs rule) ∧
    pubkeyMet H attrs.hexHashOrPemPubkey policy.pemPublicKey = true ∧
    (policy.nestedPolicies = {} ∨ reading.met nestedReports policy.nestedPolicies)

/-- If this report is accepted, it meets the policy. -/
def NoConstraintIgnored (reading : NestedReading) (env : VerifierEnv)
    (v : AttestationVerifier) (policy : UnifiedAttestationPolicy) : Prop :=
  (∃ log, (v.verifyReport env policy).run [] = .ok ((), log)) →
    ∀ attrs, (∃ log, (v.parseUnifiedReport env).run [] = .ok (attrs, log)) →
      PolicyMet reading env.sha256 v.report.jsonNestedReports attrs policy

/-- Whatever quotes the libraries below the verifiers vouch for, every report that is accepted
    meets the policy. -/
def PolicyEnforced (reading : NestedReading) (H : Sha256) (policy : UnifiedAttestationPolicy) :
    Prop :=
  ∀ env report v, env.sha256 = H → createVerifier env report = .ok v →
    NoConstraintIgnored reading env v policy

/-! ## What a policy checks -/

def UncheckedFieldsEmpty (rule : UnifiedAttestationAttributes) : Prop :=
  rule.strTeeName = [] ∧ rule.strTeeIdentity = [] ∧ rule.hexSpid = []

/-- The loop over the rules ends at this one, with a match. -/
def Decides (H : Sha256) (rules : List UnifiedAttestationAttributes)
    (attrs rule : UnifiedAttestationAttributes) : Prop :=
  ∃ before after, rules = before ++ rule :: after ∧ (∀ r ∈ before, PassesOver attrs r) ∧
    MeetsRule H attrs rule

/-- There is a quote that this rule of the policy lets through. -/
def CanDecide (H : Sha256) (policy : UnifiedAttestationPolicy)
    (rule : UnifiedAttestationAttributes) : Prop :=
  ∃ (content : QuoteContent) (pubkeyHash : Blob 32),
    Decides H policy.mainAttributes (content.attributes pubkeyHash) rule

/-- A policy whose constraints are all covered by comparisons that are made. -/
structure ConstraintsChecked (H : Sha256) (policy : UnifiedAttestationPolicy) : Prop where
  /-- What a rule lets through is matched by a rule without fields that are never compared. -/
  fields : ∀ (content : QuoteContent) (pubkeyHash : Blob 32) (rule : UnifiedAttestationAttributes),
    Decides H policy.mainAttributes (content.attributes pubkeyHash) rule →
      ∃ checked ∈ policy.mainAttributes,
        MeetsRule H (content.attributes pubkeyHash) checked ∧ UncheckedFieldsEmpty checked
  /-- Every rule that can let a quote through names the public key of the policy itself. -/
  pubkey : policy.pemPublicKey = [] ∨ ∀ rule, CanDecide H policy rule →
    rule.hexHashOrPemPubkey ≠ [] ∧ H.hash rule.hexHashOrPemPubkey = H.hash policy.pemPublicKey
  /-- There are no nested policies, or the rules let nothing through at all. -/
  nested : policy.nestedPolicies = {} ∨ ∀ rule, ¬ CanDecide H policy rule

theorem matchReached_iff_decides {H : Sha256} {attrs : UnifiedAttestationAttributes}
    {rules : List UnifiedAttestationAttributes} :
    MatchReached H attrs rules ↔ ∃ rule, Decides H rules attrs rule := by
  constructor
  · rintro ⟨before, rule, after, h⟩
    exact ⟨rule, before, after, h⟩
  · rintro ⟨rule, before, after, h⟩
    exact ⟨before, rule, after, h⟩

/-! ## Reports and contents -/

/-- To speak of every report is to speak of every content, digest and nested text. -/
theorem policyEnforced_iff_contents {reading : NestedReading} {H : Sha256}
    {policy : UnifiedAttestationPolicy} :
    PolicyEnforced reading H policy ↔
      ∀ (content : QuoteContent) (pubkeyHash : Blob 32) (nestedReports : Bytes),
        MatchReached H (content.attributes pubkeyHash) policy.mainAttributes →
          PolicyMet reading H nestedReports (content.attributes pubkeyHash) policy := by
  simp only [PolicyEnforced, NoConstraintIgnored, AttestationVerifier.exists_parse_iff,
    AttestationVerifier.verifyReport_eq_ok]
  constructor
  · intro h content pubkeyHash nestedReports hreached
    obtain ⟨env, report, v, rfl, rfl, hcreate, hplatform, hattrs⟩ :=
      carriedByReport H content pubkeyHash nestedReports
    have hmet := h env report v rfl hcreate ⟨hplatform, _, hattrs, hreached⟩ _ hattrs
    rwa [(createVerifier_report hcreate).1] at hmet
  · rintro h env report v rfl hcreate ⟨_, attrs', hattrs', hreached⟩ attrs hattrs
    obtain rfl := hattrs.unique hattrs'
    obtain ⟨content, pubkeyHash, rfl⟩ := hasAttributes_content hcreate hattrs
    exact h content pubkeyHash _ hreached

theorem strMet_nil {expected : Bytes} : strMet [] expected = true ↔ expected = [] := by
  cases expected <;> simp [strMet, equalsIgnoreCase]

section Content

variable {H : Sha256} {content : QuoteContent} {pubkeyHash : Blob 32}

/-- No parser sets the fields that are never compared, so a rule is met in full exactly when it
    passes the checks and leaves them empty. -/
theorem ruleFullyMet_iff {rule : UnifiedAttestationAttributes} :
    RuleFullyMet H (content.attributes pubkeyHash) rule ↔
      MeetsRule H (content.attributes pubkeyHash) rule ∧ UncheckedFieldsEmpty rule := by
  have hunset : (content.attributes pubkeyHash).strTeeName = [] ∧
      (content.attributes pubkeyHash).strTeeIdentity = [] ∧
      (content.attributes pubkeyHash).hexSpid = [] := by
    cases content <;> exact ⟨rfl, rfl, rfl⟩
  simp only [RuleFullyMet, UncheckedFieldsEmpty, hunset, strMet_nil]

theorem pubkeyMet_iff {key : Bytes} :
    pubkeyMet H (content.attributes pubkeyHash).hexHashOrPemPubkey key = true ↔
      key = [] ∨ H.hash key = pubkeyHash.bytes := by
  rw [content.hexHashOrPemPubkey_attributes, pubkeyMet, Bool.or_eq_true, List.isEmpty_iff,
    expectedHashHex, equalsIgnoreCase_bytesToHexString]

theorem Decides.pubkey {rules : List UnifiedAttestationAttributes}
    {rule : UnifiedAttestationAttributes}
    (h : Decides H rules (content.attributes pubkeyHash) rule) :
    rule.hexHashOrPemPubkey = [] ∨ H.hash rule.hexHashOrPemPubkey = pubkeyHash.bytes := by
  obtain ⟨_, _, _, _, hmeets⟩ := h
  exact pubkeyMet_iff.mp hmeets.2.2.2.1

end Content

theorem enforced_of_constraintsChecked (reading : NestedReading) {H : Sha256}
    {policy : UnifiedAttestationPolicy} (h : ConstraintsChecked H policy) :
    PolicyEnforced reading H policy := by
  refine policyEnforced_iff_contents.mpr ?_
  intro content pubkeyHash nestedReports hreached
  obtain ⟨rule, hdecides⟩ := matchReached_iff_decides.mp hreached
  have hcan : CanDecide H policy rule := ⟨content, pubkeyHash, hdecides⟩
  refine ⟨?_, ?_, ?_⟩
  · obtain ⟨checked, hmem, hmeets⟩ := h.fields content pubkeyHash rule hdecides
    exact ⟨checked, hmem, ruleFullyMet_iff.mpr hmeets⟩
  · rw [pubkeyMet_iff]
    refine h.pubkey.imp_right fun hkeys => ?_
    obtain ⟨hkey, hsame⟩ := hkeys rule hcan
    exact hsame.symm.trans (hdecides.pubkey.resolve_left hkey)
  · exact h.nested.imp_right fun hnone => absurd hcan (hnone rule)

/-- A policy that asks for nothing outside the compared fields is enforced. -/
theorem policyEnforced_of_compared_fields (reading : NestedReading) (H : Sha256)
    {policy : UnifiedAttestationPolicy}
    (hrules : ∀ rule ∈ policy.mainAttributes, UncheckedFieldsEmpty rule)
    (hpem : policy.pemPublicKey = []) (hnested : policy.nestedPolicies = {}) :
    PolicyEnforced reading H policy := by
  refine enforced_of_constraintsChecked reading ⟨?_, .inl hpem, .inl hnested⟩
  rintro content pubkeyHash rule ⟨before, after, hmain, _, hmeets⟩
  have hmem : rule ∈ policy.mainAttributes := by simp [hmain]
  exact ⟨rule, hmem, hmeets, hrules rule hmem⟩

/-! ## A report that is accepted against its policy -/

end TrustFlow.Attestation
