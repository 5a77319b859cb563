import TrustFlow.Attestation.AttrsIsMatch
import TrustFlow.Data.Lists

/-! # Verifying attributes against a policy

`verifyAttributes` tries the rules of a policy in order, collects the text of each
failed match, and throws when no rule is left.  It is meant to accept when some
rule matches.  A string mismatch, however, is thrown out of the helper and ends
the loop with it, so a later rule is only reached past rules whose mismatch is in
the ISV SVN or in the debug flag.
-/

namespace TrustFlow.Attestation

def joinLines : List Bytes → Bytes
  | [] => []
  | [line] => line
  | line :: lines => line ++ str "\n" ++ joinLines lines

/-- The loop of `VerifyAttributes` from rule `i` on, with the messages collected so far. -/
def verifyAttributesFrom (H : Sha256) (actual : UnifiedAttestationAttributes) :
    Nat → List Bytes → List UnifiedAttestationAttributes → Except Exn Unit
  | _, errorMsgs, [] =>
    yaclThrow (str "Verify attributes failed:\n " ++ joinLines errorMsgs ++ str ".")
  | i, errorMsgs, expected :: rules =>
    match attrsIsMatch H actual expected with
    -- A mismatch that is thrown leaves the loop: no later rule is tried.
    | .error e => .error e
    | .ok .pass => .ok ()
    | .ok (.fail errorMsg) =>
      verifyAttributesFrom H actual (i + 1)
        (errorMsgs ++ [str "#" ++ decimal i ++ str ": " ++ errorMsg]) rules

def verifyAttributes (H : Sha256) (actual : UnifiedAttestationAttributes)
    (policy : UnifiedAttestationPolicy) : Except Exn Unit :=
  verifyAttributesFrom H actual 0 [] policy.mainAttributes

/-! ## Which rules the loop gets past -/

/-- The loop goes on after this rule: the string fields up to the product id agree, and the
    mismatch is in the ISV SVN or in the debug flag. -/
def PassesOver (actual rule : UnifiedAttestationAttributes) : Prop :=
  EarlyFieldsMet actual rule ∧ ¬ CountedFieldsMet actual rule

instance (actual rule : UnifiedAttestationAttributes) : Decidable (PassesOver actual rule) := by
  unfold PassesOver; infer_instance

/-- Some rule matches, and the loop gets past every rule before it. -/
def MatchReached (H : Sha256) (actual : UnifiedAttestationAttributes)
    (rules : List UnifiedAttestationAttributes) : Prop :=
  ∃ before rule after, rules = before ++ rule :: after ∧
    (∀ r ∈ before, PassesOver actual r) ∧ MeetsRule H actual rule

theorem PassesOver.not_meets {H : Sha256} {actual rule : UnifiedAttestationAttributes}
    (h : PassesOver actual rule) : ¬ MeetsRule H actual rule :=
  fun hmeets => h.2 hmeets.2.1

theorem matchReached_cons_of_passesOver {H : Sha256} {actual rule : UnifiedAttestationAttributes}
    {rules : List UnifiedAttestationAttributes} (h : PassesOver actual rule) :
    MatchReached H actual (rule :: rules) ↔ MatchReached H actual rules := by
  constructor
  · rintro ⟨before, met, after, hrules, hbefore, hmet⟩
    cases before with
    | nil =>
      -- The split cannot be at the rule itself, which does not match.
      simp only [List.nil_append, List.cons.injEq] at hrules
      exact absurd (hrules.1 ▸ hmet) h.not_meets
    | cons first before =>
      simp only [List.cons_append, List.cons.injEq] at hrules
      exact ⟨before, met, after, hrules.2, fun r hr => hbefore r (List.mem_cons_of_mem _ hr), hmet⟩
  · rintro ⟨before, met, after, rfl, hbefore, hmet⟩
    refine ⟨rule :: before, met, after, rfl, ?_, hmet⟩
    intro r hr
    rcases List.mem_cons.mp hr with rfl | hr
    · exact h
    · exact hbefore r hr

theorem verifyAttributesFrom_eq_ok (H : Sha256) (actual : UnifiedAttestationAttributes)
    (i : Nat) (errorMsgs : List Bytes) (rules : List UnifiedAttestationAttributes) :
    verifyAttributesFrom H actual i errorMsgs rules = .ok () ↔ MatchReached H actual rules := by
  -- The number of the rule and the collected messages only enter the final text.
  induction rules generalizing i errorMsgs with
  | nil =>
    constructor
    · intro h
      simp [verifyAttributesFrom, yaclThrow] at h
    · rintro ⟨before, rule, after, hrules, _⟩
      cases before <;> simp at hrules
  | cons rule rules ih =>
    cases hmatch : attrsIsMatch H actual rule with
    | error e =>
      simp only [verifyAttributesFrom, hmatch, reduceCtorEq, false_iff]
      rintro ⟨before, met, after, hrules, hbefore, hmet⟩
      -- The throwing rule would have to be the one that matches or one the loop gets past.
      cases before with
      | nil =>
        simp only [List.nil_append, List.cons.injEq] at hrules
        rw [← hrules.1, ← attrsIsMatch_eq_pass, hmatch] at hmet
        cases hmet
      | cons first before =>
        simp only [List.cons_append, List.cons.injEq] at hrules
        have hfirst := hbefore first List.mem_cons_self
        rw [← hrules.1, PassesOver, ← attrsIsMatch_eq_fail H, hmatch] at hfirst
        obtain ⟨m, hm⟩ := hfirst
        cases hm
    | ok result =>
      cases result with
      | pass =>
        have hmet : MeetsRule H actual rule := (attrsIsMatch_eq_pass H actual rule).mp hmatch
        simp only [verifyAttributesFrom, hmatch, true_iff]
        exact ⟨[], rule, rules, rfl, fun r hr => absurd hr List.not_mem_nil, hmet⟩
      | fail errorMsg =>
        have hover : PassesOver actual rule :=
          (attrsIsMatch_eq_fail H actual rule).mp ⟨errorMsg, hmatch⟩
        simp only [verifyAttributesFrom, hmatch]
        rw [ih, matchReached_cons_of_passesOver hover]

theorem verifyAttributes_eq_ok (H : Sha256) (actual : UnifiedAttestationAttributes)
    (policy : UnifiedAttestationPolicy) :
    verifyAttributes H actual policy = .ok () ↔
      MatchReached H actual policy.mainAttributes :=
  verifyAttributesFrom_eq_ok H actual 0 [] policy.mainAttributes

theorem verifyAttributes_singleton (H : Sha256) (actual rule : UnifiedAttestationAttributes)
    (policy : UnifiedAttestationPolicy) (hpolicy : policy.mainAttributes = [rule]) :
    verifyAttributes H actual policy = .ok () ↔ MeetsRule H actual rule := by
  rw [verifyAttributes_eq_ok, hpolicy]
  constructor
  · rintro ⟨before, met, after, hrules, _, hmet⟩
    cases before with
    | nil =>
      simp only [List.nil_append, List.cons.injEq] at hrules
      rw [hrules.1]
      exact hmet
    | cons first before => simp at hrules
  · intro hmet
    exact ⟨[], rule, [], rfl, fun r hr => absurd hr List.not_mem_nil, hmet⟩

/-! ## Any-of semantics -/

/-- Every rule in front of the first one that matches is one the loop gets past. -/
def FirstMatchUnobstructed (H : Sha256) (actual : UnifiedAttestationAttributes)
    (rules : List UnifiedAttestationAttributes) : Prop :=
  ∀ before rule after, rules = before ++ rule :: after →
    (∀ r ∈ before, ¬ MeetsRule H actual r) → MeetsRule H actual rule →
      ∀ r ∈ before, PassesOver actual r

/-- The verifier accepts exactly the attributes that some rule matches, if and only if no rule
    in front of the first match fails in a string field. -/
theorem verifyAttributes_anyOf_iff (H : Sha256) (actual : UnifiedAttestationAttributes)
    (policy : UnifiedAttestationPolicy) :
    (verifyAttributes H actual policy = .ok () ↔
        ∃ rule ∈ policy.mainAttributes, MeetsRule H actual rule) ↔
      FirstMatchUnobstructed H actual policy.mainAttributes := by
  rw [verifyAttributes_eq_ok]
  constructor
  · intro hanyOf before rule after hrules hbefore hmeets
    have hmem : rule ∈ policy.mainAttributes := by simp [hrules]
    obtain ⟨before', rule', after', hrules', hover, hmeets'⟩ := hanyOf.mpr ⟨rule, hmem, hmeets⟩
    -- Both splits are at the first rule that matches.
    obtain ⟨rfl, _, _⟩ := first_split_unique hbefore hmeets
      (fun r hr => (hover r hr).not_meets) hmeets' (hrules.symm.trans hrules')
    exact hover
  · intro hfree
    constructor
    · rintro ⟨before, rule, after, hrules, _, hmeets⟩
      exact ⟨rule, by simp [hrules], hmeets⟩
    · intro hsome
      -- Take the first rule that matches: the loop gets to it.
      obtain ⟨before, rule, after, hrules, hbefore, hmeets⟩ := exists_first_split hsome
      exact ⟨before, rule, after, hrules, hfree before rule after hrules hbefore hmeets, hmeets⟩

/-- Two rules, one for each platform, and a report of the second platform: the mismatch in the
    first rule is thrown and the second rule is never tried. -/
theorem verifyAttributes_anyOf_fails :
    ¬ (verifyAttributes paddingSha256 { strTeePlatform := str "TDX" }
          { mainAttributes := [{ strTeePlatform := str "SGX_DCAP" },
            { strTeePlatform := str "TDX" }] } = .ok () ↔
        ∃ rule ∈ ({ mainAttributes := [{ strTeePlatform := str "SGX_DCAP" },
            { strTeePlatform := str "TDX" }] } : UnifiedAttestationPolicy).mainAttributes,
          MeetsRule paddingSha256 { strTeePlatform := str "TDX" } rule) := by
  decide

end TrustFlow.Attestation
