import TrustFlow.ProtoJson
import TrustFlow.Attestation.CApi

/-! # The JSON form of the unified attestation messages

The fields of the messages under the names of their accessors, and with them the two macros of
`json2pb.h` for each message that the C API and the language bindings exchange as text. -/

namespace TrustFlow.Attestation

open ProtoJson

variable {γ κ : Type}

/-- A string field that none of the generators and verifiers reads. -/
def unreadField {α : Type} (name : String) : StrField α := ⟨name, fun _ => [], fun _ m => m⟩

def attributesFields : List (StrField UnifiedAttestationAttributes) :=
  [⟨"str_tee_platform", (·.strTeePlatform), fun b m => { m with strTeePlatform := b }⟩,
    ⟨"hex_platform_hw_version", (·.hexPlatformHwVersion),
      fun b m => { m with hexPlatformHwVersion := b }⟩,
    ⟨"hex_platform_sw_version", (·.hexPlatformSwVersion),
      fun b m => { m with hexPlatformSwVersion := b }⟩,
    ⟨"hex_secure_flags", (·.hexSecureFlags), fun b m => { m with hexSecureFlags := b }⟩,
    ⟨"hex_platform_measurement", (·.hexPlatformMeasurement),
      fun b m => { m with hexPlatformMeasurement := b }⟩,
    ⟨"hex_boot_measurement", (·.hexBootMeasurement),
      fun b m => { m with hexBootMeasurement := b }⟩,
    ⟨"str_tee_name", (·.strTeeName), fun b m => { m with strTeeName := b }⟩,
    ⟨"str_tee_identity", (·.strTeeIdentity), fun b m => { m with strTeeIdentity := b }⟩,
    ⟨"hex_ta_measurement", (·.hexTaMeasurement), fun b m => { m with hexTaMeasurement := b }⟩,
    ⟨"hex_ta_dyn_measurement", (·.hexTaDynMeasurement),
      fun b m => { m with hexTaDynMeasurement := b }⟩,
    ⟨"hex_signer", (·.hexSigner), fun b m => { m with hexSigner := b }⟩,
    ⟨"hex_prod_id", (·.hexProdId), fun b m => { m with hexProdId := b }⟩,
    ⟨"str_min_isvsvn", (·.strMinIsvsvn), fun b m => { m with strMinIsvsvn := b }⟩,
    ⟨"bool_debug_disabled", (·.boolDebugDisabled), fun b m => { m with boolDebugDisabled := b }⟩,
    ⟨"hex_user_data", (·.hexUserData), fun b m => { m with hexUserData := b }⟩,
    ⟨"hex_hash_or_pem_pubkey", (·.hexHashOrPemPubkey),
      fun b m => { m with hexHashOrPemPubkey := b }⟩,
    ⟨"hex_nonce", (·.hexNonce), fun b m => { m with hexNonce := b }⟩,
    ⟨"hex_spid", (·.hexSpid), fun b m => { m with hexSpid := b }⟩,
    ⟨"str_verified_time", (·.strVerifiedTime), fun b m => { m with strVerifiedTime := b }⟩]

def reportFields : List (StrField UnifiedAttestationReport) :=
  [⟨"str_report_version", (·.strReportVersion), fun b m => { m with strReportVersion := b }⟩,
    ⟨"str_report_type", (·.strReportType), fun b m => { m with strReportType := b }⟩,
    ⟨"str_tee_platform", (·.strTeePlatform), fun b m => { m with strTeePlatform := b }⟩,
    ⟨"json_report", (·.jsonReport), fun b m => { m with jsonReport := b }⟩,
    ⟨"json_nested_reports", (·.jsonNestedReports), fun b m => { m with jsonNestedReports := b }⟩]

def reportParamsFields : List (StrField UnifiedAttestationReportParams) :=
  [unreadField "str_report_identity",
    ⟨"hex_user_data", (·.hexUserData), fun b m => { m with hexUserData := b }⟩,
    unreadField "json_nested_reports",
    ⟨"pem_public_key", (·.pemPublicKey), fun b m => { m with pemPublicKey := b }⟩,
    unreadField "hex_spid"]

/-- The string fields of `UnifiedAttestationGenerationParams`. -/
def generationParamsStrFields : List (StrField UnifiedAttestationGenerationParams) :=
  [⟨"tee_identity", (·.teeIdentity), fun b m => { m with teeIdentity := b }⟩,
    ⟨"report_type", (·.reportType), fun b m => { m with reportType := b }⟩,
    ⟨"report_hex_nonce", (·.reportHexNonce), fun b m => { m with reportHexNonce := b }⟩]

def generationParamsFields : List (Field γ κ UnifiedAttestationGenerationParams) :=
  generationParamsStrFields.map StrField.field ++
    [messageField "report_params" (·.reportParams) (fun p m => { m with reportParams := p })
      (reportParamsFields.map StrField.field)]

def nestedPolicyFields : List (Field γ κ UnifiedAttestationNestedPolicy) :=
  [repeatedField "sub_attributes" (·.subAttributes)
    (fun rules m => { m with subAttributes := rules }) {} (attributesFields.map StrField.field)]

/-- The string fields of `UnifiedAttestationNestedPolicies`. -/
def nestedPoliciesStrFields : List (StrField UnifiedAttestationNestedPolicies) :=
  [⟨"str_group_name", (·.strGroupName), fun b m => { m with strGroupName := b }⟩,
    ⟨"str_group_id", (·.strGroupId), fun b m => { m with strGroupId := b }⟩]

def nestedPoliciesFields : List (Field γ κ UnifiedAttestationNestedPolicies) :=
  nestedPoliciesStrFields.map StrField.field ++
    [repeatedField "policies" (·.policies) (fun policies m => { m with policies := policies }) {}
      nestedPolicyFields]

/-- The string field of `UnifiedAttestationPolicy`. -/
def policyStrFields : List (StrField UnifiedAttestationPolicy) :=
  [⟨"pem_public_key", (·.pemPublicKey), fun b m => { m with pemPublicKey := b }⟩]

def policyFields : List (Field γ κ UnifiedAttestationPolicy) :=
  policyStrFields.map StrField.field ++
    [repeatedField "main_attributes" (·.mainAttributes)
        (fun rules m => { m with mainAttributes := rules }) {}
        (attributesFields.map StrField.field),
      messageField "nested_policies" (·.nestedPolicies) (fun p m => { m with nestedPolicies := p })
        nestedPoliciesFields]

/-- `JSON2PB` and `PB2JSON` for each of the messages. -/
def protoJsonCodec (json : JsonText γ κ) : JsonCodec where
  decodeReport := json.decode (reportFields.map StrField.field) {}
  decodePolicy := json.decode policyFields {}
  decodeParams := json.decode generationParamsFields {}
  encodeAttributes := json.encode attributesFields
  encodeReport := json.encode reportFields

/-! ## The tables -/

theorem lawful_attributesFields : Lawful attributesFields where
  set_get := by simp [attributesFields]
  apart := by simp [attributesFields]

theorem lawful_reportFields : Lawful reportFields where
  set_get := by simp [reportFields]
  apart := by simp [reportFields]

theorem lawful_reportParamsFields : Lawful reportParamsFields where
  set_get := by simp [reportParamsFields, unreadField]
  apart := by simp [reportParamsFields, unreadField]

theorem namesApart_strFields {α : Type} {fields : List (StrField α)}
    (hnodup : (fields.map StrField.name).Nodup)
    (h : ∀ name ∈ fields.map StrField.name, '_' ∈ name.toList) :
    NamesApart (fields.map (StrField.field (γ := γ) (κ := κ))) :=
  namesApart_of_names (fields.map StrField.name) (by simp [StrField.field])
    (pairwise_of_underscore hnodup h)

theorem namesApart_attributesFields :
    NamesApart (attributesFields.map (StrField.field (γ := γ) (κ := κ))) :=
  namesApart_strFields (by decide) (by decide)

theorem namesApart_reportFields :
    NamesApart (reportFields.map (StrField.field (γ := γ) (κ := κ))) :=
  namesApart_strFields (by decide) (by decide)

theorem namesApart_reportParamsFields :
    NamesApart (reportParamsFields.map (StrField.field (γ := γ) (κ := κ))) :=
  namesApart_strFields (by decide) (by decide)

theorem namesApart_generationParamsFields :
    NamesApart (generationParamsFields (γ := γ) (κ := κ)) :=
  namesApart_of_names ["tee_identity", "report_type", "report_hex_nonce", "report_params"] rfl
    (by decide)

theorem namesApart_nestedPoliciesFields : NamesApart (nestedPoliciesFields (γ := γ) (κ := κ)) :=
  namesApart_of_names ["str_group_name", "str_group_id", "policies"] rfl (by decide)

theorem namesApart_policyFields : NamesApart (policyFields (γ := γ) (κ := κ)) :=
  namesApart_of_names ["pem_public_key", "main_attributes", "nested_policies"] rfl (by decide)

end TrustFlow.Attestation
