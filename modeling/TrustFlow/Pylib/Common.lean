import TrustFlow.PyJson

/-! # The attestation model of the Python package

The dataclasses that mirror the messages of the attestation library, and their JSON: an
instance is written as the dictionary of the fields that are set, at every depth, and is
read back by the `from_json` of its class, which rebuilds the nested instances by hand. -/

namespace TrustFlow.Pylib

open PyValue

inductive DataClass where
  | attestationGenerationParams
  | attestationReportParams
  | attestationReport
  | attestationAttribute
  | attestationPolicy
  | attestationNestedPolicies
  | attestationNestedPolicy
deriving DecidableEq

/-! ## The dataclasses -/

structure AttestationReportParams where
  strReportIdentity : Option PyStr := none
  hexUserData : Option PyStr := none
  jsonNestedReports : Option PyStr := none
  pemPublicKey : Option PyStr := none
  hexSpid : Option PyStr := none

structure AttestationGenerationParams where
  teeIdentity : PyStr
  reportType : PyStr
  reportHexNonce : Option PyStr := none
  reportParams : Option AttestationReportParams := none

structure AttestationReport where
  strReportVersion : PyStr
  strReportType : PyStr
  strTeePlatform : PyStr
  jsonReport : PyStr
  jsonNestedReports : Option PyStr := none

structure AttestationAttribute where
  strTeePlatform : Option PyStr := none
  hexPlatformHwVersion : Option PyStr := none
  hexPlatformSwVersion : Option PyStr := none
  hexSecureFlags : Option PyStr := none
  hexPlatformMeasurement : Option PyStr := none
  hexBootMeasurement : Option PyStr := none
  strTeeName : Option PyStr := none
  strTeeIdentity : Option PyStr := none
  hexTaMeasurement : Option PyStr := none
  hexTaDynMeasurement : Option PyStr := none
  hexSigner : Option PyStr := none
  hexProdId : Option PyStr := none
  strMinIsvsvn : Option PyStr := none
  boolDebugDisabled : Option PyStr := none
  hexUserData : Option PyStr := none
  hexHashOrPemPubkey : Option PyStr := none
  hexNonce : Option PyStr := none
  hexSpid : Option PyStr := none
  strVerifiedTime : Option PyStr := none

structure AttestationNestedPolicy where
  subAttributes : Option (List AttestationAttribute) := none

structure AttestationNestedPolicies where
  strGroupName : Option PyStr := none
  strGroupId : Option PyStr := none
  policies : Option (List AttestationNestedPolicy) := none

structure AttestationPolicy where
  pemPublicKey : Option PyStr := none
  mainAttributes : Option (List AttestationAttribute) := none
  nestedPolicies : Option AttestationNestedPolicies := none

def required (name : String) : PyField := ⟨py name, true⟩

def optional (name : String) : PyField := ⟨py name, false⟩

/-- The fields of each class, in the order of their declaration. -/
def schema : DataClass → List PyField
  | .attestationGenerationParams =>
    [required "tee_identity", required "report_type", optional "report_hex_nonce",
      optional "report_params"]
  | .attestationReportParams =>
    [optional "str_report_identity", optional "hex_user_data", optional "json_nested_reports",
      optional "pem_public_key", optional "hex_spid"]
  | .attestationReport =>
    [required "str_report_version", required "str_report_type", required "str_tee_platform",
      required "json_report", optional "json_nested_reports"]
  | .attestationAttribute =>
    [optional "str_tee_platform", optional "hex_platform_hw_version",
      optional "hex_platform_sw_version", optional "hex_secure_flags",
      optional "hex_platform_measurement", optional "hex_boot_measurement",
      optional "str_tee_name", optional "str_tee_identity", optional "hex_ta_measurement",
      optional "hex_ta_dyn_measurement", optional "hex_signer", optional "hex_prod_id",
      optional "str_min_isvsvn", optional "bool_debug_disabled", optional "hex_user_data",
      optional "hex_hash_or_pem_pubkey", optional "hex_nonce", optional "hex_spid",
      optional "str_verified_time"]
  | .attestationPolicy =>
    [optional "pem_public_key", optional "main_attributes", optional "nested_policies"]
  | .attestationNestedPolicies =>
    [optional "str_group_name", optional "str_group_id", optional "policies"]
  | .attestationNestedPolicy => [optional "sub_attributes"]

/-! ## Instances as Python values -/

section Instances

abbrev Value := JsonValue DataClass

variable {α : Type}

/-- The value of an `Optional` field. -/
def orNone (toPy : α → Value) : Option α → Value
  | .some x => toPy x
  | .none => PyValue.none

def optList (toPy : α → Value) (items : Option (List α)) : Value :=
  orNone (fun items => .list (items.map toPy)) items

/-- An instance, from the values of its fields in the order of their declaration. -/
def instanceOf (cls : DataClass) (values : List (Value)) : Value :=
  .object cls (((schema cls).map PyField.name).zip values)

def AttestationReportParams.toPy (x : AttestationReportParams) : Value :=
  instanceOf .attestationReportParams
    [optStr x.strReportIdentity, optStr x.hexUserData, optStr x.jsonNestedReports,
      optStr x.pemPublicKey, optStr x.hexSpid]

def AttestationGenerationParams.toPy (x : AttestationGenerationParams) : Value :=
  instanceOf .attestationGenerationParams
    [.str x.teeIdentity, .str x.reportType, optStr x.reportHexNonce,
      orNone AttestationReportParams.toPy x.reportParams]

def AttestationReport.toPy (x : AttestationReport) : Value :=
  instanceOf .attestationReport
    [.str x.strReportVersion, .str x.strReportType, .str x.strTeePlatform, .str x.jsonReport,
      optStr x.jsonNestedReports]

def AttestationAttribute.toPy (x : AttestationAttribute) : Value :=
  instanceOf .attestationAttribute
    [optStr x.strTeePlatform, optStr x.hexPlatformHwVersion, optStr x.hexPlatformSwVersion,
      optStr x.hexSecureFlags, optStr x.hexPlatformMeasurement, optStr x.hexBootMeasurement,
      optStr x.strTeeName, optStr x.strTeeIdentity, optStr x.hexTaMeasurement,
      optStr x.hexTaDynMeasurement, optStr x.hexSigner, optStr x.hexProdId,
      optStr x.strMinIsvsvn, optStr x.boolDebugDisabled, optStr x.hexUserData,
      optStr x.hexHashOrPemPubkey, optStr x.hexNonce, optStr x.hexSpid,
      optStr x.strVerifiedTime]

def AttestationNestedPolicy.toPy (x : AttestationNestedPolicy) : Value :=
  instanceOf .attestationNestedPolicy [optList AttestationAttribute.toPy x.subAttributes]

def AttestationNestedPolicies.toPy (x : AttestationNestedPolicies) : Value :=
  instanceOf .attestationNestedPolicies
    [optStr x.strGroupName, optStr x.strGroupId,
      optList AttestationNestedPolicy.toPy x.policies]

def AttestationPolicy.toPy (x : AttestationPolicy) : Value :=
  instanceOf .attestationPolicy
    [optStr x.pemPublicKey, optList AttestationAttribute.toPy x.mainAttributes,
      orNone AttestationNestedPolicies.toPy x.nestedPolicies]

end Instances

/-! ## Writing -/

mutual

/-- Dictionaries are returned as they are, as texts and scalars are. -/
def filterNoneValues : Value → Value
  | .object _ attrs => .dict (filterFields attrs)
  | .list items => .list (filterItems items)
  | v => v

/-- The loop over the fields of an instance; their names are different, so each one that is
    set is a new item of the result. -/
def filterFields : List (PyStr × Value) → List (PyStr × Value)
  | [] => []
  | (name, value) :: attrs =>
    if value.isNone then filterFields attrs
    else
      let filteredValue := filterNoneValues value
      if filteredValue.isNone then filterFields attrs
      else (name, filteredValue) :: filterFields attrs

/-- The loop over the items of a list. -/
def filterItems : List (Value) → List (Value)
  | [] => []
  | item :: items =>
    let filteredItem := filterNoneValues item
    if filteredItem.isNone then filterItems items else filteredItem :: filterItems items

end

/-- The `to_json` that every class has. -/
def toJson (self : Value) : Except PyError PyStr :=
  PyJson.dumps (some 2) (filterNoneValues self)

/-! ## Reading -/

/-- The `from_json` of a class: some items of the dictionary are converted, one after the
    other, and the result is unpacked into the constructor.  Data that is not a dictionary
    raises a TypeError, in a conversion or in the constructor. -/
def decodeWith (cls : DataClass)
    (conversions : List (PyStr × (Value → Except PyError Value))) (jsonStr : PyStr) :
    Except PyError Value := do
  match ← PyJson.loads jsonStr with
  | .dict data =>
    let data ← conversions.foldlM (fun data c => convert c.1 c.2 data) data
    construct schema cls data
  | _ => .error .typeError

def AttestationGenerationParams.fromJson : PyStr → Except PyError Value :=
  decodeWith .attestationGenerationParams
    [(py "report_params", constructFrom schema .attestationReportParams)]

def AttestationReportParams.fromJson : PyStr → Except PyError Value :=
  decodeWith .attestationReportParams []

def AttestationReport.fromJson : PyStr → Except PyError Value :=
  decodeWith .attestationReport []

def AttestationAttribute.fromJson : PyStr → Except PyError Value :=
  decodeWith .attestationAttribute []

def AttestationNestedPolicy.fromJson : PyStr → Except PyError Value :=
  decodeWith .attestationNestedPolicy
    [(py "sub_attributes", listOf (constructFrom schema .attestationAttribute))]

/-- `cls.from_json(json.dumps(value))`. -/
def reload (fromJson : PyStr → Except PyError Value) (value : Value) : Except PyError Value := do
  let text ← PyJson.dumps Option.none value
  fromJson text

def AttestationNestedPolicies.fromJson : PyStr → Except PyError Value :=
  decodeWith .attestationNestedPolicies
    [(py "policies", listOf (reload AttestationNestedPolicy.fromJson))]

def AttestationPolicy.fromJson : PyStr → Except PyError Value :=
  decodeWith .attestationPolicy
    [(py "main_attributes", listOf (constructFrom schema .attestationAttribute)),
      (py "nested_policies", reload AttestationNestedPolicies.fromJson)]

end TrustFlow.Pylib
