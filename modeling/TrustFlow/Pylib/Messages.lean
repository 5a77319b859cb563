import TrustFlow.Pylib.RoundTrip
import TrustFlow.Attestation.UnifiedJson

/-! # From Python instances to protobuf messages

The C++ library reads what `to_json` writes.  The names in the JSON are those of the dataclass,
which are the names of the protobuf fields, so every field that is set arrives, and one that is
None has its default value.

* `foldlM_filterFields` — the fields that the filter has left out would have changed nothing;
* `decodes_policy`, `decodes_report`, `decodes_generationParams` — each class is read as the
  message that it maps to. -/

namespace TrustFlow.Pylib

open PyValue ProtoJson Attestation

variable {α β : Type}

/-! ## The messages -/

def AttestationAttribute.message (x : AttestationAttribute) : UnifiedAttestationAttributes where
  strTeePlatform := optBytes x.strTeePlatform
  hexPlatformHwVersion := optBytes x.hexPlatformHwVersion
  hexPlatformSwVersion := optBytes x.hexPlatformSwVersion
  hexSecureFlags := optBytes x.hexSecureFlags
  hexPlatformMeasurement := optBytes x.hexPlatformMeasurement
  hexBootMeasurement := optBytes x.hexBootMeasurement
  strTeeName := optBytes x.strTeeName
  strTeeIdentity := optBytes x.strTeeIdentity
  hexTaMeasurement := optBytes x.hexTaMeasurement
  hexTaDynMeasurement := optBytes x.hexTaDynMeasurement
  hexSigner := optBytes x.hexSigner
  hexProdId := optBytes x.hexProdId
  strMinIsvsvn := optBytes x.strMinIsvsvn
  boolDebugDisabled := optBytes x.boolDebugDisabled
  hexUserData := optBytes x.hexUserData
  hexHashOrPemPubkey := optBytes x.hexHashOrPemPubkey
  hexNonce := optBytes x.hexNonce
  hexSpid := optBytes x.hexSpid
  strVerifiedTime := optBytes x.strVerifiedTime

def AttestationNestedPolicy.message (x : AttestationNestedPolicy) :
    UnifiedAttestationNestedPolicy where
  subAttributes := (x.subAttributes.getD []).map AttestationAttribute.message

def AttestationNestedPolicies.message (x : AttestationNestedPolicies) :
    UnifiedAttestationNestedPolicies where
  strGroupName := optBytes x.strGroupName
  strGroupId := optBytes x.strGroupId
  policies := (x.policies.getD []).map AttestationNestedPolicy.message

def AttestationPolicy.message (x : AttestationPolicy) : UnifiedAttestationPolicy where
  pemPublicKey := optBytes x.pemPublicKey
  mainAttributes := (x.mainAttributes.getD []).map AttestationAttribute.message
  nestedPolicies := (x.nestedPolicies.map AttestationNestedPolicies.message).getD {}

def AttestationReport.message (x : AttestationReport) : UnifiedAttestationReport where
  strReportVersion := x.strReportVersion.utf8
  strReportType := x.strReportType.utf8
  strTeePlatform := x.strTeePlatform.utf8
  jsonReport := x.jsonReport.utf8
  jsonNestedReports := optBytes x.jsonNestedReports

def AttestationReportParams.message (x : AttestationReportParams) :
    UnifiedAttestationReportParams where
  hexUserData := optBytes x.hexUserData
  pemPublicKey := optBytes x.pemPublicKey

def AttestationGenerationParams.message (x : AttestationGenerationParams) :
    UnifiedAttestationGenerationParams where
  teeIdentity := x.teeIdentity.utf8
  reportType := x.reportType.utf8
  reportHexNonce := optBytes x.reportHexNonce
  reportParams := (x.reportParams.map AttestationReportParams.message).getD {}

/-! ## Reading an instance -/

/-- The instances are read as their messages. -/
def Decodes (fields : List (Field DataClass JsonScalar β)) (empty : β) (toPy : α → Value)
    (message : α → β) : Prop :=
  ∀ x, readMessage fields empty (filterNoneValues (toPy x)) = .ok (message x)

/-- The members that the filter has left out would have been read as nulls. -/
theorem foldlM_filterFields {fields : List (Field DataClass JsonScalar β)}
    (hapart : NamesApart fields)
    {attrs : List (PyStr × Value)} (hknown : ∀ kv ∈ attrs, ∃ f ∈ fields, py f.name = kv.1)
    (message : β) :
    (filterFields attrs).foldlM (readMember fields) message =
      (attrs.map fun kv => (kv.1, filterNoneValues kv.2)).foldlM (readMember fields) message := by
  rw [filterFields_eq]
  -- On the attributes, with whatever message those in front have been read into.
  induction attrs generalizing message with
  | nil => rfl
  | cons kv attrs ih =>
    obtain ⟨name, v⟩ := kv
    have hrest := ih fun kv hkv => hknown kv (List.mem_cons_of_mem _ hkv)
    cases hv : v.isNone with
    | true =>
      obtain ⟨f, hf, rfl⟩ := hknown _ List.mem_cons_self
      obtain rfl : v = .none := by
        cases v with
        | none => rfl
        | _ => cases hv
      rw [List.map_cons, List.foldlM_cons, readMember_of_mem hapart hf]
      exact hrest message
    | false =>
      have hpresent : present ((name, v) :: attrs) = (name, v) :: present attrs :=
        List.filter_cons_of_pos (by simp [hv])
      rw [hpresent, List.map_cons, List.map_cons, List.foldlM_cons, List.foldlM_cons]
      exact congrArg _ (funext hrest)

/-- The fields of the class are the fields of the message. -/
theorem readMessage_instance {fields : List (Field DataClass JsonScalar β)}
    (hapart : NamesApart fields) {cls : DataClass}
    (hschema : (schema cls).map PyField.name = fields.map fun f => py f.name)
    (values : List Value) (message : β) :
    readMessage fields message (filterNoneValues (instanceOf cls values)) =
      ((fields.map fun f => py f.name).zip (values.map filterNoneValues)).foldlM
        (readMember fields) message := by
  have hknown : ∀ kv ∈ (fields.map fun f => py f.name).zip values,
      ∃ f ∈ fields, py f.name = kv.1 :=
    fun kv hkv => List.mem_map.mp (List.of_mem_zip hkv).1
  rw [instanceOf, hschema, filterNoneValues, readMessage, foldlM_filterFields hapart hknown,
    List.zip_map_right]
  rfl

/-- A class of which all fields are texts. -/
theorem readMessage_strInstance {fields : List (StrField β)} (hlawful : Lawful fields)
    (hapart : NamesApart (fields.map (StrField.field (γ := DataClass) (κ := JsonScalar))))
    {cls : DataClass} (hschema : (schema cls).map PyField.name = fields.map fun f => py f.name)
    {empty : β} (hempty : ∀ f ∈ fields, f.get empty = []) (values : List (Option PyStr)) :
    readMessage (fields.map StrField.field) empty
      (filterNoneValues (instanceOf cls (values.map optStr))) =
        .ok (setAll fields values empty) := by
  have hnames : ((fields.map (StrField.field (γ := DataClass) (κ := JsonScalar))).map
      fun f => py f.name) = fields.map fun f => py f.name := by
    rw [List.map_map]
    rfl
  have hplain : (values.map optStr).map filterNoneValues = values.map optStr := by
    rw [List.map_map]
    exact List.map_congr_left fun s _ => filterNoneValues_optStr s
  rw [readMessage_instance hapart (hschema.trans hnames.symm), hnames, hplain]
  exact foldlM_strMembers hapart (fun f hf => List.mem_map_of_mem hf) hlawful hempty values

section Members

variable {all : List (Field DataClass JsonScalar β)} (hall : NamesApart all) (message : β)
include hall

theorem readMember_filtered {f : StrField β} (hf : f.field ∈ all)
    (hset : f.set (f.get message) message = message) (hempty : f.get message = [])
    (s : Option PyStr) :
    readMember all message (py f.name, filterNoneValues (optStr s)) =
      .ok (f.set (optBytes s) message) := by
  rw [filterNoneValues_optStr]
  exact readMember_optStr hall hf hset hempty s

theorem readMember_optList {γ : Type} {name : String} {get : β → List γ} {set : List γ → β → β}
    {empty : γ} {fields : List (Field DataClass JsonScalar γ)}
    (hf : repeatedField name get set empty fields ∈ all)
    (hset : set (get message) message = message)
    {toPy : α → Value} (hclean : CleanInstances toPy) {toMessage : α → γ}
    (hdecodes : Decodes fields empty toPy toMessage) (items : Option (List α)) :
    readMember all message (py name, filterNoneValues (optList toPy items)) =
      .ok (set (get message ++ (items.getD []).map toMessage) message) := by
  have hread := readMember_of_mem hall hf message (filterNoneValues (optList toPy items))
  cases items with
  | none => exact hread.trans (by simp [optList, orNone, filterNoneValues, isNone, hset])
  | some items =>
    have hitems : filterNoneValues (optList toPy (some items)) =
        .list (items.map fun x => filterNoneValues (toPy x)) := by
      rw [optList, orNone, filterNoneValues, filterItems_eq, List.map_map]
      · rfl
      · intro v hv
        obtain ⟨x, _, rfl⟩ := List.mem_map.mp hv
        exact hclean.set x
    have hmapM := mapM_map_ok fun x (_ : x ∈ items) => hdecodes x
    rw [hitems] at hread ⊢
    refine hread.trans ?_
    simp only [isNone, repeatedField, hmapM, ok_bind]
    rfl

theorem readMember_orNone {γ : Type} {name : String} {get : β → γ} {set : γ → β → β}
    {fields : List (Field DataClass JsonScalar γ)} (hf : messageField name get set fields ∈ all)
    (hset : set (get message) message = message) {toPy : α → Value}
    (hclean : CleanInstances toPy) {toMessage : α → γ}
    (hdecodes : Decodes fields (get message) toPy toMessage) (x : Option α) :
    readMember all message (py name, filterNoneValues (orNone toPy x)) =
      .ok (set ((x.map toMessage).getD (get message)) message) := by
  have hread := readMember_of_mem hall hf message (filterNoneValues (orNone toPy x))
  cases x with
  | none => exact hread.trans (by simp [orNone, filterNoneValues, isNone, hset])
  | some x =>
    have hsome : (filterNoneValues (toPy x)).isNone = false := by
      rw [isNone_filterNoneValues, hclean.set x]
    refine hread.trans ?_
    simp only [orNone, hsome, messageField, hdecodes x, ok_bind]
    rfl

end Members

/-! ## The classes -/

theorem decodes_attribute : Decodes (attributesFields.map StrField.field) {}
    AttestationAttribute.toPy AttestationAttribute.message := fun x =>
  readMessage_strInstance lawful_attributesFields namesApart_attributesFields rfl
    (by simp [attributesFields])
    [x.strTeePlatform, x.hexPlatformHwVersion, x.hexPlatformSwVersion, x.hexSecureFlags,
      x.hexPlatformMeasurement, x.hexBootMeasurement, x.strTeeName, x.strTeeIdentity,
      x.hexTaMeasurement, x.hexTaDynMeasurement, x.hexSigner, x.hexProdId, x.strMinIsvsvn,
      x.boolDebugDisabled, x.hexUserData, x.hexHashOrPemPubkey, x.hexNonce, x.hexSpid,
      x.strVerifiedTime]

theorem decodes_report : Decodes (reportFields.map StrField.field) {}
    AttestationReport.toPy AttestationReport.message := fun x =>
  readMessage_strInstance lawful_reportFields namesApart_reportFields rfl (by simp [reportFields])
    [some x.strReportVersion, some x.strReportType, some x.strTeePlatform, some x.jsonReport,
      x.jsonNestedReports]

theorem decodes_reportParams : Decodes (reportParamsFields.map StrField.field) {}
    AttestationReportParams.toPy AttestationReportParams.message := fun x =>
  readMessage_strInstance lawful_reportParamsFields namesApart_reportParamsFields rfl
    (by simp [reportParamsFields, unreadField])
    [x.strReportIdentity, x.hexUserData, x.jsonNestedReports, x.pemPublicKey, x.hexSpid]

theorem decodes_nestedPolicy : Decodes nestedPolicyFields {}
    AttestationNestedPolicy.toPy AttestationNestedPolicy.message := by
  intro x
  have hapart : NamesApart (nestedPolicyFields (γ := DataClass) (κ := JsonScalar)) :=
    List.pairwise_singleton _ _
  have hrules := readMember_optList hapart {} List.mem_cons_self rfl cleanInstances_attribute
    decodes_attribute x.subAttributes
  refine (readMessage_instance hapart rfl _ _).trans ?_
  exact bind_eq_ok.mpr ⟨_, hrules, rfl⟩

theorem decodes_nestedPolicies : Decodes nestedPoliciesFields {}
    AttestationNestedPolicies.toPy AttestationNestedPolicies.message := by
  intro x
  have hapart := namesApart_nestedPoliciesFields (γ := DataClass) (κ := JsonScalar)
  have hname := readMember_filtered hapart {} List.mem_cons_self rfl rfl x.strGroupName
  have hid := readMember_filtered hapart { strGroupName := optBytes x.strGroupName }
    (List.mem_cons_of_mem _ List.mem_cons_self) rfl rfl x.strGroupId
  have hpolicies := readMember_optList hapart
    { strGroupName := optBytes x.strGroupName, strGroupId := optBytes x.strGroupId }
    (List.mem_cons_of_mem _ (List.mem_cons_of_mem _ List.mem_cons_self)) rfl
    cleanInstances_nestedPolicy decodes_nestedPolicy x.policies
  refine (readMessage_instance hapart rfl _ _).trans ?_
  exact bind_eq_ok.mpr ⟨_, hname, bind_eq_ok.mpr ⟨_, hid, bind_eq_ok.mpr ⟨_, hpolicies, rfl⟩⟩⟩

theorem decodes_policy : Decodes policyFields {} AttestationPolicy.toPy
    AttestationPolicy.message := by
  intro x
  have hapart := namesApart_policyFields (γ := DataClass) (κ := JsonScalar)
  have hkey := readMember_filtered hapart {} List.mem_cons_self rfl rfl x.pemPublicKey
  have hrules := readMember_optList hapart { pemPublicKey := optBytes x.pemPublicKey }
    (List.mem_cons_of_mem _ List.mem_cons_self) rfl cleanInstances_attribute decodes_attribute
    x.mainAttributes
  have hnested := readMember_orNone hapart
    { pemPublicKey := optBytes x.pemPublicKey
      mainAttributes := (x.mainAttributes.getD []).map AttestationAttribute.message }
    (List.mem_cons_of_mem _ (List.mem_cons_of_mem _ List.mem_cons_self)) rfl
    cleanInstances_nestedPolicies decodes_nestedPolicies x.nestedPolicies
  refine (readMessage_instance hapart rfl _ _).trans ?_
  exact bind_eq_ok.mpr ⟨_, hkey, bind_eq_ok.mpr ⟨_, hrules, bind_eq_ok.mpr ⟨_, hnested, rfl⟩⟩⟩

theorem decodes_generationParams : Decodes generationParamsFields {}
    AttestationGenerationParams.toPy AttestationGenerationParams.message := by
  intro x
  have hapart := namesApart_generationParamsFields (γ := DataClass) (κ := JsonScalar)
  have hidentity := readMember_filtered hapart {} List.mem_cons_self rfl rfl (some x.teeIdentity)
  have htype := readMember_filtered hapart { teeIdentity := x.teeIdentity.utf8 }
    (List.mem_cons_of_mem _ List.mem_cons_self) rfl rfl (some x.reportType)
  have hnonce := readMember_filtered hapart
    { teeIdentity := x.teeIdentity.utf8, reportType := x.reportType.utf8 }
    (List.mem_cons_of_mem _ (List.mem_cons_of_mem _ List.mem_cons_self)) rfl rfl x.reportHexNonce
  have hparams := readMember_orNone hapart
    { teeIdentity := x.teeIdentity.utf8, reportType := x.reportType.utf8
      reportHexNonce := optBytes x.reportHexNonce }
    (List.mem_append_right _ (List.mem_singleton_self _)) rfl cleanInstances_reportParams
    decodes_reportParams x.reportParams
  refine (readMessage_instance hapart rfl _ _).trans ?_
  exact bind_eq_ok.mpr ⟨_, hidentity, bind_eq_ok.mpr ⟨_, htype,
    bind_eq_ok.mpr ⟨_, hnonce, bind_eq_ok.mpr ⟨_, hparams, rfl⟩⟩⟩⟩

end TrustFlow.Pylib
