import TrustFlow.Pylib.Messages
import TrustFlow.Attestation.Bindings

/-! # Generating and verifying reports in Python

`report_verify` hands the JSON of a report and of a policy to the C++ wrapper.  `generate_report`
hands the JSON of the parameters to the generator, and builds an `AttestationReport` from the JSON
that comes back.  The C++ side reads both spellings of a name, but it prints the camel case.

* `reportVerify_eq` — what is verified are the messages with the fields of the Python objects;
* `generateReport_never_ok` — the keywords of a generated report are not those of the dataclass. -/

namespace TrustFlow.Pylib

open PyValue ProtoJson Attestation

/-- What a call can raise; an exception of the C++ side is a RuntimeError.  Texts go to the C++ side
    in UTF-8, which those of `to_json` always have, and come back from it. -/
inductive ApiError where
  | python (e : PyError)
  | runtimeError (what : Bytes)
  | unicodeDecodeError
deriving DecidableEq

def raisePy {α : Type} (x : Except PyError α) : Except ApiError α := x.mapError .python

def raiseCpp {α : Type} (x : Except Exn α) : Except ApiError α :=
  x.mapError fun ex => .runtimeError ex.what

def reportVerify (env : CApiEnv) (report : AttestationReport) (policy : AttestationPolicy) :
    Except ApiError Status := do
  let reportJson ← raisePy (toJson report.toPy)
  let policyJson ← raisePy (toJson policy.toPy)
  return Wrapper.attestationReportVerify env reportJson.utf8 policyJson.utf8

/-- `create_attestation_generator()`; it throws in a build without a TEE. -/
def createGenerator (gen : GeneratorEnv) : Option Tee → Except ApiError GenerateReport
  | some tee => .ok (createAttestationGenerator gen (some tee))
  | Option.none => .error (.runtimeError (str "Unsupported TEE type!"))

def generateReport (json : JsonCodec) (gen : GeneratorEnv) (tee : Option Tee)
    (params : AttestationGenerationParams) : Except ApiError Value := do
  let generate ← createGenerator gen tee
  let paramsJson ← raisePy (toJson params.toPy)
  let reportJson ← raiseCpp (generateReportJson json generate paramsJson.utf8)
  match PyStr.ofUtf8? reportJson with
  | some text => raisePy (AttestationReport.fromJson text)
  | Option.none => .error .unicodeDecodeError

/-- The C++ library reads the text that Python writes for the value as that value. -/
def Reaches (json : JsonText DataClass JsonScalar) (v : Value) : Prop :=
  ∃ text, PyJson.dumps (some 2) v = .ok text ∧ json.parse text.utf8 = .ok v

/-- Python reads the text that the C++ library prints for the value as that value. -/
def Returns (json : JsonText DataClass JsonScalar) (v : Value) : Prop :=
  ∃ text, PyStr.ofUtf8? (json.print v) = some text ∧ PyJson.loads text = .ok v

/-- The C++ side reads an instance as its message. -/
theorem decode_of_reaches {json : JsonText DataClass JsonScalar} {α β : Type}
    {fields : List (Field DataClass JsonScalar β)} {empty : β}
    {toPy : α → Value} {message : α → β} (hdecodes : Decodes fields empty toPy message) {x : α}
    (h : Reaches json (filterNoneValues (toPy x))) :
    ∃ text, toJson (toPy x) = .ok text ∧
      json.decode fields empty text.utf8 = .ok (message x) := by
  obtain ⟨text, hdumps, hparse⟩ := h
  refine ⟨text, hdumps, ?_⟩
  rw [JsonText.decode, hparse, ok_bind, hdecodes x]
  rfl

/-! ## Verifying -/

/-- The verification of two messages. -/
def verifyMessages (env : VerifierEnv) (report : UnifiedAttestationReport)
    (policy : UnifiedAttestationPolicy) : Except Exn Unit := do
  let v ← createVerifier env report
  let _ ← (v.verifyReport env policy).run []

theorem reportVerify_eq {json : JsonText DataClass JsonScalar} {env : CApiEnv}
    (hcodec : env.json = protoJsonCodec json)
    {report : AttestationReport} {policy : AttestationPolicy}
    (hreport : Reaches json (filterNoneValues report.toPy))
    (hpolicy : Reaches json (filterNoneValues policy.toPy)) :
    reportVerify env report policy =
      .ok (match verifyMessages env.verifier report.message policy.message with
        | .ok _ => ⟨0, str "success", []⟩
        | .error ex => .ofExn env.stackTrace ex) := by
  obtain ⟨reportText, hreport, hreportRead⟩ := decode_of_reaches decodes_report hreport
  obtain ⟨policyText, hpolicy, hpolicyRead⟩ := decode_of_reaches decodes_policy hpolicy
  have hverify : verifyAttestation env reportText.utf8 policyText.utf8 =
      verifyMessages env.verifier report.message policy.message := by
    simp only [verifyAttestation, createFromJson, json2pb, hcodec, protoJsonCodec, hpolicyRead,
      hreportRead, ok_bind, verifyMessages]
  rw [reportVerify, hreport, hpolicy]
  simp only [raisePy, Except.mapError, ok_bind, Wrapper.attestationReportVerify, hverify]
  rfl

theorem verifyMessages_eq_ok (env : VerifierEnv) (report : UnifiedAttestationReport)
    (policy : UnifiedAttestationPolicy) :
    verifyMessages env report policy = .ok () ↔ ∃ v attrs, createVerifier env report = .ok v ∧
      v.PlatformVerified env ∧ v.HasAttributes env attrs ∧
      MatchReached env.sha256 attrs policy.mainAttributes := by
  have hrun : verifyMessages env report policy = .ok () ↔ ∃ v, createVerifier env report = .ok v ∧
      ∃ log, (v.verifyReport env policy).run [] = .ok ((), log) := by
    rw [verifyMessages, bind_eq_ok]
    refine exists_congr fun v => and_congr_right fun _ => ?_
    rw [bind_eq_ok]
    constructor
    · rintro ⟨⟨_, log⟩, hrun, _⟩
      exact ⟨log, hrun⟩
    · rintro ⟨log, hrun⟩
      exact ⟨((), log), hrun, rfl⟩
  simp only [hrun, AttestationVerifier.verifyReport_eq_ok, exists_and_left]

/-- The Python objects are verified as the messages with their fields: a report and a policy whose
    texts are read get a status, and its code is 0 exactly if the platform is verified and the
    attributes of the report come to a match with the rules of the policy, a field that is None
    being empty. -/
theorem reportVerify_code_iff (json : JsonText DataClass JsonScalar)
    (env : CApiEnv) (hcodec : env.json = protoJsonCodec json)
    (report : AttestationReport) (policy : AttestationPolicy)
    (hreport : Reaches json (filterNoneValues report.toPy))
    (hpolicy : Reaches json (filterNoneValues policy.toPy)) :
    ∃ status, reportVerify env report policy = .ok status ∧
      (status.code = 0 ↔ ∃ v attrs, createVerifier env.verifier report.message = .ok v ∧
        v.PlatformVerified env.verifier ∧ v.HasAttributes env.verifier attrs ∧
        MatchReached env.verifier.sha256 attrs
          ((policy.mainAttributes.getD []).map AttestationAttribute.message)) := by
  refine ⟨_, reportVerify_eq hcodec hreport hpolicy, ?_⟩
  refine Iff.trans ?_ (verifyMessages_eq_ok env.verifier report.message policy.message)
  cases verifyMessages env.verifier report.message policy.message with
  | ok u => simp
  | error ex => simp [Status.ofExn_code_ne_zero]

/-! ### A library and a report -/

/-- The library reads what Python writes, if no text has a pair of surrogates. -/
theorem plainJson_reaches {α : Type} {toPy : α → Value} (hclean : CleanInstances toPy) {x : α}
    (hjoined : (toPy x).All PyJson.JoinedNode) :
    Reaches plainJson (filterNoneValues (toPy x)) := by
  have hjson := (filterNoneValues_spec (toPy x) (hclean.clean x) (hclean.set x)).isJson
  have hloads := PyJson.loads_write (.ofIndent (some 2)) _ hjson
  rw [← filterNoneValues_joinTexts, PyJson.joinTexts_of_joined _ hjoined] at hloads
  refine ⟨_, if_pos (PyJson.serializable_of_isJson _ hjson), ?_⟩
  simp only [plainJson, PyJson.ofUtf8?_write _ hjson, hloads]
  rfl

/-- A passport of an SGX platform as an object. -/
def pyReport (jsonReport : Bytes) : AttestationReport where
  strReportVersion := py "1.0"
  strReportType := py "Passport"
  strTeePlatform := py "SGX_DCAP"
  jsonReport := PyStr.text jsonReport

def platformPolicy (platform : String) : AttestationPolicy where
  mainAttributes := some [{ strTeePlatform := some (py platform) }]

theorem samplePassport_generated :
    createAttestationGenerator sampleGenerator (some (.sgx2 sampleSgxDevice))
      { reportType := kReportTypePassport } = .ok samplePassport := by
  obtain ⟨report, hreport⟩ := sample_generates
    { reportType := kReportTypePassport } rfl ⟨by decide, by decide, by decide⟩
  rw [samplePassport, hreport]
  rfl

theorem samplePassport_utf8 : samplePassport.Utf8 :=
  utf8_of_generated sample_codecsAgree sampleSgxDevice_honest.texts samplePassport_generated

theorem pyReport_message {jsonReport : Bytes} (h : IsUtf8 jsonReport) :
    (pyReport jsonReport).message =
      unifiedReport { reportType := kReportTypePassport } kPlatformSgxDcap jsonReport := by
  simp only [AttestationReport.message, pyReport, utf8_text h, utf8_py]
  rfl

theorem pyReport_reaches (jsonReport : Bytes) :
    Reaches plainJson (filterNoneValues (pyReport jsonReport).toPy) := by
  refine plainJson_reaches cleanInstances_report ?_
  simp [AttestationReport.toPy, instanceOf, schema, required, optional, optStr, All, AllAttrs,
    PyJson.JoinedNode, pyReport, joined_py, joined_text]

theorem platformPolicy_reaches (platform : String) :
    Reaches plainJson (filterNoneValues (platformPolicy platform).toPy) := by
  refine plainJson_reaches cleanInstances_policy ?_
  simp [AttestationPolicy.toPy, AttestationAttribute.toPy, instanceOf, schema, optional, optStr,
    optList, orNone, All, AllAttrs, AllItems, PyJson.JoinedNode, platformPolicy, joined_py]

theorem matchReached_platform (attrs : UnifiedAttestationAttributes) {platform : Bytes}
    (h : platform ≠ []) :
    MatchReached paddingSha256 attrs [{ strTeePlatform := platform }] ↔
      equalsIgnoreCase platform attrs.strTeePlatform = true := by
  rw [← verifyAttributes_eq_ok paddingSha256 attrs
      { mainAttributes := [{ strTeePlatform := platform }] },
    verifyAttributes_singleton _ _ _ _ rfl]
  simp [MeetsRule, EarlyFieldsMet, CountedFieldsMet, LateFieldsMet, strMet, svnMet, debugMet,
    pubkeyMet, h]

/-- A policy that asks for the platform of the report, and one that asks for another one. -/
theorem reportVerify_code_iff_sample :
    (∃ status, reportVerify ⟨sampleVerifierEnv, protoJsonCodec (γ := DataClass) plainJson,
        fun _ => []⟩ (pyReport samplePassport.jsonReport) (platformPolicy "SGX_DCAP") =
      .ok status ∧ status.code = 0) ∧
    ∃ status, reportVerify ⟨sampleVerifierEnv, protoJsonCodec (γ := DataClass) plainJson,
        fun _ => []⟩ (pyReport samplePassport.jsonReport) (platformPolicy "TDX") =
      .ok status ∧ status.code ≠ 0 := by
  obtain ⟨v, attrs, hcreate, hplatform, hattrs, hname, _⟩ :=
    verified_of_generated sample_codecsAgree sampleSgxDevice_honest rfl samplePassport_generated
  obtain ⟨jsonReport, hreport⟩ := generated_unifiedReport samplePassport_generated
  have hmessage : (pyReport samplePassport.jsonReport).message = samplePassport := by
    rw [pyReport_message samplePassport_utf8.jsonReport, hreport]
    rfl
  have hverify := fun platform => reportVerify_code_iff plainJson
    ⟨sampleVerifierEnv, protoJsonCodec plainJson, fun _ => []⟩ rfl
    (pyReport samplePassport.jsonReport) (platformPolicy platform) (pyReport_reaches _)
    (platformPolicy_reaches platform)
  rw [hmessage] at hverify
  constructor
  · obtain ⟨status, hstatus, hcode⟩ := hverify "SGX_DCAP"
    refine ⟨status, hstatus, hcode.mpr ⟨v, attrs, hcreate, hplatform, hattrs, ?_⟩⟩
    exact (matchReached_platform attrs (by decide)).mpr (by rw [hname]; decide)
  · obtain ⟨status, hstatus, hcode⟩ := hverify "TDX"
    refine ⟨status, hstatus, fun hzero => ?_⟩
    obtain ⟨v', attrs', hcreate', _, hattrs', hmatch⟩ := hcode.mp hzero
    cases hcreate.symm.trans hcreate'
    cases hattrs.unique hattrs'
    have hequal := (matchReached_platform attrs (by decide)).mp hmatch
    rw [hname] at hequal
    exact absurd hequal (by decide)

/-! ## Generating -/

/-- An `AttestationReport` is not built from a dictionary with the camel case name. -/
theorem fromJson_camelCase {text : PyStr}
    {members : List (PyStr × Value)} (hloads : PyJson.loads text = .ok (.dict members))
    (hmember : py (jsonName "str_report_version") ∈ Dict.keys members) :
    AttestationReport.fromJson text = .error .typeError := by
  have hunknown : ((Dict.keys members).all fun k =>
      (schema .attestationReport).any fun f => f.name = k) = false := by
    refine Bool.eq_false_iff.mpr fun hall => ?_
    have hany := List.all_eq_true.mp hall _ hmember
    exact absurd hany (by decide)
  rw [AttestationReport.fromJson, decodeWith, hloads, ok_bind]
  simp only [List.foldlM_nil, pure_bind, construct, hunknown]
  rfl

/-- Whatever the platform, the printed report has a member for its version. -/
theorem version_printed {json : JsonText DataClass JsonScalar} {gen : GeneratorEnv} {tee : Tee}
    {genParams : UnifiedAttestationGenerationParams} {report : UnifiedAttestationReport}
    {text : Bytes} (h : createAttestationGenerator gen (some tee) genParams = .ok report)
    (hencode : (protoJsonCodec json).encodeReport report = .ok text) :
    ∃ members, printMessage json.printString reportFields report = .ok (.dict members) ∧
      text = json.print (.dict members) ∧
      py (jsonName "str_report_version") ∈ Dict.keys members := by
  obtain ⟨v, hprint, htext⟩ := bind_eq_ok.mp hencode
  obtain ⟨members, hmembers, hv⟩ := bind_eq_ok.mp hprint
  cases hv
  cases htext
  obtain ⟨jsonReport, rfl⟩ := generated_unifiedReport h
  have hversion : kReportVersion ≠ [] := by decide
  have hfield : ⟨"str_report_version", (·.strReportVersion),
      fun b m => { m with strReportVersion := b }⟩ ∈ reportFields := List.mem_cons_self
  have hmember := mem_printMembers hmembers hfield hversion
  exact ⟨members, hprint, rfl, hmember⟩

/-- `generate_report` never returns: where the generator returns a report, the class is called with
    a keyword that it does not have. -/
theorem generateReport_never_ok (json : JsonText DataClass JsonScalar)
    (gen : GeneratorEnv) (tee : Option Tee)
    (params : AttestationGenerationParams)
    (hparams : Reaches json (filterNoneValues params.toPy))
    (hreturns : ∀ report v, createAttestationGenerator gen tee params.message = .ok report →
      printMessage json.printString reportFields report = .ok v → Returns json v) :
    (∀ result, generateReport (protoJsonCodec json) gen tee params ≠ .ok result) ∧
    ∀ report text, createAttestationGenerator gen tee params.message = .ok report →
      (protoJsonCodec json).encodeReport report = .ok text →
      generateReport (protoJsonCodec json) gen tee params = .error (.python .typeError) := by
  obtain ⟨paramsText, hparams, hread⟩ := decode_of_reaches decodes_generationParams hparams
  cases tee with
  | none =>
    constructor
    · intro result hok
      cases hok
    · intro report text hreport
      cases hreport
  | some tee =>
    -- Wherever the C++ side returns, the version is under its camel case name.
    have hcall : ∀ reportJson, generateReportJson (protoJsonCodec json)
        (createAttestationGenerator gen (some tee)) paramsText.utf8 = .ok reportJson →
        generateReport (protoJsonCodec json) gen (some tee) params =
          .error (.python .typeError) := by
      intro reportJson hjson
      obtain ⟨genParams, report, hread', hreport, hencode⟩ := generateReportJson_eq_ok.mp hjson
      cases hread.symm.trans hread'
      obtain ⟨members, hprint, rfl, hmember⟩ := version_printed hreport hencode
      obtain ⟨text, hstr, hloads⟩ := hreturns report _ hreport hprint
      simp only [generateReport, createGenerator, ok_bind, hparams, raisePy, raiseCpp,
        Except.mapError, hjson, hstr, fromJson_camelCase hloads hmember]
    constructor
    · intro result hok
      cases hjson : generateReportJson (protoJsonCodec json)
          (createAttestationGenerator gen (some tee)) paramsText.utf8 with
      | ok reportJson =>
        rw [hcall reportJson hjson] at hok
        cases hok
      | error ex =>
        simp only [generateReport, createGenerator, ok_bind, hparams, raisePy, raiseCpp,
          Except.mapError, hjson, error_bind] at hok
        cases hok
    · intro report text hreport hencode
      exact hcall text
        (generateReportJson_eq_ok.mpr ⟨params.message, report, hread, hreport, hencode⟩)

/-! ### What the library prints -/

/-- The members of a message whose strings are texts. -/
def textMembers {α : Type} (message : α) (fields : List (StrField α)) : List (PyStr × Value) :=
  (fields.filter fun f => f.get message ≠ []).map fun f =>
    (py (jsonName f.name), .str (PyStr.text (f.get message)))

theorem printMembers_text {α : Type} {message : α} {fields : List (StrField α)}
    (h : ∀ f ∈ fields, IsUtf8 (f.get message)) :
    printMembers (plainJson (γ := DataClass)).printString message fields =
      .ok (textMembers message fields) := by
  induction fields with
  | nil => rfl
  | cons f fields ih =>
    obtain ⟨⟨s, hs⟩, hfields⟩ := List.forall_mem_cons.mp h
    have hprint : (plainJson (γ := DataClass)).printString (f.get message) =
        .ok (PyStr.text (f.get message)) := by
      simp only [hs, text_str, plainJson, ofUtf8?_str]
    by_cases hset : f.get message = []
    · have hfilter : textMembers message (f :: fields) = textMembers message fields := by
        simp [textMembers, hset]
      rw [printMembers, if_pos hset, ih hfields, hfilter]
    · have hfilter : textMembers message (f :: fields) =
          (py (jsonName f.name), .str (PyStr.text (f.get message))) ::
            textMembers message fields := by
        simp [textMembers, hset]
      rw [printMembers, if_neg hset, hprint, ih hfields, hfilter]
      rfl

theorem keys_textMembers {α : Type} (message : α) (fields : List (StrField α)) :
    (Dict.keys (textMembers message fields)).Sublist
      ((fields.map fun f => jsonName f.name).map py) := by
  rw [textMembers, Dict.keys, List.map_map, List.map_map]
  exact List.filter_sublist.map _

/-- Python reads what the library prints. -/
theorem plainJson_returns {α : Type} (message : α) {fields : List (StrField α)}
    (hnames : (fields.map fun f => jsonName f.name).Nodup) :
    Returns plainJson (.dict (textMembers message fields)) := by
  have hsublist := keys_textMembers message fields
  have hvalues : ∀ kv ∈ textMembers message fields, ∃ b, kv.2 = .str (PyStr.text b) :=
    List.forall_mem_map.mpr fun f _ => ⟨f.get message, rfl⟩
  have hkeys : ∀ key ∈ Dict.keys (textMembers message fields), Joined key := by
    intro key hkey
    obtain ⟨name, _, rfl⟩ := List.mem_map.mp (hsublist.subset hkey)
    exact joined_py name
  have hjson : PyJson.IsJson (.dict (textMembers message fields)) := by
    refine ⟨⟨(hnames.map py_injective).sublist hsublist, hkeys⟩, allAttrs_iff.mpr ?_⟩
    intro kv hkv
    obtain ⟨b, hb⟩ := hvalues kv hkv
    rw [hb]
    exact trivial
  have hjoined : (PyValue.dict (textMembers message fields)).All PyJson.JoinedNode := by
    refine ⟨trivial, allAttrs_iff.mpr fun kv hkv => ?_⟩
    obtain ⟨b, hb⟩ := hvalues kv hkv
    rw [hb]
    exact joined_text b
  refine ⟨_, PyJson.ofUtf8?_write _ hjson, ?_⟩
  rw [PyJson.loads_write _ _ hjson, PyJson.joinTexts_of_joined _ hjoined]

def pyParams : AttestationGenerationParams where
  teeIdentity := py ""
  reportType := py "Passport"

/-- The platform returns a passport, the library prints it, and Python raises a TypeError. -/
theorem generateReport_never_ok_sample :
    (∃ report text, createAttestationGenerator sampleGenerator (some (.sgx2 sampleSgxDevice))
        pyParams.message = .ok report ∧
      (protoJsonCodec (γ := DataClass) plainJson).encodeReport report = .ok text) ∧
    generateReport (protoJsonCodec (γ := DataClass) plainJson) sampleGenerator
      (some (.sgx2 sampleSgxDevice)) pyParams = .error (.python .typeError) := by
  have hparams : pyParams.message = { reportType := kReportTypePassport } := rfl
  have hutf8 : ∀ f ∈ reportFields, IsUtf8 (f.get samplePassport) := by
    obtain ⟨hversion, htype, hplatform, hreport, hnested⟩ := samplePassport_utf8
    simp only [reportFields, List.forall_mem_cons]
    exact ⟨hversion, htype, hplatform, hreport, hnested, List.forall_mem_nil _⟩
  have hprint : printMessage (plainJson (γ := DataClass)).printString reportFields
      samplePassport = .ok (.dict (textMembers samplePassport reportFields)) := by
    rw [printMessage, printMembers_text hutf8]
    rfl
  have hencode : (protoJsonCodec (γ := DataClass) plainJson).encodeReport samplePassport =
      .ok (plainJson.print (.dict (textMembers samplePassport reportFields))) :=
    bind_eq_ok.mpr ⟨_, hprint, rfl⟩
  have hnever := generateReport_never_ok plainJson sampleGenerator
    (some (.sgx2 sampleSgxDevice)) pyParams
    (plainJson_reaches cleanInstances_generationParams
      ⟨trivial, joined_py _, joined_py _, trivial, trivial, trivial⟩) ?_
  · exact ⟨⟨samplePassport, _, samplePassport_generated, hencode⟩,
      hnever.2 samplePassport _ samplePassport_generated hencode⟩
  · intro report v hreport hv
    rw [hparams] at hreport
    obtain rfl := Except.ok.inj (samplePassport_generated.symm.trans hreport)
    obtain rfl := Except.ok.inj (hprint.symm.trans hv)
    exact plainJson_returns _ (by decide)

end TrustFlow.Pylib
