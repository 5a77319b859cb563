import TrustFlow.Attestation.GeneratedReports
import TrustFlow.Attestation.UnifiedJson

/-! # The C++ wrapper and the Rust binding

Python and the browser call the C++ wrapper, which returns a status.  Rust calls the C API with
buffers of its own: it passes the length of a text as 32 bits, reads the message buffer up to the
reported length, and takes what it reads for UTF-8.

* `Wrapper.attestationReportVerify` — the wrapper;
* `Rust.attestationReportVerify`, `Rust.generateAttestationReport` — the binding;
* `rust_eq_cpp` — what the binding returns, in terms of the C++ interfaces;
* `rust_generated_verifies_iff` — a report that was generated in Rust and is verified in Rust. -/

namespace TrustFlow.Attestation

/-! ## C++ -/

structure Status where
  code : Nat
  message : Bytes
  details : Bytes
deriving DecidableEq

/-- The `catch` clauses of the wrapper. -/
def Status.ofExn (stackTrace : Exn → Bytes) (ex : Exn) : Status :=
  match ex.kind with
  | .argumentError => ⟨kArgumentError, ex.what, stackTrace ex⟩
  | .invalidFormat => ⟨kInvalidFormat, ex.what, stackTrace ex⟩
  | .enforceNotMet | .runtimeError => ⟨kInternalError, ex.what, stackTrace ex⟩
  | .stdException => ⟨kInternalError, ex.what, []⟩

/-- `AttestationReportVerify` of `verifier_wrapper.cc`; its `try` block is that of the C API. -/
def Wrapper.attestationReportVerify (env : CApiEnv) (reportJson policyJson : Bytes) : Status :=
  match verifyAttestation env reportJson policyJson with
  | .ok _ => ⟨0, str "success", []⟩
  | .error ex => .ofExn env.stackTrace ex

/-- `AttestationGenerator::GenerateReportJson`. -/
def generateReportJson (json : JsonCodec) (generate : GenerateReport) (genParamsJson : Bytes) :
    Except Exn Bytes := do
  let genParams ← json2pb json.decodeParams genParamsJson
  let report ← generate genParams
  pb2json json.encodeReport report

/-! ## Rust -/

def kReportMaxSize : Nat := 40960

def BUFFER_SIZE_IN_BYTES : Nat := 8192

namespace Rust

/-- `CString::new`. -/
def cString (what text : Bytes) : Except Bytes Unit :=
  if 0 ∈ text then .error what else .ok ()

/-- What the C side reads of a text whose length was passed `as u32`. -/
def passed (text : Bytes) : Bytes := text.take (text.length % 2 ^ 32)

/-- An error text, checked by `from_utf8`, which says what is wrong with the bytes. -/
def checked (fromUtf8 : Bytes → Option Bytes) (text : Bytes) : Bytes :=
  match fromUtf8 text with
  | none => text
  | some e => str "parse error msg failed, " ++ e

/-- The `if code != 0` after a call. -/
def afterCall {α : Type} (fromUtf8 : Bytes → Option Bytes) (status : CApiStatus)
    (value : Except Bytes α) : Except Bytes α :=
  if status.code ≠ 0 then .error (checked fromUtf8 (status.msg.take status.msgLen)) else value

def msgBuf : Bytes := List.replicate BUFFER_SIZE_IN_BYTES 0

def reportFailure : Bytes := str "attestation_report_verify: report_json_str ffi failure"

def policyFailure : Bytes := str "attestation_report_verify: policy_json_str ffi failure"

def paramsFailure : Bytes := str "attestation_report_verify: params_json_str ffi failure"

def attestationReportVerify (env : CApiEnv) (fromUtf8 : Bytes → Option Bytes)
    (reportJson policyJson : Bytes) : Except Bytes Unit := do
  cString reportFailure reportJson
  cString policyFailure policyJson
  let status := Attestation.attestationReportVerify env (passed reportJson) (passed policyJson)
    msgBuf []
  afterCall fromUtf8 status (.ok ())

/-- The size is the same for all parameters, and the code is always 0. -/
def getAttestationReportSize (paramsJson : Bytes) : Except Bytes Nat := do
  cString paramsFailure paramsJson
  return kReportMaxSize

def generateAttestationReport (json : JsonCodec) (generate : GenerateReport)
    (stackTrace : Exn → Bytes) (fromUtf8 : Bytes → Option Bytes) (paramsJson : Bytes) :
    Except Bytes Bytes := do
  let reportLen ← getAttestationReportSize paramsJson
  cString paramsFailure paramsJson
  let (report, status) := Attestation.generateAttestationReport json generate stackTrace
    (some (passed paramsJson)) (some (List.replicate reportLen 0)) msgBuf []
  let text := match report with
    | some (reportBuf, reportLen) => reportBuf.take reportLen
    | none => []
  afterCall fromUtf8 status (match fromUtf8 text with
    | none => .ok text
    | some e => .error e)

end Rust

/-! ## What the binding makes of an outcome -/

/-- The text of an exception as it is read from the message buffer: cut at a NUL and to the buffer,
    and with its terminator. -/
def Rust.messageRead (what : Bytes) : Bytes :=
  (cText what).take (BUFFER_SIZE_IN_BYTES - 1) ++ [0]

theorem Rust.passed_eq {text : Bytes} (h : text.length < 2 ^ 32) : Rust.passed text = text := by
  rw [Rust.passed, Nat.mod_eq_of_lt h, List.take_length]

theorem Rust.cString_ok {what text : Bytes} (h : 0 ∉ text) : Rust.cString what text = .ok () :=
  if_neg h

section Outcome

variable {α β : Type} (stackTrace : Exn → Bytes) (fromUtf8 : Bytes → Option Bytes)

theorem handlers_code_eq_zero {outcome : Except Exn α} {msg details : Bytes} :
    (handlers stackTrace outcome msg details).1 = 0 ↔ ∃ a, outcome = .ok a := by
  cases outcome with
  | ok a => simp [handlers]
  | error ex =>
    obtain ⟨kind, what⟩ := ex
    cases kind <;> simp [handlers, kArgumentError, kInvalidFormat, kInternalError]

theorem Status.ofExn_code_ne_zero (ex : Exn) : (Status.ofExn stackTrace ex).code ≠ 0 := by
  obtain ⟨kind, what⟩ := ex
  cases kind <;> simp [Status.ofExn, kArgumentError, kInvalidFormat, kInternalError]

theorem Status.ofExn_message (ex : Exn) : (Status.ofExn stackTrace ex).message = ex.what := by
  obtain ⟨kind, what⟩ := ex
  cases kind <;> rfl

theorem Rust.afterCall_ok (a : α) (value : Except Bytes β) :
    Rust.afterCall fromUtf8 (reportStatus stackTrace (.ok a : Except Exn α) Rust.msgBuf []) value =
      value :=
  if_neg (by simp [reportStatus, handlers])

theorem Rust.afterCall_error (ex : Exn) (value : Except Bytes β) :
    Rust.afterCall fromUtf8 (reportStatus stackTrace (.error ex : Except Exn α) Rust.msgBuf [])
      value = .error (Rust.checked fromUtf8 (Rust.messageRead ex.what)) := by
  have hcode : (reportStatus stackTrace (.error ex : Except Exn α) Rust.msgBuf []).code ≠ 0 := by
    intro (h : (handlers stackTrace (.error ex : Except Exn α) Rust.msgBuf []).1 = 0)
    obtain ⟨_, h⟩ := (handlers_code_eq_zero stackTrace).mp h
    cases h
  have hlen : Rust.msgBuf.length = BUFFER_SIZE_IN_BYTES := List.length_replicate
  have hbuf : Rust.msgBuf ≠ [] := List.ne_nil_of_length_pos (by rw [hlen]; decide)
  have hcopy : strncpy Rust.msgBuf ex.what Rust.msgBuf.length ≠ [] := by
    apply List.ne_nil_of_length_pos
    rw [strncpy_length, hlen]
    decide
  have htext : (reportStatus stackTrace (.error ex : Except Exn α) Rust.msgBuf []).msg.take
      (reportStatus stackTrace (.error ex : Except Exn α) Rust.msgBuf []).msgLen =
        Rust.messageRead ex.what := by
    have hshown := congrArg Prod.fst (shown_of_ne_nil hcopy)
    rw [(terminated_strncpy ex.what hbuf).1, ← handlers_msg (α := α) stackTrace ex _ [], hlen]
      at hshown
    exact hshown
  rw [Rust.afterCall, if_pos hcode, htext]

end Outcome

/-! ## The binding and the C++ interfaces -/

def Rust.tooLong (size : Nat) : Bytes :=
  str "report_len(got " ++ decimal kReportMaxSize ++
    str ") should not be less than report json size(" ++ decimal size ++ str ")"

/-- What a status of the wrapper is to a caller in Rust. -/
def Rust.ofStatus (fromUtf8 : Bytes → Option Bytes) (status : Status) : Except Bytes Unit :=
  if status.code = 0 then .ok ()
  else .error (Rust.checked fromUtf8 (Rust.messageRead status.message))

/-- What the text of a generated report is to a caller in Rust: it has to fit into the buffer and
    to be UTF-8. -/
def Rust.ofReportJson (fromUtf8 : Bytes → Option Bytes) : Except Exn Bytes → Except Bytes Bytes
  | .ok text =>
    if text.length ≤ kReportMaxSize then
      match fromUtf8 text with
      | none => .ok text
      | some e => .error e
    else .error (Rust.checked fromUtf8 (Rust.messageRead (Rust.tooLong text.length)))
  | .error ex => .error (Rust.checked fromUtf8 (Rust.messageRead ex.what))

theorem generateReport_replicate (json : JsonCodec) (generate : GenerateReport) (params : Bytes) :
    generateReport json generate (some params) (some (List.replicate kReportMaxSize 0)) =
      (generateReportJson json generate params >>= fun text =>
        enforce (text.length ≤ kReportMaxSize) (Rust.tooLong text.length) >>= fun _ =>
          .ok text) := by
  simp only [generateReport, generateReportJson, bind_assoc, List.length_replicate]
  rfl

theorem Rust.attestationReportVerify_eq (env : CApiEnv) (fromUtf8 : Bytes → Option Bytes)
    {reportJson policyJson : Bytes} (hreport : 0 ∉ reportJson) (hpolicy : 0 ∉ policyJson)
    (hreportLen : reportJson.length < 2 ^ 32) (hpolicyLen : policyJson.length < 2 ^ 32) :
    Rust.attestationReportVerify env fromUtf8 reportJson policyJson =
      Rust.ofStatus fromUtf8 (Wrapper.attestationReportVerify env reportJson policyJson) := by
  simp only [Rust.attestationReportVerify, Rust.cString_ok hreport, Rust.cString_ok hpolicy,
    ok_bind, Rust.passed_eq hreportLen, Rust.passed_eq hpolicyLen,
    Attestation.attestationReportVerify, Wrapper.attestationReportVerify]
  cases verifyAttestation env reportJson policyJson with
  | ok u => rw [Rust.afterCall_ok, Rust.ofStatus, if_pos rfl]
  | error ex =>
    rw [Rust.afterCall_error, Rust.ofStatus, if_neg (Status.ofExn_code_ne_zero _ ex),
      Status.ofExn_message]

theorem Rust.generateAttestationReport_eq (json : JsonCodec) (generate : GenerateReport)
    (stackTrace : Exn → Bytes) (fromUtf8 : Bytes → Option Bytes) {paramsJson : Bytes}
    (hparams : 0 ∉ paramsJson) (hlen : paramsJson.length < 2 ^ 32) :
    Rust.generateAttestationReport json generate stackTrace fromUtf8 paramsJson =
      Rust.ofReportJson fromUtf8 (generateReportJson json generate paramsJson) := by
  simp only [Rust.generateAttestationReport, Rust.getAttestationReportSize,
    Rust.cString_ok hparams, ok_bind, pure_bind, Rust.passed_eq hlen,
    Attestation.generateAttestationReport, generateReport_replicate]
  cases generateReportJson json generate paramsJson with
  | error ex => rw [error_bind, Rust.afterCall_error, Rust.ofReportJson]
  | ok text =>
    rw [ok_bind, Rust.ofReportJson]
    by_cases hfits : text.length ≤ kReportMaxSize
    · have hcopied : (overwrite (List.replicate kReportMaxSize 0) 0 text).take text.length =
          text := by simp [overwrite]
      rw [enforce_pos _ hfits, ok_bind, if_pos hfits]
      simp only [copyOut, Option.map_some, hcopied]
      exact Rust.afterCall_ok _ _ text _
    · rw [enforce_neg _ hfits, error_bind, Rust.afterCall_error, if_neg hfits]

/-- For texts without a NUL that are shorter than 4 GiB, the binding verifies and generates what the
    C++ interfaces do; its errors are the messages of the C++ side, cut to the buffer and with a
    NUL behind. -/
theorem rust_eq_cpp (env : CApiEnv) (generate : GenerateReport) (fromUtf8 : Bytes → Option Bytes)
    (reportJson policyJson paramsJson : Bytes) (hreport : 0 ∉ reportJson)
    (hpolicy : 0 ∉ policyJson) (hparams : 0 ∉ paramsJson) (hreportLen : reportJson.length < 2 ^ 32)
    (hpolicyLen : policyJson.length < 2 ^ 32) (hparamsLen : paramsJson.length < 2 ^ 32) :
    Rust.attestationReportVerify env fromUtf8 reportJson policyJson =
      Rust.ofStatus fromUtf8 (Wrapper.attestationReportVerify env reportJson policyJson) ∧
    Rust.generateAttestationReport env.json generate env.stackTrace fromUtf8 paramsJson =
      Rust.ofReportJson fromUtf8 (generateReportJson env.json generate paramsJson) :=
  ⟨Rust.attestationReportVerify_eq env fromUtf8 hreport hpolicy hreportLen hpolicyLen,
    Rust.generateAttestationReport_eq env.json generate env.stackTrace fromUtf8 hparams hparamsLen⟩

theorem json2pb_eq_ok {α : Type} {decode : Bytes → Except Bytes α} {json : Bytes} {message : α} :
    json2pb decode json = .ok message ↔ decode json = .ok message := by
  unfold json2pb
  cases decode json with
  | ok message' => simp
  | error status => simp

theorem generateReportJson_eq_ok {json : JsonCodec} {generate : GenerateReport}
    {paramsJson text : Bytes} :
    generateReportJson json generate paramsJson = .ok text ↔
      ∃ genParams report, json.decodeParams paramsJson = .ok genParams ∧
        generate genParams = .ok report ∧ json.encodeReport report = .ok text := by
  simp only [generateReportJson, bind_eq_ok, json2pb_eq_ok, pb2json_eq_ok, exists_and_left]

/-- A build whose JSON texts are those of the library, on a platform that has no verifier. -/
def sampleBuild : CApiEnv :=
  ⟨sampleVerifierEnv, protoJsonCodec (γ := Empty) ProtoJson.plainJson, fun _ => []⟩

/-- A report of the type that it is asked for. -/
def generateTyped : GenerateReport := fun genParams =>
  .ok { strReportVersion := kReportVersion, strReportType := genParams.reportType }

/-- The three texts are different, and so are the two results: a report, and an error. -/
theorem rust_eq_cpp_sample :
    Rust.generateAttestationReport sampleBuild.json generateTyped sampleBuild.stackTrace
        (fun _ => none) (str "\x7b\"reportType\":\"Passport\"\x7d") =
      .ok (str "\x7b\"strReportVersion\":\"1.0\",\"strReportType\":\"Passport\"\x7d") ∧
    Rust.attestationReportVerify sampleBuild (fun _ => none)
        (str "\x7b\"strTeePlatform\":\"SGX\"\x7d") (str "\x7b\"pemPublicKey\":\"key\"\x7d") =
      .error (str "Supported platform list: TDX, SGX_DCAP, CSV, but not include SGX" ++ [0]) := by
  have hparams : sampleBuild.json.decodeParams (str "\x7b\"reportType\":\"Passport\"\x7d") =
      .ok { reportType := kReportTypePassport } := rfl
  have hprinted : sampleBuild.json.encodeReport
      { strReportVersion := kReportVersion, strReportType := kReportTypePassport } =
      .ok (str "\x7b\"strReportVersion\":\"1.0\",\"strReportType\":\"Passport\"\x7d") := by decide
  have hreport : sampleBuild.json.decodeReport (str "\x7b\"strTeePlatform\":\"SGX\"\x7d") =
      .ok { strTeePlatform := str "SGX" } := by decide
  have hpolicy : sampleBuild.json.decodePolicy (str "\x7b\"pemPublicKey\":\"key\"\x7d") =
      .ok { pemPublicKey := str "key", mainAttributes := [] } := rfl
  have h := rust_eq_cpp sampleBuild generateTyped (fun _ => none)
    (str "\x7b\"strTeePlatform\":\"SGX\"\x7d") (str "\x7b\"pemPublicKey\":\"key\"\x7d")
    (str "\x7b\"reportType\":\"Passport\"\x7d") (by decide) (by decide) (by decide) (by decide)
    (by decide) (by decide)
  refine ⟨h.2.trans ?_, h.1.trans ?_⟩
  · have hgenerated : generateTyped { reportType := kReportTypePassport } =
        .ok { strReportVersion := kReportVersion, strReportType := kReportTypePassport } := rfl
    rw [generateReportJson_eq_ok.mpr ⟨_, _, hparams, hgenerated, hprinted⟩]
    rfl
  · rw [Wrapper.attestationReportVerify, verifyAttestation, createFromJson,
      json2pb_eq_ok.mpr hpolicy, ok_bind, json2pb_eq_ok.mpr hreport]
    rfl

/-! ## From the generator to the verifier -/

theorem verifyAttestation_eq_ok {env : CApiEnv} {reportJson policyJson : Bytes} :
    verifyAttestation env reportJson policyJson = .ok () ↔
      ∃ policy report v, env.json.decodePolicy policyJson = .ok policy ∧
        env.json.decodeReport reportJson = .ok report ∧
        createVerifier env.verifier report = .ok v ∧
        ∃ log, (v.verifyReport env.verifier policy).run [] = .ok ((), log) := by
  simp only [verifyAttestation, createFromJson, bind_eq_ok, json2pb_eq_ok]
  constructor
  · rintro ⟨policy, hpolicy, v, ⟨report, hreport, hcreate⟩, ⟨_, log⟩, hrun, _⟩
    exact ⟨policy, report, v, hpolicy, hreport, hcreate, log, hrun⟩
  · rintro ⟨policy, report, v, hpolicy, hreport, hcreate, log, hrun⟩
    exact ⟨policy, hpolicy, v, ⟨report, hreport, hcreate⟩, ⟨(), log⟩, hrun, rfl⟩

theorem Rust.ofStatus_eq_ok {fromUtf8 : Bytes → Option Bytes} {env : CApiEnv}
    {reportJson policyJson : Bytes} :
    Rust.ofStatus fromUtf8 (Wrapper.attestationReportVerify env reportJson policyJson) = .ok () ↔
      verifyAttestation env reportJson policyJson = .ok () := by
  unfold Wrapper.attestationReportVerify Rust.ofStatus
  cases verifyAttestation env reportJson policyJson with
  | ok u => simp
  | error ex => simp [Status.ofExn_code_ne_zero]

theorem Rust.ofReportJson_eq_ok {fromUtf8 : Bytes → Option Bytes} {outcome : Except Exn Bytes}
    {text : Bytes} (h : Rust.ofReportJson fromUtf8 outcome = .ok text) :
    outcome = .ok text ∧ text.length ≤ kReportMaxSize := by
  cases outcome with
  | error ex => cases h
  | ok text' =>
    simp only [Rust.ofReportJson] at h
    split at h
    next hfits =>
      split at h
      next =>
        cases h
        exact ⟨rfl, hfits⟩
      next => cases h
    next => cases h

/-- The JSON text of a report of texts is read back as that report, and has no NUL. -/
def JsonCodec.ReadsReports (json : JsonCodec) : Prop :=
  ∀ report text, report.Utf8 → json.encodeReport report = .ok text →
    json.decodeReport text = .ok report ∧ 0 ∉ text

/-- A text that was generated in Rust on an honest platform: if it is not a passport, no policy is
    met by it; otherwise it shows the platform and the value that was asked for, and is verified in
    Rust exactly if the policy can be read and its rules come to a match. -/
theorem rust_generated_verifies_iff (env : CApiEnv) (gen : GeneratorEnv) (tee : Tee)
    (fromUtf8 : Bytes → Option Bytes) (paramsJson text : Bytes)
    (hagree : CodecsAgree gen.printer env.verifier.codec) (hhonest : tee.Honest gen env.verifier)
    (hjson : env.json.ReadsReports) (hparams : 0 ∉ paramsJson)
    (hparamsLen : paramsJson.length < 2 ^ 32)
    (h : Rust.generateAttestationReport env.json (createAttestationGenerator gen (some tee))
      env.stackTrace fromUtf8 paramsJson = .ok text) :
    ∃ genParams, env.json.decodeParams paramsJson = .ok genParams ∧
      (genParams.reportType ≠ kReportTypePassport → ∀ policyJson : Bytes, 0 ∉ policyJson →
        policyJson.length < 2 ^ 32 →
        Rust.attestationReportVerify env fromUtf8 text policyJson ≠ .ok ()) ∧
      (genParams.reportType = kReportTypePassport → ∃ attrs,
        attrs.strTeePlatform = tee.platform ∧
        attrs.hexUserData = bytesToHexString (valueBytes genParams) ∧
        ∀ policyJson : Bytes, 0 ∉ policyJson → policyJson.length < 2 ^ 32 →
          (Rust.attestationReportVerify env fromUtf8 text policyJson = .ok () ↔
            ∃ policy, env.json.decodePolicy policyJson = .ok policy ∧
              MatchReached env.verifier.sha256 attrs policy.mainAttributes)) := by
  rw [Rust.generateAttestationReport_eq _ _ _ _ hparams hparamsLen] at h
  obtain ⟨hgenerated, hfits⟩ := Rust.ofReportJson_eq_ok h
  obtain ⟨genParams, report, hdecode, hreport, hencode⟩ := generateReportJson_eq_ok.mp hgenerated
  have hutf8 := utf8_of_generated hagree hhonest.texts hreport
  obtain ⟨hread, hnul⟩ := hjson report text hutf8 hencode
  have hlen : text.length < 2 ^ 32 := lt_of_le_of_lt hfits (by decide)
  have hverify : ∀ policyJson : Bytes, 0 ∉ policyJson → policyJson.length < 2 ^ 32 →
      (Rust.attestationReportVerify env fromUtf8 text policyJson = .ok () ↔
        ∃ policy v, env.json.decodePolicy policyJson = .ok policy ∧
          createVerifier env.verifier report = .ok v ∧
          ∃ log, (v.verifyReport env.verifier policy).run [] = .ok ((), log)) := by
    intro policyJson hpolicy hpolicyLen
    rw [Rust.attestationReportVerify_eq env fromUtf8 hnul hpolicy hlen hpolicyLen,
      Rust.ofStatus_eq_ok, verifyAttestation_eq_ok]
    simp [hread]
  refine ⟨genParams, hdecode, ?_, ?_⟩
  · intro htype policyJson hpolicy hpolicyLen hok
    obtain ⟨policy, v, _, hcreate, _⟩ := (hverify policyJson hpolicy hpolicyLen).mp hok
    obtain ⟨jsonReport, rfl⟩ := generated_unifiedReport hreport
    exact htype (passport_of_createVerifier hcreate)
  · intro htype
    obtain ⟨v, attrs, hcreate, hplatform, hattrs, hname, hvalue⟩ :=
      verified_of_generated hagree hhonest htype hreport
    refine ⟨attrs, hname, hvalue, fun policyJson hpolicy hpolicyLen => ?_⟩
    rw [hverify policyJson hpolicy hpolicyLen]
    constructor
    · rintro ⟨policy, v', hpolicy, hcreate', hrun⟩
      cases hcreate.symm.trans hcreate'
      obtain ⟨_, attrs', hattrs', hmatch⟩ := AttestationVerifier.verifyReport_eq_ok.mp hrun
      cases hattrs.unique hattrs'
      exact ⟨policy, hpolicy, hmatch⟩
    · rintro ⟨policy, hpolicy, hmatch⟩
      exact ⟨policy, v, hpolicy, hcreate,
        AttestationVerifier.verifyReport_eq_ok.mpr ⟨hplatform, attrs, hattrs, hmatch⟩⟩

def reportOrEmpty : Except Exn UnifiedAttestationReport → UnifiedAttestationReport
  | .ok report => report
  | .error _ => {}

/-- The report of the platform for parameters with a type only. -/
def samplePassport : UnifiedAttestationReport :=
  reportOrEmpty (createAttestationGenerator sampleGenerator (some (.sgx2 sampleSgxDevice))
    { reportType := kReportTypePassport })

/-- One report has a text; parameters and policies are given by one field. -/
def sampleJson : JsonCodec where
  decodeReport _ := .ok samplePassport
  decodePolicy text := .ok { mainAttributes := [{ hexUserData := text }] }
  decodeParams text := .ok { reportType := text }
  encodeAttributes _ := .ok []
  encodeReport report := if report = samplePassport then .ok (str "report") else .error []

theorem sampleJson_readsReports : sampleJson.ReadsReports := by
  intro report text _ h
  simp only [sampleJson] at h
  split at h
  next hreport =>
    cases h
    exact ⟨by rw [hreport]; rfl, by decide⟩
  next => cases h

theorem sample_rustGenerates :
    Rust.generateAttestationReport sampleJson
      (createAttestationGenerator sampleGenerator (some (.sgx2 sampleSgxDevice))) (fun _ => [])
      (fun _ => none) kReportTypePassport = .ok (str "report") := by
  obtain ⟨report, hreport⟩ := sample_generates
    { reportType := kReportTypePassport } rfl ⟨by decide, by decide, by decide⟩
  have hpassport : report = samplePassport := (congrArg reportOrEmpty hreport).symm
  have hencode : sampleJson.encodeReport report = .ok (str "report") := by
    simp only [sampleJson, if_pos hpassport]
  have htext : generateReportJson sampleJson
      (createAttestationGenerator sampleGenerator (some (.sgx2 sampleSgxDevice)))
      kReportTypePassport = .ok (str "report") :=
    generateReportJson_eq_ok.mpr
      ⟨{ reportType := kReportTypePassport }, report, rfl, hreport, hencode⟩
  rw [Rust.generateAttestationReport_eq _ _ _ _ (by decide) (by decide), htext]
  rfl

/-- The report shows 32 zero bytes. -/
theorem rust_generated_verifies_iff_sample :
    Rust.attestationReportVerify ⟨sampleVerifierEnv, sampleJson, fun _ => []⟩ (fun _ => none)
      (str "report") (List.replicate 64 48) = .ok () ∧
    Rust.attestationReportVerify ⟨sampleVerifierEnv, sampleJson, fun _ => []⟩ (fun _ => none)
      (str "report") (List.replicate 64 49) ≠ .ok () := by
  obtain ⟨genParams, hdecode, _, hpassport⟩ := rust_generated_verifies_iff
    ⟨sampleVerifierEnv, sampleJson, fun _ => []⟩ sampleGenerator (.sgx2 sampleSgxDevice)
    (fun _ => none) kReportTypePassport (str "report") sample_codecsAgree sampleSgxDevice_honest
    sampleJson_readsReports (by decide) (by decide) sample_rustGenerates
  cases hdecode
  obtain ⟨attrs, _, hvalue, hverify⟩ := hpassport rfl
  have hzeros : attrs.hexUserData = List.replicate 64 48 := hvalue.trans (by decide)
  have hmatch : ∀ field : Bytes, field ≠ [] →
      (MatchReached paddingSha256 attrs [userDataRule field] ↔
        equalsIgnoreCase field (List.replicate 64 48) = true) := by
    intro field hfield
    rw [← hzeros, ← attrsIsMatch_userDataRule paddingSha256 attrs hfield, attrsIsMatch_eq_pass,
      ← verifyAttributes_singleton paddingSha256 attrs _ { mainAttributes := [userDataRule field] }
        rfl, verifyAttributes_eq_ok]
  constructor
  · refine (hverify _ (by decide) (by decide)).mpr ⟨_, rfl, ?_⟩
    exact (hmatch _ (by decide)).mpr (by decide)
  · intro hok
    obtain ⟨policy, hpolicy, hreached⟩ := (hverify _ (by decide) (by decide)).mp hok
    cases hpolicy
    exact absurd ((hmatch _ (by decide)).mp hreached) (by decide)

end TrustFlow.Attestation
