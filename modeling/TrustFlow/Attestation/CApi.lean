import TrustFlow.Attestation.Verifier
import TrustFlow.CString

/-! # The C interface

`ParseAttributesFromReport`, `AttestationReportVerify` and
`GenerateAttestationReport`.  Each runs its work in a `try` block; four handlers
turn what was thrown into an error code and texts in two buffers of the caller, and
a tail that all paths share terminates both buffers and measures them.

JSON conversion, the generator of the platform and the text of a stack trace are
parameters. -/

namespace TrustFlow.Attestation

/-! ## JSON -/

/-- `JsonStringToMessage` and `MessageToJsonString` for the messages at hand; a failed conversion
    returns the text of its status. -/
structure JsonCodec where
  decodeReport : Bytes → Except Bytes UnifiedAttestationReport
  decodePolicy : Bytes → Except Bytes UnifiedAttestationPolicy
  decodeParams : Bytes → Except Bytes UnifiedAttestationGenerationParams
  encodeAttributes : UnifiedAttestationAttributes → Except Bytes Bytes
  encodeReport : UnifiedAttestationReport → Except Bytes Bytes

/-- `JSON2PB`. -/
def json2pb {α : Type} (decode : Bytes → Except Bytes α) (json : Bytes) : Except Exn α :=
  match decode json with
  | .ok message => .ok message
  | .error status => .error ⟨.enforceNotMet,
      str "Parsing json to pb message failed, json: " ++ json ++ str ", error: " ++ status⟩

/-- `PB2JSON`. -/
def pb2json {α : Type} (encode : α → Except Bytes Bytes) (message : α) : Except Exn Bytes :=
  match encode message with
  | .ok json => .ok json
  | .error status => .error ⟨.enforceNotMet,
      str "Parsing pb message to json failed, error: " ++ status⟩

/-! ## The handlers and the tail -/

def kArgumentError : Nat := 1
def kInvalidFormat : Nat := 6
def kInternalError : Nat := 18

/-- What a call leaves for its caller: the code, the two buffers, and the lengths it reports. -/
structure CApiStatus where
  code : Nat
  msg : Bytes
  msgLen : Nat
  details : Bytes
  detailsLen : Nat
deriving DecidableEq

/-- "ensure msg end with '\0'": a buffer of no bytes is left alone. -/
def ensureEnd (buf : Bytes) : Bytes × Nat :=
  if 0 < buf.length then (terminate buf, strlen (terminate buf) + 1) else (buf, buf.length)

/-- The handlers of the `try` block: the code, and both buffers before they are terminated.
    Only an exception of the base library has a stack trace to copy. -/
def handlers {α : Type} (stackTrace : Exn → Bytes) (outcome : Except Exn α)
    (msg details : Bytes) : Nat × Bytes × Bytes :=
  match outcome with
  | .ok _ => (0, msg, details)
  | .error ex =>
    match ex.kind with
    | .argumentError =>
      (kArgumentError, strncpy msg ex.what msg.length,
        strncpy details (stackTrace ex) details.length)
    | .invalidFormat =>
      (kInvalidFormat, strncpy msg ex.what msg.length,
        strncpy details (stackTrace ex) details.length)
    | .enforceNotMet | .runtimeError =>
      (kInternalError, strncpy msg ex.what msg.length,
        strncpy details (stackTrace ex) details.length)
    | .stdException => (kInternalError, strncpy msg ex.what msg.length, details)

/-- The part that the three functions have in common.  A buffer is as long as the length that is
    passed with it. -/
def reportStatus {α : Type} (stackTrace : Exn → Bytes) (outcome : Except Exn α)
    (msg details : Bytes) : CApiStatus :=
  let (code, msg, details) := handlers stackTrace outcome msg details
  let (msg, msgLen) := ensureEnd msg
  let (details, detailsLen) := ensureEnd details
  { code, msg, msgLen, details, detailsLen }

/-! ## The functions -/

structure CApiEnv where
  verifier : VerifierEnv
  json : JsonCodec
  stackTrace : Exn → Bytes

/-- `VerifierFactory::Create` on the text of a report. -/
def createFromJson (env : CApiEnv) (reportJson : Bytes) : Except Exn AttestationVerifier := do
  let report ← json2pb env.json.decodeReport reportJson
  createVerifier env.verifier report

/-- The `try` block of `ParseAttributesFromReport`. -/
def parseAttributes (env : CApiEnv) (reportJson : Bytes) (attrsBufLen : Nat) :
    Except Exn Bytes := do
  let verifier ← createFromJson env reportJson
  let (attrs, _) ← (verifier.parseUnifiedReport env.verifier).run []
  let attrsJson ← pb2json env.json.encodeAttributes attrs
  enforce (attrsJson.length ≤ attrsBufLen)
    (str "attrs_buf_len(got " ++ decimal attrsBufLen ++
      str ") should not be less than attrs json size(" ++ decimal attrsJson.length ++ str ")")
  return attrsJson

/-- A buffer and the length reported for it, after a `try` block that returns what to copy. -/
def copyOut (outcome : Except Exn Bytes) (buf : Bytes) : Bytes × Nat :=
  match outcome with
  | .ok json => (overwrite buf 0 json, json.length)
  | .error _ => (buf, buf.length)

def parseAttributesFromReport (env : CApiEnv) (reportJson attrsBuf msg details : Bytes) :
    (Bytes × Nat) × CApiStatus :=
  let outcome := parseAttributes env reportJson attrsBuf.length
  (copyOut outcome attrsBuf, reportStatus env.stackTrace outcome msg details)

/-- The `try` block of `AttestationReportVerify`. -/
def verifyAttestation (env : CApiEnv) (reportJson policyJson : Bytes) : Except Exn Unit := do
  let policy ← json2pb env.json.decodePolicy policyJson
  let verifier ← createFromJson env reportJson
  let _ ← (verifier.verifyReport env.verifier policy).run []

def attestationReportVerify (env : CApiEnv) (reportJson policyJson msg details : Bytes) :
    CApiStatus :=
  reportStatus env.stackTrace (verifyAttestation env reportJson policyJson) msg details

/-- The generator of the platform, `CreateAttestationGenerator()->GenerateReport`. -/
abbrev GenerateReport := UnifiedAttestationGenerationParams → Except Exn UnifiedAttestationReport

/-- The `try` block of `GenerateAttestationReport`; a null pointer is `none`. -/
def generateReport (json : JsonCodec) (generate : GenerateReport)
    (params reportBuf : Option Bytes) : Except Exn Bytes := do
  match params, reportBuf with
  | some params, some reportBuf =>
    let genParams ← json2pb json.decodeParams params
    let report ← generate genParams
    let reportJson ← pb2json json.encodeReport report
    enforce (reportJson.length ≤ reportBuf.length)
      (str "report_len(got " ++ decimal reportBuf.length ++
        str ") should not be less than report json size(" ++ decimal reportJson.length ++ str ")")
    return reportJson
  | _, _ => .error ⟨.enforceNotMet, str "params_buf or report_buf is null"⟩

def generateAttestationReport (json : JsonCodec) (generate : GenerateReport)
    (stackTrace : Exn → Bytes) (params reportBuf : Option Bytes) (msg details : Bytes) :
    Option (Bytes × Nat) × CApiStatus :=
  let outcome := generateReport json generate params reportBuf
  (reportBuf.map (copyOut outcome), reportStatus stackTrace outcome msg details)

/-! ## What a caller sees -/

/-- The code, the two lengths, and the bytes up to these lengths are the same. -/
structure CApiStatus.Shows (r r' : CApiStatus) : Prop where
  code : r.code = r'.code
  msgLen : r.msgLen = r'.msgLen
  detailsLen : r.detailsLen = r'.detailsLen
  msg : r.msg.take r.msgLen = r'.msg.take r'.msgLen
  details : r.details.take r.detailsLen = r'.details.take r'.detailsLen

/-- What a call shows does not depend on what the two buffers held before. -/
def NoStaleBytes (call : Bytes → Bytes → CApiStatus) (msgLen detailsLen : Nat) : Prop :=
  ∀ msg msg' details details' : Bytes, msg.length = msgLen → msg'.length = msgLen →
    details.length = detailsLen → details'.length = detailsLen →
    (call msg details).Shows (call msg' details')

/-- Every buffer that has room for more than a terminator is written by the handlers. -/
def Overwrites {α : Type} (outcome : Except Exn α) (msgLen detailsLen : Nat) : Prop :=
  match outcome with
  | .ok _ => msgLen ≤ 1 ∧ detailsLen ≤ 1
  | .error ex => ex.kind = .stdException → detailsLen ≤ 1

/-- The message of a thrown exception is its text, cut to the buffer and terminated. -/
def ReportsMessage {α : Type} (call : Bytes → Bytes → CApiStatus) (outcome : Except Exn α) :
    Prop :=
  ∀ ex, outcome = .error ex → 0 ∉ ex.what → ∀ msg details : Bytes, 1 ≤ msg.length →
    (call msg details).msgLen = min ex.what.length (msg.length - 1) + 1 ∧
    (call msg details).msg.take (call msg details).msgLen =
      ex.what.take (min ex.what.length (msg.length - 1)) ++ [0]

/-! ## Terminated buffers -/

/-- What a caller sees of a buffer that the handlers leave as `buf`. -/
def shown (buf : Bytes) : Bytes × Nat :=
  let (buf, len) := ensureEnd buf
  (buf.take len, len)

theorem shown_strncpy {buf buf' : Bytes} (src : Bytes) (h : buf.length = buf'.length) :
    shown (strncpy buf src buf.length) = shown (strncpy buf' src buf'.length) := by
  -- A copy into the whole buffer leaves nothing of what was there.
  have hcopy : strncpy buf src buf.length = strncpy buf' src buf'.length := by
    simp [strncpy, h]
  rw [hcopy]

theorem shown_of_short {buf buf' : Bytes} (h : buf.length = buf'.length) (hshort : buf.length ≤ 1) :
    shown buf = shown buf' := by
  match buf, buf', h with
  | [], [], _ => rfl
  | [_], [_], _ => rfl
  | _ :: _ :: _, _, _ => simp at hshort

theorem shown_of_ne_nil {buf : Bytes} (h : buf ≠ []) :
    shown buf = (terminated buf, strlen (terminate buf) + 1) := by
  have hpos := List.length_pos_of_ne_nil h
  simp [shown, ensureEnd, hpos, terminated]

/-- Two contents of a buffer that a caller can tell apart. -/
theorem shown_ne {n : Nat} (h : 1 < n) :
    (shown (List.replicate n 0)).2 ≠ (shown (List.replicate n 1)).2 := by
  obtain ⟨k, rfl⟩ : ∃ k, n = k + 2 := ⟨n - 2, by omega⟩
  have hzeros : terminate (List.replicate (k + 2) 0) = [] ++ 0 :: List.replicate (k + 1) 0 := by
    rw [terminate_eq (by simp)]
    simp [List.replicate_succ, ← List.replicate_succ']
  have hones : terminate (List.replicate (k + 2) 1) = List.replicate (k + 1) 1 ++ 0 :: [] := by
    rw [terminate_eq (by simp)]
    simp
  have hnone : (0 : UInt8) ∉ ([] : Bytes) := List.not_mem_nil
  have hnul : (0 : UInt8) ∉ List.replicate (k + 1) 1 := by simp
  simp only [shown, ensureEnd, List.length_replicate, Nat.succ_pos, if_true, hzeros, hones, strlen,
    cText_append_nul hnone, cText_append_nul hnul]
  simp

/-! ## Stale bytes -/

section Outcome

variable {α : Type} (stackTrace : Exn → Bytes)

/-- What each end of the `try` block does to the buffers. -/
theorem handlers_ok (a : α) (msg details : Bytes) :
    handlers stackTrace (.ok a) msg details = (0, msg, details) := rfl

theorem handlers_stdException {ex : Exn} (h : ex.kind = .stdException) (msg details : Bytes) :
    handlers stackTrace (.error ex : Except Exn α) msg details =
      (kInternalError, strncpy msg ex.what msg.length, details) := by
  simp [handlers, h]

theorem handlers_yacl {ex : Exn} (h : ex.kind ≠ .stdException) :
    ∃ code, ∀ msg details, handlers stackTrace (.error ex : Except Exn α) msg details =
      (code, strncpy msg ex.what msg.length, strncpy details (stackTrace ex) details.length) := by
  cases hkind : ex.kind with
  | argumentError => exact ⟨kArgumentError, fun msg details => by simp only [handlers, hkind]⟩
  | invalidFormat => exact ⟨kInvalidFormat, fun msg details => by simp only [handlers, hkind]⟩
  | enforceNotMet => exact ⟨kInternalError, fun msg details => by simp only [handlers, hkind]⟩
  | runtimeError => exact ⟨kInternalError, fun msg details => by simp only [handlers, hkind]⟩
  | stdException => exact absurd hkind h

variable {stackTrace} {outcome : Except Exn α}

/-- Both calls go through the tail, which shows a caller two buffers. -/
theorem shows_iff {msg msg' details details' : Bytes} :
    (reportStatus stackTrace outcome msg details).Shows
        (reportStatus stackTrace outcome msg' details') ↔
      (handlers stackTrace outcome msg details).1 = (handlers stackTrace outcome msg' details').1 ∧
      shown (handlers stackTrace outcome msg details).2.1 =
        shown (handlers stackTrace outcome msg' details').2.1 ∧
      shown (handlers stackTrace outcome msg details).2.2 =
        shown (handlers stackTrace outcome msg' details').2.2 := by
  simp only [Prod.ext_iff, shown]
  constructor
  · intro h
    exact ⟨h.code, ⟨h.msg, h.msgLen⟩, h.details, h.detailsLen⟩
  · rintro ⟨hcode, ⟨hmsg, hmsgLen⟩, hdetails, hdetailsLen⟩
    exact ⟨hcode, hmsgLen, hdetailsLen, hmsg, hdetails⟩

/-- A buffer that the handlers left as it was gives its contents away if it has room for any. -/
theorem le_one_of_shown {n : Nat}
    (h : ∀ buf buf' : Bytes, buf.length = n → buf'.length = n → shown buf = shown buf') :
    n ≤ 1 := by
  by_contra hroom
  have hsame := h (List.replicate n 0) (List.replicate n 1) List.length_replicate
    List.length_replicate
  exact shown_ne (by omega) (congrArg Prod.snd hsame)

theorem noStaleBytes_iff (stackTrace : Exn → Bytes) (outcome : Except Exn α)
    (msgLen detailsLen : Nat) :
    NoStaleBytes (reportStatus stackTrace outcome) msgLen detailsLen ↔
      Overwrites outcome msgLen detailsLen := by
  have hzeros : ∀ n, (List.replicate n (0 : UInt8)).length = n := fun n => List.length_replicate
  simp only [NoStaleBytes, shows_iff]
  cases outcome with
  | ok a =>
    simp only [handlers_ok, Overwrites]
    constructor
    · intro hsame
      constructor
      · apply le_one_of_shown
        intro buf buf' hbuf hbuf'
        exact (hsame buf buf' _ _ hbuf hbuf' (hzeros _) (hzeros _)).2.1
      · apply le_one_of_shown
        intro buf buf' hbuf hbuf'
        exact (hsame _ _ buf buf' (hzeros _) (hzeros _) hbuf hbuf').2.2
    · rintro ⟨hmsg, hdetails⟩ msg msg' details details' h₁ h₂ h₃ h₄
      exact ⟨trivial, shown_of_short (h₁.trans h₂.symm) (by omega),
        shown_of_short (h₃.trans h₄.symm) (by omega)⟩
  | error ex =>
    by_cases hkind : ex.kind = .stdException
    · simp only [handlers_stdException stackTrace hkind, Overwrites, hkind, true_imp_iff]
      constructor
      · intro hsame
        apply le_one_of_shown
        intro buf buf' hbuf hbuf'
        exact (hsame _ _ buf buf' (hzeros _) (hzeros _) hbuf hbuf').2.2
      · intro hdetails msg msg' details details' h₁ h₂ h₃ h₄
        exact ⟨trivial, shown_strncpy ex.what (h₁.trans h₂.symm),
          shown_of_short (h₃.trans h₄.symm) (by omega)⟩
    · obtain ⟨code, hhandlers⟩ := handlers_yacl (α := α) stackTrace hkind
      simp only [hhandlers, Overwrites, hkind, false_imp_iff, iff_true]
      intro msg msg' details details' h₁ h₂ h₃ h₄
      exact ⟨trivial, shown_strncpy ex.what (h₁.trans h₂.symm),
        shown_strncpy (stackTrace ex) (h₃.trans h₄.symm)⟩

theorem handlers_msg (stackTrace : Exn → Bytes) (ex : Exn) (msg details : Bytes) :
    (handlers stackTrace (.error ex : Except Exn α) msg details).2.1 =
      strncpy msg ex.what msg.length := by
  by_cases hkind : ex.kind = .stdException
  · rw [handlers_stdException stackTrace hkind]
  · obtain ⟨code, hhandlers⟩ := handlers_yacl (α := α) stackTrace hkind
    rw [hhandlers]

theorem reportsMessage (stackTrace : Exn → Bytes) (outcome : Except Exn α) :
    ReportsMessage (reportStatus stackTrace outcome) outcome := by
  rintro ex rfl hnul msg details hlen
  have hne : msg ≠ [] := List.ne_nil_of_length_pos hlen
  obtain ⟨htext, hstrlen⟩ := terminated_strncpy ex.what hne
  rw [cText_of_noNul hnul] at htext hstrlen
  have hcopy : strncpy msg ex.what msg.length ≠ [] := by
    apply List.ne_nil_of_length_pos
    rw [strncpy_length]
    exact hlen
  have hshown := shown_of_ne_nil hcopy
  rw [htext, hstrlen, ← handlers_msg (α := α) stackTrace ex msg details, Nat.min_comm] at hshown
  have hcut : ex.what.take (min ex.what.length (msg.length - 1)) =
      ex.what.take (msg.length - 1) := by
    rw [Nat.min_comm, ← List.take_take, List.take_length]
  rw [hcut]
  exact ⟨congrArg Prod.snd hshown, congrArg Prod.fst hshown⟩

end Outcome

/-- For each of the three functions: what it shows depends on the old contents of a buffer exactly
    if the work ends without an exception and a buffer has room for more than a terminator, or
    ends in an exception of the standard library and the details buffer has; and the message of
    a thrown exception is its text, cut to the buffer and terminated. -/
theorem cApi_stale_iff (env : CApiEnv) (generate : GenerateReport) (reportJson policyJson : Bytes)
    (attrsBuf : Bytes) (params reportBuf : Option Bytes) :
    (∀ msgLen detailsLen,
      NoStaleBytes (fun msg details =>
          (parseAttributesFromReport env reportJson attrsBuf msg details).2) msgLen detailsLen ↔
        Overwrites (parseAttributes env reportJson attrsBuf.length) msgLen detailsLen) ∧
    (∀ msgLen detailsLen,
      NoStaleBytes (attestationReportVerify env reportJson policyJson) msgLen detailsLen ↔
        Overwrites (verifyAttestation env reportJson policyJson) msgLen detailsLen) ∧
    (∀ msgLen detailsLen,
      NoStaleBytes (fun msg details => (generateAttestationReport env.json generate env.stackTrace
          params reportBuf msg details).2) msgLen detailsLen ↔
        Overwrites (generateReport env.json generate params reportBuf) msgLen detailsLen) ∧
    ReportsMessage (fun msg details =>
        (parseAttributesFromReport env reportJson attrsBuf msg details).2)
      (parseAttributes env reportJson attrsBuf.length) ∧
    ReportsMessage (attestationReportVerify env reportJson policyJson)
      (verifyAttestation env reportJson policyJson) ∧
    ReportsMessage (fun msg details => (generateAttestationReport env.json generate env.stackTrace
        params reportBuf msg details).2)
      (generateReport env.json generate params reportBuf) :=
  ⟨fun _ _ => noStaleBytes_iff _ _ _ _, fun _ _ => noStaleBytes_iff _ _ _ _,
    fun _ _ => noStaleBytes_iff _ _ _ _, reportsMessage _ _, reportsMessage _ _,
    reportsMessage _ _⟩

/-- The JSON text of a message without fields. -/
def emptyObject : Bytes := str "\x7b\x7d"

/-- Only messages without fields have a text. -/
def emptyJson : JsonCodec where
  decodeReport text := if text = emptyObject then .ok {} else .error (str "Expected no field.")
  decodePolicy text :=
    if text = emptyObject then .ok { mainAttributes := [] } else .error (str "Expected no field.")
  decodeParams text := if text = emptyObject then .ok {} else .error (str "Expected no field.")
  encodeAttributes attrs := if attrs = {} then .ok emptyObject else .error (str "Set field.")
  encodeReport report := if report = {} then .ok emptyObject else .error (str "Set field.")

/-- A report is generated with success, and the message buffer comes back with what the caller
    had left in it. -/
theorem generate_shows_old_message :
    let call := fun msg => (generateAttestationReport emptyJson (fun _ => .ok {}) (fun _ => [])
      (some emptyObject) (some (List.replicate 64 0)) msg []).2
    call (str "ab") = ⟨0, [97, 0], 2, [], 0⟩ ∧ call (str "ba") = ⟨0, [98, 0], 2, [], 0⟩ := by
  decide

end TrustFlow.Attestation
