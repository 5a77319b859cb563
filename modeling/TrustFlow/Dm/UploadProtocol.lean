import Mathlib.Data.List.Range
import TrustFlow.Dm.Registration
import TrustFlow.Dm.UploadRetries

/-! # The upload protocol

`eval_upload` on the uploader, with the server of the receiver, the data mesh of the
receiver and the Capsule Manager.  The uploader encrypts the file under a new key,
sends it in up to five attempts, shuts the server down and registers the key last.
Any step may fail, any response may be lost, and the uploader may stop anywhere; the
key is nowhere but in its memory until it is registered. -/

namespace TrustFlow.Dm

open Proxy (pathAppend)

/-! ## The uploader -/

/-- What an upload is run with. -/
structure UploaderEnv where
  server : ServerEnv
  mesh : DataMesh
  queryDomainData : Bytes → Response DomainData
  parse : UrllibParse
  messageToJson : DomainData → Bytes
  readFile : Bytes → Option Bytes
  encryptFile : Bytes → Bytes → Bytes → Bytes
  inputUri : Bytes
  outputUri : Bytes

def aesKeyLenInBytes : Nat := 16

def Datamesh.getDomainData (queryDomainData : Bytes → Response DomainData) (id : Bytes) :
    Except Error DomainData :=
  let ret := queryDomainData id
  if ret.code ≠ 0 then .error .request
  else .ok (ret.data.getD ⟨[], [], [], [], [], [], none, [], [], .unknown, []⟩)

/-- The encrypted file with the key that it is encrypted under. -/
structure SealedFile (env : UploaderEnv) where
  dataKey : Bytes
  file : UploadFile
  encrypted : ∃ nonce content, file.content = env.encryptFile nonce dataKey content

/-- The steps of the uploader up to the encryption. -/
def prepareUpload (env : UploaderEnv) (nonce dataKey : Bytes) : Except Error (SealedFile env) := do
  let domainDataId ← getDomainDataId env.parse env.inputUri
  let domainData ← Datamesh.getDomainData env.queryDomainData domainDataId
  let datasource ← Datamesh.getDomainDataSource env.mesh domainData.datasourceId
  let filePath := pathAppend (Datamesh.localPath datasource) domainData.relativeUri
  let content ← okOr (env.readFile filePath) .io
  return ⟨dataKey, ⟨filePath, env.encryptFile nonce dataKey content, env.outputUri,
    env.messageToJson domainData⟩, nonce, content, rfl⟩

inductive Uploader (env : UploaderEnv) where
  | preparing
  | uploading (file : SealedFile env) (tries : Nat)
  | awaiting (file : SealedFile env) (tries : Nat)
  | uploaded (file : SealedFile env)
  | shutDown (file : SealedFile env)
  | finished (file : SealedFile env)
  | stopped (dataKey : Option Bytes)

def Uploader.dataKey {env : UploaderEnv} : Uploader env → Option Bytes
  | .preparing => none
  | .uploading file _ | .awaiting file _ | .uploaded file | .shutDown file | .finished file =>
    some file.dataKey
  | .stopped dataKey => dataKey

/-! ## The system -/

structure System (env : UploaderEnv) where
  uploader : Uploader env
  /-- The requests at the server, by the number of the attempt. -/
  attempts : Nat → Option Upload
  world : World
  /-- The data keys of the Capsule Manager, each with the id that it is registered under. -/
  keys : List (Bytes × Bytes)

def System.start (env : UploaderEnv) (world : World) (keys : List (Bytes × Bytes)) : System env :=
  ⟨.preparing, fun _ => none, world, keys⟩

inductive ProtocolStep (env : UploaderEnv) : System env → System env → Prop where
  | prepare {s : System env} {nonce dataKey file} (huploader : s.uploader = .preparing)
      (hkey : dataKey.length = aesKeyLenInBytes)
      (hfile : prepareUpload env nonce dataKey = .ok file) :
      ProtocolStep env s { s with uploader := .uploading file 0 }
  | send {s : System env} {file tries chunks} (huploader : s.uploader = .uploading file tries)
      (htries : tries < 5) (hchunks : chunks.flatten = file.file.content) :
      ProtocolStep env s
        { s with
          uploader := .awaiting file tries
          attempts := Function.update s.attempts tries
            (some (Upload.start (file.file.fields chunks))) }
  | receive {s : System env} {n u u' world} (hattempt : s.attempts n = some u)
      (hstep : Step env.server s.world u world u') :
      ProtocolStep env s
        { s with world := world, attempts := Function.update s.attempts n (some u') }
  | accepted {s : System env} {file tries u loc} (huploader : s.uploader = .awaiting file tries)
      (hattempt : s.attempts tries = some u) (hphase : u.phase = .answered loc) :
      ProtocolStep env s { s with uploader := .uploaded file }
  /-- The attempt was answered with an error, or its response was lost. -/
  | retry {s : System env} {file tries} (huploader : s.uploader = .awaiting file tries) :
      ProtocolStep env s { s with uploader := .uploading file (tries + 1) }
  | shutdown {s : System env} {file} (huploader : s.uploader = .uploaded file) :
      ProtocolStep env s { s with uploader := .shutDown file }
  | createDataKeys {s : System env} {file id} (huploader : s.uploader = .shutDown file)
      (hid : getDomainDataId env.parse env.outputUri = .ok id) :
      ProtocolStep env s
        { s with uploader := .finished file, keys := s.keys ++ [(id, file.dataKey)] }
  /-- The Capsule Manager registers the key, and the uploader does not learn of it. -/
  | createLost {s : System env} {file id} (huploader : s.uploader = .shutDown file)
      (hid : getDomainDataId env.parse env.outputUri = .ok id) :
      ProtocolStep env s
        { s with uploader := .stopped (some file.dataKey), keys := s.keys ++ [(id, file.dataKey)] }
  | stop {s : System env} :
      ProtocolStep env s { s with uploader := .stopped s.uploader.dataKey }

/-! ## The key behind the data -/

/-- The key of this upload is registered under the id. -/
def KeyRegistered {env : UploaderEnv} (s : System env) (id : Bytes) : Prop :=
  ∃ dataKey, s.uploader.dataKey = some dataKey ∧ (id, dataKey) ∈ s.keys

/-- Whatever this upload has registered in the mesh has its key in the Capsule Manager. -/
def KeyBehindData {env : UploaderEnv} (registered : List DomainData)
    (s : System env) : Prop :=
  ∀ id, record registered id = none → record s.world.registered id ≠ none → KeyRegistered s id

/-- An id that the step registers has its key in the Capsule Manager already before it. -/
def KeyFirst {env : UploaderEnv} (s s' : System env) : Prop :=
  ∀ id, record s.world.registered id = none → record s'.world.registered id ≠ none →
    KeyRegistered s id

section Protocol

variable {env : UploaderEnv} {s s' : System env} {registered : List DomainData}
  {id : Bytes}

/-- The key stays what it is, and the Capsule Manager forgets no key. -/
theorem ProtocolStep.keyRegistered (h : ProtocolStep env s s') (hid : KeyRegistered s id) :
    KeyRegistered s' id := by
  obtain ⟨dataKey, hkey, hmem⟩ := hid
  cases h with
  | prepare huploader => simp [huploader, Uploader.dataKey] at hkey
  | createDataKeys huploader | createLost huploader =>
    rw [huploader] at hkey
    exact ⟨dataKey, hkey, List.mem_append_left _ hmem⟩
  | send huploader | accepted huploader | retry huploader | shutdown huploader =>
    rw [huploader] at hkey
    exact ⟨dataKey, hkey, hmem⟩
  | receive | stop => exact ⟨dataKey, hkey, hmem⟩

/-- A step that registers something does nothing else outside of the receiver. -/
theorem ProtocolStep.registers (h : ProtocolStep env s s') :
    s'.world.registered = s.world.registered ∨
      s'.uploader = s.uploader ∧ s'.keys = s.keys := by
  cases h with
  | receive => exact .inr ⟨rfl, rfl⟩
  | _ => exact .inl rfl

theorem ProtocolStep.record_kept (h : ProtocolStep env s s')
    (hid : record s.world.registered id ≠ none) : record s'.world.registered id ≠ none := by
  cases h with
  | receive _ hstep =>
    obtain ⟨r, hr⟩ := Option.ne_none_iff_exists'.mp hid
    rw [hstep.record_kept hr]
    exact Option.some_ne_none r
  | _ => exact hid

theorem ProtocolStep.keyBehindData_iff (h : ProtocolStep env s s')
    (hkept : ∀ id, record registered id ≠ none → record s.world.registered id ≠ none)
    (hs : KeyBehindData registered s) : KeyBehindData registered s' ↔ KeyFirst s s' := by
  constructor
  · intro hs' id hnone hsome
    have hfresh : record registered id = none := by
      by_contra hold
      exact hkept id hold hnone
    -- The key of the new record is there after the step, so it was there before it.
    obtain ⟨dataKey, hkey, hmem⟩ := hs' id hfresh hsome
    rcases h.registers with hsame | ⟨huploader, hkeys⟩
    · rw [hsame] at hsome
      exact absurd hnone hsome
    · exact ⟨dataKey, huploader ▸ hkey, hkeys ▸ hmem⟩
  · intro hfirst id hfresh hsome
    by_cases hnone : record s.world.registered id = none
    · exact h.keyRegistered (hfirst id hnone hsome)
    · exact h.keyRegistered (hs id hfresh hnone)

theorem forall_keyBehindData_iff {run : List (System env)}
    (hrun : (s :: run).IsChain (ProtocolStep env))
    (hkept : ∀ id, record registered id ≠ none → record s.world.registered id ≠ none)
    (hs : KeyBehindData registered s) :
    (∀ t ∈ s :: run, KeyBehindData registered t) ↔ (s :: run).IsChain KeyFirst := by
  refine forall_mem_iff_isChain
    (fun s => ∀ id, record registered id ≠ none → record s.world.registered id ≠ none)
    ?_ ?_ hrun hkept hs
  · intro s s' hstep hkept id hid
    exact hstep.record_kept (hkept id hid)
  · intro s s' hstep hkept hs
    exact hstep.keyBehindData_iff hkept hs

theorem keyBehindData_start (env : UploaderEnv) (world : World) (keys : List (Bytes × Bytes)) :
    KeyBehindData world.registered (System.start env world keys) :=
  fun _ hnone hsome => absurd hnone hsome

end Protocol

/-! ## The order of the registrations -/

/-- Before anything is registered in the mesh, the uploader waits for an answer. -/
structure Unregistered {env : UploaderEnv} (world : World) (keys : List (Bytes × Bytes))
    (s : System env) : Prop where
  registered : s.world.registered = world.registered
  keys : s.keys = keys
  unanswered : ∀ n u loc, s.attempts n = some u → u.phase ≠ .answered loc
  waiting : (∀ file, s.uploader ≠ .uploaded file) ∧ ∀ file, s.uploader ≠ .shutDown file

/-- The Capsule Manager did not have the key of this upload before it. -/
def FreshKey {env : UploaderEnv} (keys : List (Bytes × Bytes)) (s : System env) : Prop :=
  ∀ id dataKey, s.uploader.dataKey = some dataKey → (id, dataKey) ∉ keys

section Order

variable {env : UploaderEnv} {world : World} {keys : List (Bytes × Bytes)} {s s' : System env}

theorem unanswered_update {attempts : Nat → Option Upload} {u' : Upload} (k : Nat)
    (h : ∀ n u loc, attempts n = some u → u.phase ≠ .answered loc)
    (hu' : ∀ loc, u'.phase ≠ .answered loc) :
    ∀ n u loc, Function.update attempts k (some u') n = some u → u.phase ≠ .answered loc := by
  intro n u loc hu
  by_cases hn : n = k
  · subst hn
    rw [Function.update_self] at hu
    cases hu
    exact hu' loc
  · rw [Function.update_of_ne hn] at hu
    exact h n u loc hu

theorem ProtocolStep.unregistered (h : ProtocolStep env s s') (hfresh : FreshKey keys s)
    (hfirst : KeyFirst s s') (hs : Unregistered world keys s) : Unregistered world keys s' := by
  obtain ⟨hregistered, hkeys, hunanswered, hwaiting⟩ := hs
  cases h with
  | prepare | retry | stop => exact ⟨hregistered, hkeys, hunanswered, by simp, by simp⟩
  | send =>
    exact ⟨hregistered, hkeys, unanswered_update _ hunanswered (by simp [Upload.start]), by simp,
      by simp⟩
  | @receive n u u' w' hattempt hstep =>
    -- Under a key that the Capsule Manager does not have, nothing may be registered first.
    have hsame : w'.registered = s.world.registered := by
      rcases hstep.registered with hsame | ⟨_, r, _, ⟨_, hnone⟩, happend⟩
      · exact hsame
      · have hrecord : record w'.registered r.domaindataId = some r := by
          rw [happend]
          exact record_concat_self hnone
        obtain ⟨dataKey, hkey, hmem⟩ := hfirst r.domaindataId hnone
          (hrecord ▸ Option.some_ne_none _)
        exact absurd (hkeys ▸ hmem) (hfresh _ dataKey hkey)
    refine ⟨hsame.trans hregistered, hkeys, unanswered_update _ hunanswered ?_, hwaiting⟩
    intro loc hphase
    cases hstep with
    | register _ hcreate =>
      obtain ⟨r, _, happend⟩ := DataMeshClient.createDomainData_ok hcreate
      simp [happend] at hsame
    | _ => cases hphase
  | accepted _ hattempt hphase => exact absurd hphase (hunanswered _ _ _ hattempt)
  | shutdown huploader => exact absurd huploader (hwaiting.1 _)
  | createDataKeys huploader | createLost huploader => exact absurd huploader (hwaiting.2 _)

theorem unregistered_of_keyFirst {run : List (System env)}
    (hrun : (s :: run).IsChain (ProtocolStep env)) (hfresh : ∀ t ∈ s :: run, FreshKey keys t)
    (hfirst : (s :: run).IsChain KeyFirst) (hs : Unregistered world keys s) :
    ∀ t ∈ s :: run, Unregistered world keys t := by
  induction run generalizing s with
  | nil => simpa using hs
  | cons t run ih =>
    obtain ⟨hstep, hrest⟩ := List.isChain_cons_cons.mp hrun
    obtain ⟨hfirst, hfirsts⟩ := List.isChain_cons_cons.mp hfirst
    obtain ⟨hfresh, hfreshs⟩ := List.forall_mem_cons.mp hfresh
    exact List.forall_mem_cons.mpr
      ⟨hs, ih hrest hfreshs hfirsts (hstep.unregistered hfresh hfirst hs)⟩

/-- The registration of the key comes last: with a key that the Capsule Manager did not have
    before, the key is behind the data throughout a run only if the run registers no data. -/
theorem keyBehindData_iff_unregistered (env : UploaderEnv) (world : World)
    (keys : List (Bytes × Bytes)) (run : List (System env))
    (hrun : (System.start env world keys :: run).IsChain (ProtocolStep env))
    (hfresh : ∀ s ∈ System.start env world keys :: run, FreshKey keys s) :
    (∀ s ∈ System.start env world keys :: run, KeyBehindData world.registered s) ↔
      ∀ s ∈ System.start env world keys :: run, s.world.registered = world.registered := by
  constructor
  · intro hsafe s hs
    have hfirst := (forall_keyBehindData_iff hrun (fun _ h => h)
      (keyBehindData_start env world keys)).mp hsafe
    have hstart : Unregistered world keys (System.start env world keys) :=
      ⟨rfl, rfl, by simp [System.start], by simp [System.start], by simp [System.start]⟩
    exact (unregistered_of_keyFirst hrun hfresh hfirst hstart s hs).registered
  · intro hsame s hs id hnone hsome
    rw [hsame s hs] at hsome
    exact absurd hnone hsome

end Order

/-! ## A run -/

def sampleRecord : DomainData :=
  ⟨str "t", [], [], str "x", str "ds1", [], none, [], [], .unknown, []⟩

/-- The same record as `MessageToJson` writes it. -/
def sampleRecordJson : Bytes :=
  str "\x7b\n  \"domaindata_id\": \"t\",\n  \"relative_uri\": \"x\",\n" ++
    str "  \"datasource_id\": \"ds1\"\n\x7d"

/-- One record and its file; the cipher puts the key in front. -/
def sampleUploader : UploaderEnv where
  server :=
    { sampleEnv with
      parseDomainData := fun json =>
        if json = sampleRecordJson then some sampleRecord else none }
  mesh := twoSources
  queryDomainData id :=
    if id = str "t" then ⟨some ⟨0, []⟩, some sampleRecord⟩
    else ⟨some ⟨1, str "not found"⟩, none⟩
  parse := plainParse
  messageToJson data := if data = sampleRecord then sampleRecordJson else []
  readFile path := if path = str "/a/x" then some (str "secret") else none
  encryptFile _ dataKey content := dataKey ++ content
  inputUri := str "dm://input/?id=t"
  outputUri := sampleUri (str "a")

def sampleKey : Bytes := str "0123456789abcdef"

def sampleSealed : SealedFile sampleUploader where
  dataKey := sampleKey
  file := ⟨str "/a/x", sampleKey ++ str "secret", sampleUri (str "a"), sampleRecordJson⟩
  encrypted := ⟨[], str "secret", rfl⟩

theorem prepareUpload_sample : prepareUpload sampleUploader [] sampleKey = .ok sampleSealed := rfl

/-- The first attempt after a number of steps of the server. -/
def attemptAfter (n : Nat) : World × Upload :=
  (fun a => next sampleUploader.server a.1 a.2)^[n]
    (emptyWorld, Upload.start (sampleSealed.file.fields [sampleSealed.file.content]))

def servedAfter (keys : List (Bytes × Bytes)) (n : Nat) : System sampleUploader where
  uploader := .awaiting sampleSealed 0
  attempts := Function.update (fun _ => none) 0 (some (attemptAfter n).2)
  world := (attemptAfter n).1
  keys := keys

def encryptedState (keys : List (Bytes × Bytes)) : System sampleUploader :=
  ⟨.uploading sampleSealed 0, fun _ => none, emptyWorld, keys⟩

/-- The file is encrypted and sent, the server takes `n` steps, and the uploader stops. -/
def sampleRun (keys : List (Bytes × Bytes)) (n : Nat) : List (System sampleUploader) :=
  encryptedState keys :: (List.range (n + 1)).map (servedAfter keys) ++
    [{ servedAfter keys n with uploader := .stopped (some sampleKey) }]

theorem servedAfter_step (keys : List (Bytes × Bytes)) {n : Nat} (hn : n < 9) :
    ProtocolStep sampleUploader (servedAfter keys n) (servedAfter keys (n + 1)) := by
  have hunfinished : ∀ n < 9, (attemptAfter n).2.phase.finished = false := by decide
  have hnext : attemptAfter (n + 1) =
      next sampleUploader.server (attemptAfter n).1 (attemptAfter n).2 :=
    Function.iterate_succ_apply' ..
  have hattempt : (servedAfter keys n).attempts 0 = some (attemptAfter n).2 := by
    simp [servedAfter]
  have hstep := ProtocolStep.receive hattempt (step_next (hunfinished n hn))
  simpa [servedAfter, hnext] using hstep

theorem sampleRun_isChain (keys : List (Bytes × Bytes)) {n : Nat} (hn : n ≤ 9) :
    (System.start sampleUploader emptyWorld keys :: sampleRun keys n).IsChain
      (ProtocolStep sampleUploader) := by
  have hprepare : ProtocolStep sampleUploader (System.start sampleUploader emptyWorld keys)
      (encryptedState keys) := .prepare rfl (by decide) prepareUpload_sample
  have hsend : ProtocolStep sampleUploader (encryptedState keys) (servedAfter keys 0) :=
    .send rfl (by decide) (List.flatten_singleton)
  have hserve : ((List.range (n + 1)).map (servedAfter keys)).IsChain
      (ProtocolStep sampleUploader) :=
    (List.isChain_map _).mpr
      ((List.isChain_range_succ _ n).mpr fun _ hm => servedAfter_step keys (by omega))
  have hstop : ProtocolStep sampleUploader (servedAfter keys n)
      { servedAfter keys n with uploader := .stopped (some sampleKey) } := .stop
  have hall := hserve.append (.singleton _) (by simpa [List.range_succ] using hstop)
  rw [List.range_succ_eq_map, List.map_cons, List.cons_append] at hall
  rw [sampleRun, List.range_succ_eq_map, List.map_cons, List.cons_append, List.cons_append]
  exact .cons_cons hprepare (.cons_cons hsend hall)

/-- The keys of an earlier upload under the same id. -/
def earlierKeys : List (Bytes × Bytes) := [(str "a", str "fedcba9876543210")]

/-- The attempt is cut after the server has stored the file, and nothing is registered. -/
theorem keyBehindData_iff_unregistered_sample :
    (System.start sampleUploader emptyWorld earlierKeys :: sampleRun earlierKeys 8).IsChain
        (ProtocolStep sampleUploader) ∧
      (servedAfter earlierKeys 8).world.fs.fileAt [str "data", str "a"] =
        some (sampleKey ++ str "secret") ∧
      ∀ s ∈ System.start sampleUploader emptyWorld earlierKeys :: sampleRun earlierKeys 8,
        KeyBehindData emptyWorld.registered s := by
  have hchain := sampleRun_isChain earlierKeys (by decide : 8 ≤ 9)
  have hempty : ∀ n < 9, (attemptAfter n).1.registered = [] := by decide
  have hkey : ∀ id, (id, sampleKey) ∉ earlierKeys := by
    intro id hmem
    have heq := (Prod.mk.inj (List.mem_singleton.mp hmem)).2
    exact absurd heq (by decide)
  refine ⟨hchain, by decide,
    (keyBehindData_iff_unregistered sampleUploader emptyWorld _ _ hchain ?_).mpr ?_⟩
  · intro s hs id dataKey hdata
    simp only [sampleRun, List.mem_cons, List.mem_append, List.mem_map, List.mem_range,
      List.not_mem_nil, or_false] at hs
    rcases hs with rfl | (rfl | ⟨n, hn, rfl⟩) | rfl
    · cases hdata
    · cases hdata
      exact hkey id
    · cases hdata
      exact hkey id
    · cases hdata
      exact hkey id
  · intro s hs
    simp only [sampleRun, List.mem_cons, List.mem_append, List.mem_map, List.mem_range,
      List.not_mem_nil, or_false] at hs
    rcases hs with rfl | (rfl | ⟨n, hn, rfl⟩) | rfl
    · rfl
    · rfl
    · exact hempty n hn
    · exact hempty 8 (by decide)

/-- The server has answered, and the uploader stops before it registers the key. -/
theorem uploader_stops_before_key :
    ∃ run, (System.start sampleUploader emptyWorld [] :: run).IsChain
        (ProtocolStep sampleUploader) ∧
      ∃ s ∈ run, s.uploader = .stopped (some sampleKey) ∧ s.keys = [] ∧
        s.world.fs.fileAt [str "data", str "a"] = some (sampleKey ++ str "secret") ∧
        (record s.world.registered (str "a")).map (fun r => (r.datasourceId, r.relativeUri)) =
          some (str "ds", str "a") ∧
        ¬ KeyBehindData emptyWorld.registered s := by
  have hrecord : (record (attemptAfter 9).1.registered (str "a")).map
      (fun r => (r.datasourceId, r.relativeUri)) = some (str "ds", str "a") := by
    decide
  refine ⟨sampleRun [] 9, sampleRun_isChain [] le_rfl, _,
    List.mem_append_right _ (List.mem_singleton.mpr rfl), rfl, rfl, by decide, hrecord, ?_⟩
  intro hsafe
  obtain ⟨r, hr, _⟩ := Option.map_eq_some_iff.mp hrecord
  obtain ⟨_, _, hmem⟩ := hsafe (str "a") rfl (hr ▸ Option.some_ne_none _)
  exact List.not_mem_nil hmem

end TrustFlow.Dm
