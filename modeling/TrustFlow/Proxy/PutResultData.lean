import TrustFlow.Proxy.EncryptedFile
import TrustFlow.Proxy.Paths
import Mathlib.Logic.Relation

/-! # The request `PutResultData`

`DataCapsuleProxyImpl::PutResultData` with `EncryptToDir` and `UploadToOss`, as the
steps of one request on the file system.  Encryption tasks run asynchronously, so
a task that was launched may complete at any later step; the order in which a
directory is listed is left open, and every call that leaves the process may fail
at any time.  What a request stored and registered is part of its state. -/

namespace TrustFlow.Proxy

/-! ## Data -/

/-- The content of a regular file; its size fits in a signed 64-bit number. -/
structure FileContent where
  bytes : Bytes
  size : bytes.length < 2 ^ 63
deriving DecidableEq

theorem FileContent.ext {c c' : FileContent} (h : c.bytes = c'.bytes) : c = c' := by
  cases c
  cases c'
  simp_all

abbrev FileSystem := FileTree Name FileContent

/-- What the proxy runs on: the libraries, and where the operating system finds a path. -/
structure ProxyEnv where
  gcm : GcmLibrary
  sha256 : Sha256
  base64Decode : Bytes → Except Exn Bytes
  resolve : Bytes → Location Name

def ProxyEnv.staging (env : ProxyEnv) (srcPath : Bytes) : Location Name :=
  env.resolve (genTempDir env.sha256 srcPath)

structure S3Config where
  endpoint : Bytes
  bucket : Bytes
  path : Bytes
deriving DecidableEq

structure CmResultConfig where
  scope : Bytes := []
  resourceUri : Bytes := []
  ancestorUuids : List Bytes := []
deriving DecidableEq

structure PutResultDataRequest where
  srcPath : Bytes
  dataKeyB64 : Bytes := []
  s3Config : Option S3Config := none
  localFsConfig : Option Bytes := none
  cmResultConfig : CmResultConfig := {}
deriving DecidableEq

def kKeyBytes : Nat := 16

def PutResultDataRequest.destPath (q : PutResultDataRequest) (H : Sha256) : Except Exn Bytes :=
  match q.s3Config, q.localFsConfig with
  -- A request with both destinations goes to the object store.
  | some _, _ => .ok (genTempDir H q.srcPath)
  | none, some path => .ok path
  | none, none => yaclThrow (str "Dest config not found")

/-- A file to encrypt: its path relative to the source, its location and its path text. -/
structure SourceItem where
  rel : Location Name
  loc : Location Name
  path : Bytes
deriving DecidableEq

/-- An object whose upload was reported as successful. -/
structure Upload where
  endpoint : Bytes
  bucket : Bytes
  key : Bytes
  content : Bytes
deriving DecidableEq

/-- The body of a `CreateResultDataKey` call that the Capsule Manager answered with OK. -/
structure ResultDataKey where
  scope : Bytes
  resourceUri : Bytes
  dataKeyB64 : Bytes
  ancestorUuids : List Bytes
deriving DecidableEq

/-! ## The parts of a request -/

def sourceItems (env : ProxyEnv) (fs : FileSystem) (srcPath : Bytes) :
    Except Exn (List SourceItem) :=
  match fs.node (env.resolve srcPath) with
  | none => .error ⟨.enforceNotMet, str "src_path " ++ srcPath ++ str " not exists"⟩
  | some (.file _) => .ok [⟨[filename srcPath], env.resolve srcPath, srcPath⟩]
  | some .dir =>
    .ok ((fs.regularFiles (env.resolve srcPath)).map fun rel =>
      ⟨rel, env.resolve srcPath ++ rel, pathAppend srcPath (relText rel)⟩)
  | some .other =>
    yaclThrow (str "src_path " ++ srcPath ++ str " is not a file or directory")

def SourceItem.dest (env : ProxyEnv) (destPath : Bytes) (i : SourceItem) : Location Name :=
  env.resolve destPath ++ encLocation i.rel

def SourceItem.destText (destPath : Bytes) (i : SourceItem) : Bytes :=
  pathAppend destPath (relText i.rel) ++ kEncSuffix

def makeParent (env : ProxyEnv) (destPath : Bytes) (i : SourceItem) (fs : FileSystem) :
    Option FileSystem :=
  -- Only a missing parent is created; whatever else is there is found out by the open.
  let parent := (i.dest env destPath).dropLast
  if fs.node parent = none then fs.createDirectories parent else some fs

def ioError (what : String) : Exn := ⟨.stdException, str what⟩

/-- What an output stream leaves at a location; a stream that was never opened leaves nothing. -/
def storeOutput (fs : FileSystem) (p : Location Name) (output : Option Bytes)
    (result : Except Exn Unit) : Except Exn Unit × FileSystem :=
  match output with
  | none => (result, fs)
  | some bytes =>
    if h : bytes.length < 2 ^ 63 then
      match fs.writeFile p ⟨bytes, h⟩ with
      | some fs' => (result, fs')
      | none => (.error (ioError "cannot open output file"), fs)
    else (.error (ioError "file too large"), fs)

/-- `EncryptFile` on the file system. -/
def encryptItem (env : ProxyEnv) (ivs : Nat → Blob kIvBytes) (destPath dataKey : Bytes)
    (i : SourceItem) (fs : FileSystem) : Except Exn Unit × FileSystem :=
  match fs.fileAt i.loc with
  | none => (.error (ioError "cannot open input file"), fs)
  | some c =>
    match (encryptFile env.gcm ivs i.path (i.destText destPath) dataKey).run
        (FileM.start c.bytes) with
    | .ok () s => storeOutput fs (i.dest env destPath) s.output (.ok ())
    | .error e s => storeOutput fs (i.dest env destPath) s.output (.error e)

def uploadOf (s3 : S3Config) (key : Bytes) (c : FileContent) : Upload :=
  ⟨s3.endpoint, s3.bucket, pathAppend s3.path key, c.bytes⟩

def checkResultConfig (cm : CmResultConfig) : Except Exn Unit := do
  enforce (cm.scope ≠ []) (str "scope can not be empty")
  -- Never fails: the caller has already branched on it.
  enforce (cm.resourceUri ≠ []) (str "resource_uri can not be empty")
  enforce (0 < cm.ancestorUuids.length) (str "ancestor_uuids can not be empty")

/-! ## The steps of a request -/

inductive Phase where
  | received
  | keyed (dataKey : Bytes)
  /-- The loop of `EncryptToDir`, the tasks it launched, and an exception to rethrow. -/
  | encrypting (dataKey : Bytes) (todo tasks : List SourceItem) (error : Option Exn)
  | encrypted (dataKey : Bytes)
  | uploading (dataKey : Bytes) (todo : List (Location Name))
  | uploaded (dataKey : Bytes)
  | stored (dataKey : Bytes)
  | succeeded (dataKey : Bytes)
  | failed (e : Exn)
deriving DecidableEq

structure RequestState where
  phase : Phase := .received
  uploads : List Upload := []
  registered : List ResultDataKey := []
deriving DecidableEq

/-- The states in which an exception leaves the `try` block at once. -/
def Phase.interruptible : Phase → Bool
  | .encrypting _ _ _ _ => false
  | .succeeded _ => false
  | .failed _ => false
  | _ => true

def Phase.finished : Phase → Bool
  | .succeeded _ => true
  | .failed _ => true
  | _ => false

/-- The exception that the request itself throws in a state, if any. -/
def thrown (env : ProxyEnv) (q : PutResultDataRequest) (fs : FileSystem) : Phase → Option Exn
  | .received =>
    if q.dataKeyB64 = [] then none
    else match env.base64Decode q.dataKeyB64 with
      | .error e => some e
      | .ok _ => none
  -- The destination is chosen before the source is looked at.
  | .keyed _ =>
    match q.destPath env.sha256, sourceItems env fs q.srcPath with
    | .error e, _ => some e
    | .ok _, .error e => some e
    | .ok _, .ok _ => none
  | .encrypted _ =>
    match fs.node (env.staging q.srcPath) with
    | none => some ⟨.enforceNotMet,
        str "src_path " ++ genTempDir env.sha256 q.srcPath ++ str " not exists"⟩
    | some .other => some ⟨.runtimeError, str "src_path is not a file or directory"⟩
    | _ => none
  | .stored _ =>
    if q.cmResultConfig.resourceUri = [] then none
    else match checkResultConfig q.cmResultConfig with
      | .error e => some e
      | .ok () => none
  | _ => none

/-- Some of what lies under `root` is gone, and nothing else changed. -/
def PartlyRemoved (root : Location Name) (fs fs' : FileSystem) : Prop :=
  ∀ p, fs'.node p = fs.node p ∨ root <+: p ∧ fs'.node p = none

/-- One step of a request.  `fault` is an exception from outside: the random generator, the
    object store, the Capsule Manager, the file system. -/
inductive Step (env : ProxyEnv) (q : PutResultDataRequest) :
    FileSystem → RequestState → FileSystem → RequestState → Prop where
  | randomKey {fs r} (dataKey : Blob kKeyBytes) :
      r.phase = .received → q.dataKeyB64 = [] →
      Step env q fs r fs { r with phase := .keyed dataKey.bytes }
  | decodeKey {fs r dataKey} :
      r.phase = .received → q.dataKeyB64 ≠ [] → env.base64Decode q.dataKeyB64 = .ok dataKey →
      Step env q fs r fs { r with phase := .keyed dataKey }
  | startEncrypt {fs r dataKey destPath items todo} :
      r.phase = .keyed dataKey → q.destPath env.sha256 = .ok destPath →
      sourceItems env fs q.srcPath = .ok items → todo.Perm items →
      Step env q fs r fs { r with phase := .encrypting dataKey todo [] none }
  | launch {fs r dataKey i todo tasks error destPath fs'} :
      r.phase = .encrypting dataKey (i :: todo) tasks error →
      q.destPath env.sha256 = .ok destPath → makeParent env destPath i fs = some fs' →
      Step env q fs r fs' { r with phase := .encrypting dataKey todo (tasks ++ [i]) error }
  /-- `create_directories` throws: no more tasks, those launched are waited for. -/
  | launchFault {fs r dataKey i todo tasks error destPath p fs'} (e : Exn) :
      r.phase = .encrypting dataKey (i :: todo) tasks error →
      q.destPath env.sha256 = .ok destPath → p <+: (i.dest env destPath).dropLast →
      fs' = fs ∨ fs.createDirectories p = some fs' →
      Step env q fs r fs' { r with phase := .encrypting dataKey [] tasks (some e) }
  | complete {fs r dataKey todo before i after error destPath ivs result fs'} :
      r.phase = .encrypting dataKey todo (before ++ i :: after) error →
      q.destPath env.sha256 = .ok destPath →
      encryptItem env ivs destPath dataKey i fs = (result, fs') →
      Step env q fs r fs' { r with
        phase := .encrypting dataKey todo (before ++ after)
          (match result with
            | .ok () => error
            | .error e => error.or (some e)) }
  /-- The file system fails a task, which leaves anything or nothing at its destination. -/
  | taskFault {fs r dataKey todo before i after error destPath fs'} (e : Exn) :
      r.phase = .encrypting dataKey todo (before ++ i :: after) error →
      q.destPath env.sha256 = .ok destPath →
      (fs' = fs ∨ ∃ c, fs.writeFile (i.dest env destPath) c = some fs') →
      Step env q fs r fs' { r with
        phase := .encrypting dataKey todo (before ++ after) (error.or (some e)) }
  | encryptFailed {fs r dataKey e} :
      r.phase = .encrypting dataKey [] [] (some e) →
      Step env q fs r fs { r with phase := .failed e }
  | encryptDone {fs r dataKey} :
      r.phase = .encrypting dataKey [] [] none →
      Step env q fs r fs { r with
        phase := if q.s3Config.isSome then .encrypted dataKey else .stored dataKey }
  /-- `UploadToOss` on a directory. -/
  | startUpload {fs r dataKey todo} :
      r.phase = .encrypted dataKey →
      fs.isDirectory (env.staging q.srcPath) = true →
      todo.Perm (fs.regularFiles (env.staging q.srcPath)) →
      Step env q fs r fs { r with phase := .uploading dataKey todo }
  /-- `UploadToOss` on a regular file. -/
  | uploadFile {fs r dataKey s3 c} :
      r.phase = .encrypted dataKey → q.s3Config = some s3 →
      fs.fileAt (env.staging q.srcPath) = some c →
      Step env q fs r fs { r with
        phase := .uploaded dataKey
        uploads := r.uploads ++
          [uploadOf s3 (filename (genTempDir env.sha256 q.srcPath)) c] }
  | upload {fs r dataKey s3 rel todo c} :
      r.phase = .uploading dataKey (rel :: todo) → q.s3Config = some s3 →
      fs.fileAt (env.staging q.srcPath ++ rel) = some c →
      Step env q fs r fs { r with
        phase := .uploading dataKey todo
        uploads := r.uploads ++ [uploadOf s3 (relText rel) c] }
  /-- The entry is no regular file any more. -/
  | uploadSkip {fs r dataKey rel todo} :
      r.phase = .uploading dataKey (rel :: todo) →
      fs.fileAt (env.staging q.srcPath ++ rel) = none →
      Step env q fs r fs { r with phase := .uploading dataKey todo }
  | uploadDone {fs r dataKey} :
      r.phase = .uploading dataKey [] →
      Step env q fs r fs { r with phase := .uploaded dataKey }
  | remove {fs r dataKey fs'} :
      r.phase = .uploaded dataKey →
      fs.removeAll (env.staging q.srcPath) = some fs' →
      Step env q fs r fs' { r with phase := .stored dataKey }
  | removeFault {fs r dataKey fs'} (e : Exn) :
      r.phase = .uploaded dataKey →
      PartlyRemoved (env.staging q.srcPath) fs fs' →
      Step env q fs r fs' { r with phase := .failed e }
  /-- Without a resource URI the key is not registered. -/
  | finish {fs r dataKey} :
      r.phase = .stored dataKey → q.cmResultConfig.resourceUri = [] →
      Step env q fs r fs { r with phase := .succeeded dataKey }
  | register {fs r dataKey} :
      r.phase = .stored dataKey → q.cmResultConfig.resourceUri ≠ [] →
      checkResultConfig q.cmResultConfig = .ok () →
      Step env q fs r fs { r with
        phase := .succeeded dataKey
        registered := r.registered ++
          [⟨q.cmResultConfig.scope, q.cmResultConfig.resourceUri, base64Encode dataKey,
            q.cmResultConfig.ancestorUuids⟩] }
  | throws {fs r e} :
      thrown env q fs r.phase = some e → Step env q fs r fs { r with phase := .failed e }
  | fault {fs r} (e : Exn) :
      r.phase.interruptible = true → Step env q fs r fs { r with phase := .failed e }

def Runs (env : ProxyEnv) (q : PutResultDataRequest) (fs : FileSystem) (r : RequestState)
    (fs' : FileSystem) (r' : RequestState) : Prop :=
  Relation.ReflTransGen (fun a b : FileSystem × RequestState => Step env q a.1 a.2 b.1 b.2)
    (fs, r) (fs', r')

theorem Runs.refl (env : ProxyEnv) (q : PutResultDataRequest) (fs : FileSystem)
    (r : RequestState) : Runs env q fs r fs r :=
  Relation.ReflTransGen.refl

theorem Runs.step {env : ProxyEnv} {q : PutResultDataRequest} {fs fs' fs'' : FileSystem}
    {r r' r'' : RequestState} (hrun : Runs env q fs r fs' r') (hstep : Step env q fs' r' fs'' r'') :
    Runs env q fs r fs'' r'' :=
  Relation.ReflTransGen.tail hrun hstep

theorem Runs.trans {env : ProxyEnv} {q : PutResultDataRequest} {fs fs' fs'' : FileSystem}
    {r r' r'' : RequestState} (h : Runs env q fs r fs' r') (h' : Runs env q fs' r' fs'' r'') :
    Runs env q fs r fs'' r'' :=
  Relation.ReflTransGen.trans h h'

theorem Runs.invariant {env : ProxyEnv} {q : PutResultDataRequest}
    (Inv : FileSystem → RequestState → Prop)
    (hstep : ∀ fs r fs' r', Step env q fs r fs' r' → Inv fs r → Inv fs' r')
    {fs fs' : FileSystem} {r r' : RequestState} (hrun : Runs env q fs r fs' r')
    (hinit : Inv fs r) : Inv fs' r' := by
  have hall : ∀ b, Relation.ReflTransGen
      (fun a b : FileSystem × RequestState => Step env q a.1 a.2 b.1 b.2) (fs, r) b →
        Inv b.1 b.2 := by
    intro b hb
    induction hb with
    | refl => exact hinit
    | tail _ hlast ih => exact hstep _ _ _ _ hlast ih
  exact hall _ hrun

end TrustFlow.Proxy
