import TrustFlow.Footprint
import TrustFlow.Proxy.DecryptScheduling
import TrustFlow.Proxy.OssPlacement
import TrustFlow.Proxy.StagingDir

/-! # The request `GetInputData`

`DataCapsuleProxyImpl::GetInputData` as the steps of one request on the file system:
the data key, from the request or from the Capsule Manager; the download into the
staging directory, object by object; the loop and the tasks of `DecryptToDir`; and
the removal of the staging directory.

* `endsIn_called`, `endsIn_cleared` — the steps of the two loops are those of
  `DecryptToDir` and `DownloadFromOss`;
* `InputTracked.run` — what a request leaves alone, and what it adds, at any time.
-/

namespace TrustFlow.Proxy

/-! ## Data -/

structure CmResourceConfig where
  endpoint : Bytes := []
  scope : Bytes := []
  opName : Bytes := []
  resourceUri : Bytes := []
  columns : List Bytes := []
  globalAttrs : Bytes := []
deriving DecidableEq

/-- `ResourceRequest::Resource`. -/
structure Resource where
  resourceUri : Bytes
  columns : List Bytes
deriving DecidableEq

structure ResourceRequest where
  initiatorPartyId : Bytes
  scope : Bytes
  opName : Bytes
  resources : List Resource
  globalAttrs : Bytes
deriving DecidableEq

structure GetInputDataRequest where
  destPath : Bytes
  dataKeyB64 : Option Bytes := none
  cmResourceConfig : Option CmResourceConfig := none
  s3Config : Option S3Config := none
  localFsConfig : Option Bytes := none
deriving DecidableEq

/-- What the service runs on: beside the libraries, the members `cm_endpoint_` and `cert_`, the
    party id of a certificate, what `GetDataKeys` of a client for an endpoint brings back (the
    member `data_key_b64` of each key), and the object store behind a configuration. -/
structure InputEnv extends ProxyEnv where
  cmEndpoint : Bytes
  cert : Bytes
  generatePartyId : Bytes → Except Exn Bytes
  getDataKeys : Bytes → ResourceRequest → Except Exn (List Bytes)
  oss : S3Config → OssEnv

/-! ## The data key -/

def genResourceRequest (env : InputEnv) (config : CmResourceConfig) :
    Except Exn ResourceRequest := do
  let initiatorPartyId ← env.generatePartyId env.cert
  return {
    initiatorPartyId
    scope := config.scope
    opName := config.opName
    resources := [⟨config.resourceUri, config.columns⟩]
    globalAttrs := config.globalAttrs }

def cmDataKey (env : InputEnv) (config : CmResourceConfig) : Except Exn Bytes := do
  let resourceRequest ← genResourceRequest env config
  let endpoint := if config.endpoint = [] then env.cmEndpoint else config.endpoint
  let dataKeys ← env.getDataKeys endpoint resourceRequest
  enforce (dataKeys ≠ []) (str "Data keys empty")
  env.base64Decode (dataKeys.headD [])

def inputDataKey (env : InputEnv) (q : GetInputDataRequest) : Except Exn Bytes :=
  match q.dataKeyB64, q.cmResourceConfig with
  | some dataKeyB64, _ => env.base64Decode dataKeyB64
  | none, some config => cmDataKey env config
  | none, none => yaclThrow (str "Data key config not found in request")

/-! ## The steps of a request -/

inductive InputPhase where
  | received
  | keyed (dataKey : Bytes)
  /-- The staging directory was removed, the objects have still to be listed. -/
  | cleared (dataKey : Bytes) (s3 : S3Config)
  | downloading (dataKey : Bytes) (s3 : S3Config) (todo : List OssObject)
  /-- `DecryptToDir` is called for the source path. -/
  | called (dataKey : Bytes) (srcPath : Bytes)
  | decrypting (dataKey : Bytes) (pool : PoolState SourceItem Exn)
  | decrypted
  | finished (error : Option Exn)

def downloadTempPath (env : InputEnv) (q : GetInputDataRequest) : Bytes :=
  genTempDir env.sha256 q.destPath

/-- `remove_all` on the staging directory, and the phase that follows it. -/
def removeStaging (env : InputEnv) (q : GetInputDataRequest) (fs : FileSystem)
    (phase : InputPhase) : FileSystem × InputPhase :=
  match fs.removeAll (env.staging q.destPath) with
  | some fs' => (fs', phase)
  | none => (fs, .finished (some (ioError "cannot remove all")))

/-- What follows the call of `DecryptToDir`. -/
def afterDecrypt (q : GetInputDataRequest) : Option Exn → InputPhase
  | some e => .finished (some e)
  | none => if q.s3Config.isSome then .decrypted else .finished none

/-- The steps that the request itself determines; the tasks of `DecryptToDir` are left out. -/
def inputNext (env : InputEnv) (q : GetInputDataRequest) (fs : FileSystem) :
    InputPhase → Option (FileSystem × InputPhase)
  | .received =>
    match inputDataKey env q with
    | .error e => some (fs, .finished (some e))
    | .ok dataKey => some (fs, .keyed dataKey)
  | .keyed dataKey =>
    match q.s3Config, q.localFsConfig with
    | some s3, _ => some (removeStaging env q fs (.cleared dataKey s3))
    | none, some path => some (fs, .called dataKey path)
    | none, none =>
      some (fs, .finished (some ⟨.runtimeError, str "Source config not found"⟩))
  | .cleared dataKey s3 =>
    match (env.oss s3).listError with
    | some e => some (fs, .finished (some (ossFailure "oss list object failed" e)))
    | none =>
      let objects := ((env.oss s3).bucket.listObjects s3.path).objectSummarys
      if 0 < objects.length then some (fs, .downloading dataKey s3 objects)
      else some (fs, .finished (some ⟨.enforceNotMet, str "no object found in " ++ s3.path⟩))
  | .downloading dataKey s3 (object :: todo) =>
    match downloadObject (env.oss s3) s3.path (downloadTempPath env q) object ⟨fs, []⟩ with
    | (.ok (), s) => some (s.fs, .downloading dataKey s3 todo)
    | (.error e, s) => some (s.fs, .finished (some e))
  | .downloading dataKey _ [] => some (fs, .called dataKey (downloadTempPath env q))
  | .called _ srcPath =>
    match sourceItems env.toProxyEnv fs srcPath with
    | .error e => some (fs, .finished (some e))
    | .ok _ => none
  | .decrypting _ ⟨[], [], error⟩ => some (fs, afterDecrypt q error)
  | .decrypting _ _ => none
  | .decrypted => some (removeStaging env q fs (.finished none))
  | .finished _ => none

inductive InputStep (env : InputEnv) (q : GetInputDataRequest) :
    FileSystem × InputPhase → FileSystem × InputPhase → Prop where
  | next {fs phase a} : inputNext env q fs phase = some a → InputStep env q (fs, phase) a
  /-- The loop of `DecryptToDir` starts, on the files in whatever order they are listed. -/
  | list {fs dataKey srcPath items todo} :
      sourceItems env.toProxyEnv fs srcPath = .ok items → todo.Perm items →
      InputStep env q (fs, .called dataKey srcPath) (fs, .decrypting dataKey ⟨todo, [], none⟩)
  | pool {fs fs' dataKey p p'} :
      (decryptPool env.toProxyEnv q.destPath dataKey).Step fs p fs' p' →
      InputStep env q (fs, .decrypting dataKey p) (fs', .decrypting dataKey p')

/-! ## Runs -/

section Runs

variable {env : InputEnv} {q : GetInputDataRequest} {fs : FileSystem} {phase : InputPhase}
  {dataKey : Bytes} {s3 : S3Config} {Q : FileSystem × InputPhase → Prop}

/-- A step that the request determines is the only one. -/
theorem inputStep_of_next {a b : FileSystem × InputPhase}
    (hnext : inputNext env q fs phase = some a) (hstep : InputStep env q (fs, phase) b) :
    b = a := by
  cases hstep with
  | next h => exact Option.some.inj (h.symm.trans hnext)
  | list hitems _ => simp [inputNext, hitems] at hnext
  | @pool _ _ _ p _ hstep =>
    obtain ⟨todo, tasks, error⟩ := p
    cases todo with
    | cons i todo => simp [inputNext] at hnext
    | nil =>
      cases tasks with
      | nil => exact absurd hstep (TaskPool.stuck_iff.mpr rfl (_, _))
      | cons i tasks => simp [inputNext] at hnext

theorem endsIn_next {a : FileSystem × InputPhase} (hnext : inputNext env q fs phase = some a)
    (h : EndsIn (InputStep env q) Q a) : EndsIn (InputStep env q) Q (fs, phase) :=
  .of_next (.next hnext) (fun _ hstep => inputStep_of_next hnext hstep) h

theorem endsIn_finished {error : Option Exn} (h : Q (fs, .finished error)) :
    EndsIn (InputStep env q) Q (fs, .finished error) := by
  refine .done ?_ h
  intro b hstep
  cases hstep with
  | next h => simp [inputNext] at h

/-- The steps of `DecryptToDir` in a request are those of its task pool. -/
theorem endsIn_decrypting {a : FileSystem × PoolState SourceItem Exn}
    (h : TrustFlow.EndsIn (decryptPool env.toProxyEnv q.destPath dataKey).Next
      (fun b => EndsIn (InputStep env q) Q (b.1, afterDecrypt q b.2.error)) a) :
    EndsIn (InputStep env q) Q (a.1, .decrypting dataKey a.2) := by
  induction h with
  | @done a hstuck hends =>
    obtain ⟨fs, p⟩ := a
    have hp := TaskPool.stuck_iff.mp hstuck
    rw [hp] at hends ⊢
    exact endsIn_next rfl hends
  | @later a hnext _ ih =>
    obtain ⟨fs, p⟩ := a
    obtain ⟨⟨fs', p'⟩, hstep⟩ := hnext
    refine .later ⟨_, .pool hstep⟩ fun b hb => ?_
    cases hb with
    | next h =>
      have honly := inputStep_of_next h (.pool hstep)
      rw [← honly]
      exact ih _ hstep
    | @pool _ fs'' _ _ p'' hstep' => exact ih (fs'', p'') hstep'

theorem endsIn_called {srcPath : Bytes}
    (h : DecryptToDir env.toProxyEnv fs srcPath q.destPath dataKey fun fs' error =>
      EndsIn (InputStep env q) Q (fs', afterDecrypt q error)) :
    EndsIn (InputStep env q) Q (fs, .called dataKey srcPath) := by
  unfold DecryptToDir at h
  cases hitems : sourceItems env.toProxyEnv fs srcPath with
  | error e =>
    rw [hitems] at h
    exact endsIn_next (by simp [inputNext, hitems, afterDecrypt]) h
  | ok items =>
    rw [hitems] at h
    refine .later ⟨_, .list hitems (List.Perm.refl items)⟩ fun b hb => ?_
    cases hb with
    | next hnext => simp [inputNext, hitems] at hnext
    | list hitems' hperm =>
      cases hitems.symm.trans hitems'
      exact endsIn_decrypting (h _ hperm)

/-! ### The download -/

/-- A round of the download does not look at what was downloaded before. -/
theorem downloadObject_log (env : OssEnv) (srcPath destPath : Bytes) (object : OssObject)
    (s : DownloadState) (log : List Download) :
    (downloadObject env srcPath destPath object ⟨s.fs, log⟩).1 =
        (downloadObject env srcPath destPath object s).1 ∧
      (downloadObject env srcPath destPath object ⟨s.fs, log⟩).2.fs =
        (downloadObject env srcPath destPath object s).2.fs := by
  simp only [downloadObject]
  split
  · exact ⟨rfl, rfl⟩
  · split
    · exact ⟨rfl, rfl⟩
    · split <;> exact ⟨rfl, rfl⟩

/-- What follows the call of `DownloadFromOss`. -/
def afterDownload (env : InputEnv) (q : GetInputDataRequest) (dataKey : Bytes) :
    Except Exn Unit → InputPhase
  | .ok () => .called dataKey (downloadTempPath env q)
  | .error e => .finished (some e)

theorem endsIn_downloading :
    ∀ {todo : List OssObject} {s : DownloadState},
      (let r := downloadObjects (env.oss s3) s3.path (downloadTempPath env q) todo s
       EndsIn (InputStep env q) Q (r.2.fs, afterDownload env q dataKey r.1)) →
      EndsIn (InputStep env q) Q (s.fs, .downloading dataKey s3 todo) := by
  intro todo
  induction todo with
  | nil => exact fun h => endsIn_next rfl h
  | cons object todo ih =>
    intro s h
    obtain ⟨hresult, hfs⟩ :=
      downloadObject_log (env.oss s3) s3.path (downloadTempPath env q) object s []
    simp only [downloadObjects] at h
    cases hown : downloadObject (env.oss s3) s3.path (downloadTempPath env q) object
        ⟨s.fs, []⟩ with
    | mk result s₁ =>
      cases hround : downloadObject (env.oss s3) s3.path (downloadTempPath env q) object s with
      | mk result' s₂ =>
        rw [hown, hround] at hresult hfs
        simp only at hresult hfs
        subst hresult
        rw [hround] at h
        cases result with
        | ok _ => exact endsIn_next (by simp only [inputNext, hown, hfs]) (ih h)
        | error e => exact endsIn_next (by simp only [inputNext, hown, hfs, afterDownload]) h

/-- The listing and the rounds that follow it are a call of `DownloadFromOss`. -/
theorem endsIn_cleared
    (h : let r := downloadFromOss (env.oss s3) s3.path (downloadTempPath env q) fs
      EndsIn (InputStep env q) Q (r.2.fs, afterDownload env q dataKey r.1)) :
    EndsIn (InputStep env q) Q (fs, .cleared dataKey s3) := by
  simp only [downloadFromOss] at h
  cases hlist : (env.oss s3).listError with
  | some e =>
    simp only [hlist, afterDownload] at h
    exact endsIn_next (by simp only [inputNext, hlist]) h
  | none =>
    simp only [hlist] at h
    by_cases hpage : 0 < ((env.oss s3).bucket.listObjects s3.path).objectSummarys.length
    · rw [if_pos hpage] at h
      exact endsIn_next (by simp only [inputNext, hlist, if_pos hpage]) (endsIn_downloading h)
    · rw [if_neg hpage] at h
      exact endsIn_next (by simp only [inputNext, hlist, if_neg hpage, afterDownload]) h

end Runs

/-! ## What a request leaves alone -/

/-- Paths lead where their texts say: nothing on the way is a symbolic link. -/
def InputEnv.Plain (env : InputEnv) : Prop :=
  ∀ s3 path, env.resolve path = locate (env.oss s3).cwd (pathParts path)

/-- Every object that starts with the source path lies below it. -/
def KeysBelow (env : OssEnv) (srcPath : Bytes) : Prop :=
  ∀ object ∈ env.bucket.matching srcPath, ∃ names, IsBelow env srcPath object.key names

section Footprint

variable (env : InputEnv) (q : GetInputDataRequest)

/-- The directories that a request works in. -/
def inputRoots : List (Location Name) := [env.staging q.destPath, env.resolve q.destPath]

/-- The content of an object that the request is to download. -/
def Downloadable (c : FileContent) : Prop :=
  ∃ s3, q.s3Config = some s3 ∧ ∃ object ∈ (env.oss s3).bucket.matching s3.path, c = object.content

/-- A download goes on with the objects of the request's own listing. -/
def PhaseListed : InputPhase → Prop
  | .cleared _ s3 => q.s3Config = some s3
  | .downloading _ s3 todo =>
    q.s3Config = some s3 ∧ ∀ object ∈ todo, object ∈ (env.oss s3).bucket.matching s3.path
  | _ => True

/-- A change at the destination, or one at the staging directory that adds no file but downloaded
    objects. -/
def InputChange (fs fs' : FileSystem) : Prop :=
  fs.KeepsOutside [env.resolve q.destPath] fs' ∨
  fs.KeepsOutside [env.staging q.destPath] fs' ∧
    ∀ p c, fs'.fileAt p = some c → fs.fileAt p = some c ∨ Downloadable env q c

/-- A request that succeeded after a download has left nothing in its staging directory. -/
def Cleaned (a : FileSystem × InputPhase) : Prop :=
  a.2 = .finished none → q.s3Config.isSome = true →
    ∀ p, env.staging q.destPath <+: p → a.1.node p = none

/-- What a step does that leads from `fs` to `a`. -/
structure InputEffect (fs : FileSystem) (a : FileSystem × InputPhase) : Prop where
  listed : PhaseListed env q a.2
  change : InputChange env q fs a.1
  cleaned : Cleaned env q a

/-- What holds of a request that found the file system as `fs₀`. -/
structure InputTracked (fs₀ : FileSystem) (a : FileSystem × InputPhase) : Prop where
  listed : PhaseListed env q a.2
  outside : fs₀.KeepsOutside (inputRoots env q) a.1
  contents : ∀ p c, a.1.fileAt p = some c →
    env.resolve q.destPath <+: p ∨ fs₀.fileAt p = some c ∨ Downloadable env q c
  cleaned : Cleaned env q a

variable {env q} {fs fs' fs₀ : FileSystem} {phase phase' : InputPhase}

theorem InputChange.refl (fs : FileSystem) : InputChange env q fs fs := .inl (.refl _ fs)

theorem InputEffect.of_ne (hlisted : PhaseListed env q phase) (hchange : InputChange env q fs fs')
    (hne : phase ≠ .finished none) : InputEffect env q fs (fs', phase) :=
  ⟨hlisted, hchange, fun hphase => absurd hphase hne⟩

/-- A step that only goes on to another phase. -/
theorem InputEffect.still (hlisted : PhaseListed env q phase) (hne : phase ≠ .finished none) :
    InputEffect env q fs (fs, phase) :=
  .of_ne hlisted (.refl fs) hne

theorem removeStaging_effect (hlisted : PhaseListed env q phase) :
    InputEffect env q fs (removeStaging env q fs phase) := by
  unfold removeStaging
  split
  next fs' hremove =>
    refine ⟨hlisted, .inr ⟨FileTree.keepsOutside_removeAll (List.mem_singleton_self _) hremove, ?_⟩,
      fun _ _ p hp => by rw [FileTree.node_removeAll hremove, if_pos hp]⟩
    intro p c hc
    rw [FileTree.fileAt_eq_some, FileTree.node_removeAll hremove] at hc
    split at hc
    · cases hc
    · exact .inl (FileTree.fileAt_eq_some.mpr hc)
  next => exact .still trivial (by simp)

theorem downloadObject_change (hplain : env.Plain) {s3 : S3Config} {object : OssObject}
    {names : List Name} (hs3 : q.s3Config = some s3)
    (hobject : object ∈ (env.oss s3).bucket.matching s3.path)
    (hbelow : IsBelow (env.oss s3) s3.path object.key names) (s : DownloadState) :
    InputChange env q s.fs
      (downloadObject (env.oss s3) s3.path (downloadTempPath env q) object s).2.fs := by
  have habsolute : (pathParts (downloadTempPath env q)).absolute = true := by
    simp [pathParts, downloadTempPath, genTempDir_head]
  have hunder : env.staging q.destPath <+:
      destLocation (env.oss s3) s3.path (downloadTempPath env q) object := by
    rw [destLocation_of_isBelow _ hbelow, ProxyEnv.staging, hplain s3]
    exact List.prefix_append _ _
  rw [downloadObject_of_isBelow hbelow habsolute]
  cases hensure : s.fs.ensureParent
      (destLocation (env.oss s3) s3.path (downloadTempPath env q) object) with
  | none => exact .refl s.fs
  | some fs₁ =>
    have houtside := FileTree.keepsOutside_ensureParent (List.mem_singleton_self _) hunder hensure
    have hmade : InputChange env q s.fs fs₁ := by
      refine .inr ⟨houtside, fun p c hc => .inl ?_⟩
      rwa [FileTree.fileAt_ensureParent hensure] at hc
    cases hdownload : (env.oss s3).downloadError object.key with
    | some e => exact hmade
    | none =>
      simp only
      cases hwrite : fs₁.writeFile
          (destLocation (env.oss s3) s3.path (downloadTempPath env q) object) object.content with
      | none => exact hmade
      | some fs₂ =>
        refine .inr ⟨houtside.trans
          (FileTree.keepsOutside_writeFile (List.mem_singleton_self _) hunder hwrite), ?_⟩
        intro p c hc
        rw [FileTree.fileAt_writeFile hwrite] at hc
        split at hc
        · cases hc
          exact .inr ⟨s3, hs3, object, hobject, rfl⟩
        · rw [FileTree.fileAt_ensureParent hensure] at hc
          exact .inl hc

theorem copyItem_keepsOutside {penv : ProxyEnv} {destPath : Bytes} {i : SourceItem}
    {result : Except Exn Unit} (h : copyItem penv destPath i fs = (result, fs')) :
    fs.KeepsOutside [penv.resolve destPath] fs' := by
  have hunder : penv.resolve destPath <+:
      copyTarget fs (penv.resolve destPath ++ i.rel) i.name := by
    rw [copyTarget]
    split
    · exact (List.prefix_append _ _).trans (List.prefix_append _ _)
    · exact List.prefix_append _ _
  simp only [copyItem] at h
  split at h
  · cases h
    exact .refl _ _
  · split at h
    · cases h
      exact .refl _ _
    · split at h
      · cases h
        exact .refl _ _
      next hwrite =>
        cases h
        exact FileTree.keepsOutside_writeFile (List.mem_singleton_self _) hunder hwrite

theorem decryptItem_keepsOutside {penv : ProxyEnv} {destPath dataKey : Bytes} {i : SourceItem}
    {result : Except Exn Unit} (h : decryptItem penv destPath dataKey i fs = (result, fs')) :
    fs.KeepsOutside [penv.resolve destPath] fs' := by
  have hstore : ∀ {output result'}, storeOutput fs (i.decDest penv destPath) output result' =
      (result, fs') → fs.KeepsOutside [penv.resolve destPath] fs' := by
    intro output result' h
    rcases (storeOutput_spec h).1 with rfl | ⟨c, hwrite⟩
    · exact .refl _ _
    · exact FileTree.keepsOutside_writeFile (List.mem_singleton_self _)
        (List.prefix_append _ _) hwrite
  simp only [decryptItem] at h
  split at h
  · cases h
    exact .refl _ _
  · split at h
    · cases h
      exact .refl _ _
    · split at h
      · exact hstore h
      · exact hstore h

theorem decryptPool_keepsOutside {penv : ProxyEnv} {destPath dataKey : Bytes}
    {p p' : PoolState SourceItem Exn} (h : (decryptPool penv destPath dataKey).Step fs p fs' p') :
    fs.KeepsOutside [penv.resolve destPath] fs' := by
  have hbody : ∀ {i r}, (decryptPool penv destPath dataKey).body i fs = (r, fs') →
      fs.KeepsOutside [penv.resolve destPath] fs' := by
    intro i r hbody
    simp only [decryptPool] at hbody
    split at hbody
    · cases hbody
      exact .refl _ _
    next fs₁ hensure =>
      have hmade := FileTree.keepsOutside_ensureParent (List.mem_singleton_self _)
        (List.prefix_append (penv.resolve destPath) i.rel) hensure
      split at hbody
      · cases hbody
        exact hmade
      · split at hbody
        next hcopy =>
          cases hbody
          exact hmade.trans (copyItem_keepsOutside hcopy)
        next hcopy =>
          cases hbody
          exact hmade.trans (copyItem_keepsOutside hcopy)
  cases h with
  | launch h => exact hbody h
  | inline h => exact hbody h
  | throws h => exact hbody h
  | complete before after h => exact decryptItem_keepsOutside h
  | fails before after h => exact decryptItem_keepsOutside h

theorem afterDecrypt_effect (error : Option Exn) :
    InputEffect env q fs (fs, afterDecrypt q error) := by
  cases error with
  | some e => exact .still trivial (by simp [afterDecrypt])
  | none =>
    cases hs3 : q.s3Config with
    | some s3 =>
      exact .still (by simp [afterDecrypt, hs3, PhaseListed]) (by simp [afterDecrypt, hs3])
    | none =>
      refine ⟨by simp [afterDecrypt, hs3, PhaseListed], .refl fs, fun _ hsome => ?_⟩
      rw [hs3] at hsome
      cases hsome

/-- What a step that the request determines does, phase by phase. -/
theorem inputNext_effect (hplain : env.Plain)
    (hkeys : ∀ s3, q.s3Config = some s3 → KeysBelow (env.oss s3) s3.path)
    {a : FileSystem × InputPhase} (hlisted : PhaseListed env q phase)
    (h : inputNext env q fs phase = some a) : InputEffect env q fs a := by
  cases phase with
  | received =>
    simp only [inputNext] at h
    split at h <;> cases h <;> exact .still trivial (by simp)
  | keyed dataKey =>
    simp only [inputNext] at h
    split at h
    next s3 hs3 =>
      cases h
      exact removeStaging_effect hs3
    · cases h
      exact .still trivial (by simp)
    · cases h
      exact .still trivial (by simp)
  | cleared dataKey s3 =>
    simp only [inputNext] at h
    split at h
    · cases h
      exact .still trivial (by simp)
    · split at h
      · cases h
        exact .still ⟨hlisted, fun object hobject => List.mem_of_mem_take hobject⟩ (by simp)
      · cases h
        exact .still trivial (by simp)
  | downloading dataKey s3 todo =>
    obtain ⟨hs3, htodo⟩ := hlisted
    cases todo with
    | nil =>
      cases h
      exact .still trivial (by simp)
    | cons object todo =>
      have hobject := htodo object List.mem_cons_self
      obtain ⟨names, hbelow⟩ := hkeys s3 hs3 object hobject
      have hchange := downloadObject_change hplain hs3 hobject hbelow ⟨fs, []⟩
      simp only [inputNext] at h
      split at h
      next s hround =>
        cases h
        rw [hround] at hchange
        exact .of_ne ⟨hs3, fun o ho => htodo o (List.mem_cons_of_mem _ ho)⟩ hchange (by simp)
      next e s hround =>
        cases h
        rw [hround] at hchange
        exact .of_ne trivial hchange (by simp)
  | called dataKey srcPath =>
    simp only [inputNext] at h
    split at h
    · cases h
      exact .still trivial (by simp)
    · cases h
  | decrypting dataKey p =>
    obtain ⟨todo, tasks, error⟩ := p
    cases todo with
    | cons i todo => cases h
    | nil =>
      cases tasks with
      | cons i tasks => cases h
      | nil =>
        cases h
        exact afterDecrypt_effect error
  | decrypted =>
    cases h
    exact removeStaging_effect trivial
  | finished error => cases h

theorem inputStep_effect (hplain : env.Plain)
    (hkeys : ∀ s3, q.s3Config = some s3 → KeysBelow (env.oss s3) s3.path)
    {a b : FileSystem × InputPhase} (hlisted : PhaseListed env q a.2) (h : InputStep env q a b) :
    InputEffect env q a.1 b := by
  cases h with
  | next h => exact inputNext_effect hplain hkeys hlisted h
  | list => exact .still trivial (by simp)
  | pool h => exact .of_ne trivial (.inl (decryptPool_keepsOutside h)) (by simp)

theorem InputTracked.step (hplain : env.Plain)
    (hkeys : ∀ s3, q.s3Config = some s3 → KeysBelow (env.oss s3) s3.path)
    {a b : FileSystem × InputPhase} (h : InputTracked env q fs₀ a) (hstep : InputStep env q a b) :
    InputTracked env q fs₀ b := by
  obtain ⟨hlisted, hchange, hcleaned⟩ := inputStep_effect hplain hkeys h.listed hstep
  refine ⟨hlisted, h.outside.trans ?_, fun p c hc => ?_, hcleaned⟩
  · rcases hchange with hdest | ⟨hstaging, _⟩
    · exact hdest.mono (by simp [inputRoots])
    · exact hstaging.mono (by simp [inputRoots])
  · rcases hchange with hdest | ⟨_, hfiles⟩
    · by_cases hp : env.resolve q.destPath <+: p
      · exact .inl hp
      · rw [hdest.fileAt_eq (by simpa using hp)] at hc
        exact h.contents p c hc
    · rcases hfiles p c hc with hbefore | hdownloaded
      · exact h.contents p c hbefore
      · exact .inr (.inr hdownloaded)

theorem InputTracked.init (env : InputEnv) (q : GetInputDataRequest) (fs₀ : FileSystem) :
    InputTracked env q fs₀ (fs₀, .received) where
  listed := trivial
  outside := .refl _ _
  contents _ _ hc := .inr (.inl hc)
  cleaned hphase := by cases hphase

theorem InputTracked.run (hplain : env.Plain)
    (hkeys : ∀ s3, q.s3Config = some s3 → KeysBelow (env.oss s3) s3.path)
    {a b : FileSystem × InputPhase} (hrun : Relation.ReflTransGen (InputStep env q) a b)
    (h : InputTracked env q fs₀ a) : InputTracked env q fs₀ b := by
  induction hrun with
  | refl => exact h
  | tail _ hstep ih => exact ih.step hplain hkeys hstep

end Footprint

end TrustFlow.Proxy
