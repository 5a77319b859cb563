import TrustFlow.Dm.DataMesh
import TrustFlow.FilePlacement
import TrustFlow.Proxy.Paths

/-! # The upload handler

`handle_upload` of the server that the receiver of an upload starts.  The handler
reads the fields of a multipart request one by one.  It writes the bytes of a file
field chunk by chunk to a file under `temp` that has the name that the client gave.
After the last field it copies that file to the place that `store_path` names in a
data source of the mesh, and registers the place in the mesh.

`next` is what the handler does next if nothing goes wrong outside; `Step` adds that
it may be cut short anywhere.  Between two steps, other requests may take theirs. -/

namespace TrustFlow.Dm

open Proxy (Name pathAppend slash)

abbrev FileSystem := FileTree Name Bytes

structure Url where
  scheme : Bytes
  query : Option Bytes
deriving DecidableEq

structure DmOutputUriQueryParams where
  datasourceId : Bytes
  id : Bytes
  uri : Bytes
deriving DecidableEq

/-- What the server is built on: its mesh, the paths of its operating system and the parsers.
    Paths are resolved lexically, without links and without a look at the directories in front of
    a `..`, and a slash at the end of a path is dropped. -/
structure ServerEnv where
  mesh : DataMesh
  resolve : Bytes → Location Name
  parseUrl : Bytes → Option Url
  parseQuery : Bytes → Option DmOutputUriQueryParams
  parseDomainData : Bytes → Option DomainData

/-- What the requests of a server share. -/
structure World where
  fs : FileSystem
  registered : List DomainData

/-! ## A request -/

inductive Field where
  | storePath (text : Bytes)
  | file (filename : Option Name) (chunks : List Bytes)
  | domainData (json : Bytes)
  | other
deriving DecidableEq

/-- The variables that the loop over the fields sets. -/
structure Vars where
  storePath : Option Bytes := none
  fileTempPath : Option Bytes := none
  domainData : Option DomainData := none
deriving DecidableEq

/-- The place that a request names, once all its fields are read. -/
structure Located where
  params : DmOutputUriQueryParams
  tempPath : Bytes
  destPath : Bytes
  domainData : DomainData
deriving DecidableEq

def Located.request (loc : Located) : CreateDomainDataRequest :=
  DataMeshClient.createRequest loc.params.id loc.params.uri loc.params.datasourceId loc.domainData

/-- Where the next write to an open file goes. -/
inductive Mode where
  | append
  | cursor (pos : Nat)
deriving DecidableEq

inductive Phase where
  | receiving (todo : List Field)
  | opening (filename : Option Name) (chunks : List Bytes) (todo : List Field)
  | writing (path : Bytes) (mode : Mode) (chunks : List Bytes) (todo : List Field)
  | storing (loc : Located)
  | registering (loc : Located)
  | answered (loc : Located)
  | failed (e : Error)
deriving DecidableEq

def Phase.finished : Phase → Bool
  | .answered _ | .failed _ => true
  | _ => false

structure Upload where
  vars : Vars
  phase : Phase
deriving DecidableEq

def Upload.start (fields : List Field) : Upload := ⟨{}, .receiving fields⟩

def Upload.goto (u : Upload) (phase : Phase) : Upload := { u with phase := phase }

def Upload.fail (u : Upload) (e : Error) : Upload := u.goto (.failed e)

/-! ## The temporary file -/

def tempDir : Bytes := str "temp"

def tempPath (filename : Name) : Bytes := pathAppend tempDir filename

/-- A file that exists is truncated and written from its start, a new one is appended to. -/
def openMode (fs : FileSystem) (p : Location Name) : Mode :=
  if fs.node p = none then .append else .cursor 0

/-- The content of a file and the handle after a write.  A gap before the cursor reads as
    zeros. -/
def Mode.write (mode : Mode) (content chunk : Bytes) : Bytes × Mode :=
  match mode with
  | .append => (content ++ chunk, .append)
  | .cursor pos =>
    (overwrite (content ++ List.replicate (pos - content.length) 0) pos chunk,
      .cursor (pos + chunk.length))

def Mode.AtEnd (mode : Mode) (content : Bytes) : Prop :=
  match mode with
  | .append => True
  | .cursor pos => pos = content.length

theorem Mode.write_atEnd {mode : Mode} {content : Bytes} (h : mode.AtEnd content)
    (chunk : Bytes) : (mode.write content chunk).1 = content ++ chunk ∧
      (mode.write content chunk).2.AtEnd (content ++ chunk) := by
  cases mode with
  | append => exact ⟨rfl, trivial⟩
  | cursor pos =>
    obtain rfl : pos = content.length := h
    constructor
    · simp [Mode.write, overwrite]
    · simp [Mode.write, Mode.AtEnd]

theorem openMode_atEnd (fs : FileSystem) (p : Location Name) : (openMode fs p).AtEnd [] := by
  rw [openMode]
  split
  · trivial
  · rfl

/-! ## The place in a data source -/

/-- `Path::parent` finds a parent unless nothing but the root is left of a path. -/
def hasParent (path : Bytes) : Bool :=
  (path.splitOn slash).any (fun c => c ≠ [] && c ≠ str ".") ||
    (path.splitOn slash).head? = some (str ".")

/-- The part of the handler between the last field and the copy that only reads. -/
def locate (env : ServerEnv) (vars : Vars) : Except Error Located := do
  let storePath ← okOr vars.storePath (.text (str "lack store_path"))
  let fileTempPath ← okOr vars.fileTempPath (.text (str "lack upload"))
  let domainData ← okOr vars.domainData (.text (str "locak domain data"))
  let url ← okOr (env.parseUrl storePath) .url
  if url.scheme = str "dm" then do
    let qs ← okOr url.query (.text (str "lack query"))
    let params ← okOr (env.parseQuery qs) .query
    let datasource ← DataMeshClient.getDomainDatasource env.mesh params.datasourceId
    let info ← okOr datasource.info (.text (str "lack datasource info"))
    let infoLocalfs ← okOr info.localfs (.text (str "lack localfs config"))
    let destPath := pathAppend infoLocalfs.path params.uri
    if hasParent destPath then
      return ⟨params, fileTempPath, destPath, domainData⟩
    else .error (.text (str "not in dir"))
  else .error (.text (str "Unsupport scheme"))

theorem locate_spec {env : ServerEnv} {vars : Vars} {loc : Located}
    (h : locate env vars = .ok loc) :
    vars.fileTempPath = some loc.tempPath ∧ vars.domainData = some loc.domainData ∧
      ∃ path, env.mesh.localfsPath loc.params.datasourceId = some path ∧
        pathAppend path loc.params.uri = loc.destPath := by
  simp only [locate, bind_eq_ok, okOr_eq_ok] at h
  obtain ⟨_, _, _, htemp, _, hdata, url, _, h⟩ := h
  split at h
  next =>
    simp only [bind_eq_ok, okOr_eq_ok] at h
    obtain ⟨_, _, params, _, datasource, hdatasource, info, hinfo, localfs, hlocalfs, h⟩ := h
    split at h
    next =>
      cases h
      exact ⟨htemp, hdata, _, DataMeshClient.localfsPath_of_ok hdatasource hinfo hlocalfs, rfl⟩
    next => cases h
  next => cases h

/-- The content of the destination after `fs::copy`, which empties it before it reads. -/
def copied (temp dest : Location Name) (content : Bytes) : Bytes :=
  if temp = dest then [] else content

/-! ## The handler -/

def next (env : ServerEnv) (w : World) (u : Upload) : World × Upload :=
  match u.phase with
  | .receiving (.storePath text :: todo) =>
    (w, { vars := { u.vars with storePath := some text }, phase := .receiving todo })
  | .receiving (.domainData json :: todo) =>
    match env.parseDomainData json with
    | none => (w, u.fail .json)
    | some d => (w, { vars := { u.vars with domainData := some d }, phase := .receiving todo })
  | .receiving (.other :: todo) => (w, u.goto (.receiving todo))
  | .receiving (.file filename chunks :: todo) =>
    match w.fs.createDirectories (env.resolve tempDir) with
    | none => (w, u.fail .io)
    | some fs => ({ w with fs := fs }, u.goto (.opening filename chunks todo))
  | .opening none _ _ => (w, u.fail (.text (str "lack filename")))
  | .opening (some filename) chunks todo =>
    match w.fs.writeFile (env.resolve (tempPath filename)) [] with
    | none => (w, u.fail .io)
    | some fs =>
      ({ w with fs := fs },
        u.goto (.writing (tempPath filename)
          (openMode w.fs (env.resolve (tempPath filename))) chunks todo))
  | .writing path mode (chunk :: chunks) todo =>
    match w.fs.fileAt (env.resolve path) with
    | none => (w, u.fail .io)
    | some content =>
      match w.fs.writeFile (env.resolve path) (mode.write content chunk).1 with
      | none => (w, u.fail .io)
      | some fs =>
        ({ w with fs := fs },
          u.goto (.writing path (mode.write content chunk).2 chunks todo))
  | .writing path _ [] todo =>
    (w, { vars := { u.vars with fileTempPath := some path }, phase := .receiving todo })
  | .receiving [] =>
    match locate env u.vars with
    | .error e => (w, u.fail e)
    | .ok loc =>
      match w.fs.ensureParent (env.resolve loc.destPath) with
      | none => (w, u.fail .io)
      | some fs => ({ w with fs := fs }, u.goto (.storing loc))
  | .storing loc =>
    match w.fs.fileAt (env.resolve loc.tempPath) with
    | none => (w, u.fail .io)
    | some content =>
      match w.fs.writeFile (env.resolve loc.destPath)
          (copied (env.resolve loc.tempPath) (env.resolve loc.destPath) content) with
      | none => (w, u.fail .io)
      | some fs => ({ w with fs := fs }, u.goto (.registering loc))
  | .registering loc =>
    match DataMeshClient.createDomainData env.mesh w.registered loc.params.id loc.params.uri
        loc.params.datasourceId loc.domainData with
    | (.error e, registered) => ({ w with registered := registered }, u.fail e)
    | (.ok _, registered) =>
      ({ w with registered := registered }, u.goto (.answered loc))
  | .answered _ | .failed _ => (w, u)

/-! ## Steps -/

/-- What the next step may do to the file system. -/
inductive Effect where
  | none
  | makes (p : Location Name)
  | writes (p : Location Name)
deriving DecidableEq

def Upload.effect (env : ServerEnv) (u : Upload) : Effect :=
  match u.phase with
  | .receiving (.file _ _ :: _) => .makes (env.resolve tempDir)
  | .receiving [] =>
    match locate env u.vars with
    | .ok loc => .makes (env.resolve loc.destPath).dropLast
    | .error _ => .none
  | .opening (some filename) _ _ => .writes (env.resolve (tempPath filename))
  | .writing path _ (_ :: _) _ => .writes (env.resolve path)
  | .storing loc => .writes (env.resolve loc.destPath)
  | _ => .none

/-- An effect, as far as it got. -/
inductive Effect.On : Effect → FileSystem → FileSystem → Prop where
  | unchanged {effect fs} : On effect fs fs
  | makes {p q fs fs'} : q <+: p → fs.createDirectories q = some fs' → On (.makes p) fs fs'
  | writes {p content fs fs'} : fs.writeFile p content = some fs' → On (.writes p) fs fs'

/-- A field that the loop takes in without touching the file system. -/
def Field.accepted (env : ServerEnv) : Field → Bool
  | .storePath _ | .other => true
  | .domainData json => (env.parseDomainData json).isSome
  | .file _ _ => false

def Vars.after (env : ServerEnv) (vars : Vars) : Field → Vars
  | .storePath text => { vars with storePath := some text }
  | .file none _ | .other => vars
  | .file (some filename) _ => { vars with fileTempPath := some (tempPath filename) }
  | .domainData json =>
    match env.parseDomainData json with
    | none => vars
    | some d => { vars with domainData := some d }

/-- A step of the handler, which may fail wherever it is. -/
inductive Step (env : ServerEnv) : World → Upload → World → Upload → Prop where
  | read {w u field todo} (hphase : u.phase = .receiving (field :: todo))
      (haccepted : field.accepted env = true) :
      Step env w u w { vars := u.vars.after env field, phase := .receiving todo }
  | makeTemp {w u filename chunks todo fs}
      (hphase : u.phase = .receiving (.file filename chunks :: todo))
      (hmake : w.fs.createDirectories (env.resolve tempDir) = some fs) :
      Step env w u { w with fs := fs } (u.goto (.opening filename chunks todo))
  | openTemp {w u filename chunks todo fs}
      (hphase : u.phase = .opening (some filename) chunks todo)
      (hopen : w.fs.writeFile (env.resolve (tempPath filename)) [] = some fs) :
      Step env w u { w with fs := fs }
        (u.goto (.writing (tempPath filename)
          (openMode w.fs (env.resolve (tempPath filename))) chunks todo))
  | writeChunk {w u path mode chunk chunks todo content fs}
      (hphase : u.phase = .writing path mode (chunk :: chunks) todo)
      (hcontent : w.fs.fileAt (env.resolve path) = some content)
      (hwrite : w.fs.writeFile (env.resolve path) (mode.write content chunk).1 = some fs) :
      Step env w u { w with fs := fs }
        (u.goto (.writing path (mode.write content chunk).2 chunks todo))
  | closeTemp {w u path mode todo} (hphase : u.phase = .writing path mode [] todo) :
      Step env w u w
        { vars := { u.vars with fileTempPath := some path }, phase := .receiving todo }
  | prepare {w u loc fs} (hphase : u.phase = .receiving []) (hloc : locate env u.vars = .ok loc)
      (hparent : w.fs.ensureParent (env.resolve loc.destPath) = some fs) :
      Step env w u { w with fs := fs } (u.goto (.storing loc))
  | store {w u loc content fs} (hphase : u.phase = .storing loc)
      (hcontent : w.fs.fileAt (env.resolve loc.tempPath) = some content)
      (hwrite : w.fs.writeFile (env.resolve loc.destPath)
        (copied (env.resolve loc.tempPath) (env.resolve loc.destPath) content) = some fs) :
      Step env w u { w with fs := fs } (u.goto (.registering loc))
  | register {w u loc id registered} (hphase : u.phase = .registering loc)
      (hcreate : DataMeshClient.createDomainData env.mesh w.registered loc.params.id
        loc.params.uri loc.params.datasourceId loc.domainData = (.ok id, registered)) :
      Step env w u { w with registered := registered } (u.goto (.answered loc))
  /-- The mesh does what it does about the request, and the server does not learn of it. -/
  | registerLost {w u loc} (e : Error) (hphase : u.phase = .registering loc) :
      Step env w u
        { w with registered := (env.mesh.createDomainData w.registered loc.request).2 } (u.fail e)
  | fault {w u fs} (e : Error) (hphase : u.phase.finished = false)
      (heffect : (u.effect env).On w.fs fs) : Step env w u { w with fs := fs } (u.fail e)

section Steps

variable {env : ServerEnv} {w w' : World} {u u' : Upload}

theorem Step.stops (e : Error) (h : u.phase.finished = false) : Step env w u w (u.fail e) :=
  .fault e h .unchanged

/-- What the handler does by itself is one of its steps. -/
theorem step_next (h : u.phase.finished = false) :
    Step env w u (next env w u).1 (next env w u).2 := by
  unfold next
  split
  next hphase => exact .read hphase rfl
  next json _ hphase =>
    split
    next => exact .stops _ h
    next d hparse =>
      have hread : Step env w u w _ := .read hphase (by simp [Field.accepted, hparse])
      simpa only [Vars.after, hparse] using hread
  next hphase => exact .read hphase rfl
  next hphase =>
    split
    next => exact .stops _ h
    next hmake => exact .makeTemp hphase hmake
  next => exact .stops _ h
  next hphase =>
    split
    next => exact .stops _ h
    next hopen => exact .openTemp hphase hopen
  next hphase =>
    split
    next => exact .stops _ h
    next hcontent =>
      split
      next => exact .stops _ h
      next hwrite => exact .writeChunk hphase hcontent hwrite
  next hphase => exact .closeTemp hphase
  next hphase =>
    split
    next => exact .stops _ h
    next hloc =>
      split
      next => exact .stops _ h
      next hparent => exact .prepare hphase hloc hparent
  next hphase =>
    split
    next => exact .stops _ h
    next hcontent =>
      split
      next => exact .stops _ h
      next hwrite => exact .store hphase hcontent hwrite
  next loc hphase =>
    cases hcreate : DataMeshClient.createDomainData env.mesh w.registered loc.params.id
        loc.params.uri loc.params.datasourceId loc.domainData with
    | mk result registered =>
      cases result with
      | ok id => exact .register hphase hcreate
      | error e =>
        obtain rfl : _ = registered := congrArg Prod.snd hcreate
        exact .registerLost e hphase
  next hphase => simp [hphase, Phase.finished] at h
  next hphase => simp [hphase, Phase.finished] at h

/-- The file system changes only by the effect of the phase. -/
theorem Step.on (h : Step env w u w' u') : (u.effect env).On w.fs w'.fs := by
  cases h with
  | makeTemp hphase hmake =>
    simp only [Upload.effect, hphase]
    exact .makes List.prefix_rfl hmake
  | openTemp hphase hopen =>
    simp only [Upload.effect, hphase]
    exact .writes hopen
  | writeChunk hphase _ hwrite =>
    simp only [Upload.effect, hphase]
    exact .writes hwrite
  | prepare hphase hloc hparent =>
    simp only [Upload.effect, hphase, hloc]
    rw [FileTree.ensureParent] at hparent
    split at hparent
    · exact .makes List.prefix_rfl hparent
    · cases hparent
      exact .unchanged
  | store hphase _ hwrite =>
    simp only [Upload.effect, hphase]
    exact .writes hwrite
  | fault _ _ heffect => exact heffect
  | read | closeTemp | register | registerLost => exact .unchanged

theorem Effect.On.fileAt {effect : Effect} {fs fs' : FileSystem} (h : effect.On fs fs')
    {p : Location Name} (hp : effect ≠ .writes p) : fs'.fileAt p = fs.fileAt p := by
  cases h with
  | unchanged => rfl
  | makes _ hmake => exact FileTree.fileAt_createDirectories hmake
  | writes hwrite =>
    rw [FileTree.fileAt_writeFile hwrite, if_neg]
    rintro rfl
    exact hp rfl

theorem Effect.On.kindsKept {effect : Effect} {fs fs' : FileSystem} (h : effect.On fs fs') :
    fs.KindsKept fs' := by
  cases h with
  | unchanged => exact .refl _
  | makes _ hmake => exact .createDirectories hmake
  | writes hwrite => exact .writeFile hwrite

/-- The records change only when a request registers its place, under an id that is not taken. -/
theorem Step.registered (h : Step env w u w' u') :
    w'.registered = w.registered ∨ ∃ loc r, u.phase = .registering loc ∧
      Creates env.mesh loc.request w.registered r ∧ w'.registered = w.registered ++ [r] := by
  cases h with
  | register hphase hcreate =>
    obtain ⟨r, hcreates, happend⟩ := DataMeshClient.createDomainData_ok hcreate
    exact .inr ⟨_, r, hphase, hcreates, happend⟩
  | @registerLost loc _ hphase =>
    rcases env.mesh.createDomainData_cases w.registered loc.request with
      hsame | ⟨r, hcreates, happend⟩
    · exact .inl hsame
    · exact .inr ⟨_, r, hphase, hcreates, happend⟩
  | _ => exact .inl rfl

theorem Step.record_kept (h : Step env w u w' u') {id : Bytes} {r : DomainData}
    (hr : record w.registered id = some r) : record w'.registered id = some r := by
  rcases h.registered with hsame | ⟨_, _, _, _, happend⟩
  · rw [hsame, hr]
  · rw [happend]
    exact record_append hr _

end Steps

/-! ## The whole handler -/

def Field.size : Field → Nat
  | .file _ chunks => chunks.length + 3
  | _ => 1

/-- Every step makes this smaller. -/
def Phase.size : Phase → Nat
  | .receiving todo => (todo.map Field.size).sum + 4
  | .opening _ chunks todo => chunks.length + (todo.map Field.size).sum + 6
  | .writing _ _ chunks todo => chunks.length + (todo.map Field.size).sum + 5
  | .storing _ => 3
  | .registering _ => 2
  | .answered _ | .failed _ => 0

/-- `handle_upload` while no other request is handled and nothing fails outside of it. -/
def handleUpload (env : ServerEnv) (w : World) (fields : List Field) : World × Upload :=
  (fun a => next env a.1 a.2)^[(Phase.receiving fields).size] (w, Upload.start fields)

section Whole

variable {env : ServerEnv} {w w' : World} {u u' : Upload}

theorem Phase.size_pos {phase : Phase} (h : phase.finished = false) : 0 < phase.size := by
  cases phase with
  | answered | failed => cases h
  | _ => simp [Phase.size]

theorem Step.size_lt (h : Step env w u w' u') : u'.phase.size < u.phase.size := by
  cases h with
  | @read field todo hphase haccepted =>
    have hfield : 0 < field.size := by
      cases field <;> simp [Field.size]
    simp only [hphase, Phase.size, List.map_cons, List.sum_cons]
    omega
  | makeTemp hphase =>
    simp only [hphase, Upload.goto, Phase.size, Field.size, List.map_cons, List.sum_cons]
    omega
  | openTemp hphase | writeChunk hphase =>
    simp only [hphase, Upload.goto, Phase.size, List.length_cons]
    omega
  | closeTemp hphase | prepare hphase | store hphase | register hphase =>
    simp [hphase, Upload.goto, Phase.size]
  | registerLost _ hphase =>
    simp [hphase, Upload.fail, Upload.goto, Phase.size]
  | fault _ hphase => exact Phase.size_pos hphase

theorem next_of_finished (h : u.phase.finished = true) : next env w u = (w, u) := by
  obtain ⟨vars, phase⟩ := u
  cases phase with
  | answered | failed => rfl
  | _ => cases h

/-- The handler comes to an end, and what its steps keep holds there. -/
theorem handleUpload_spec (Inv : World × Upload → Prop)
    (hkeeps : ∀ {w u}, u.phase.finished = false → Inv (w, u) → Inv (next env w u))
    {fields : List Field} (hinit : Inv (w, Upload.start fields)) :
    (handleUpload env w fields).2.phase.finished = true ∧ Inv (handleUpload env w fields) := by
  have hall : ∀ n (a : World × Upload), a.2.phase.size ≤ n → Inv a →
      ((fun a : World × Upload => next env a.1 a.2)^[n] a).2.phase.finished = true ∧
        Inv ((fun a : World × Upload => next env a.1 a.2)^[n] a) := by
    intro n
    induction n with
    | zero =>
      intro a hsize hinv
      refine ⟨?_, hinv⟩
      by_contra hunfinished
      have hpos : 0 < a.2.phase.size := Phase.size_pos (Bool.not_eq_true _ ▸ hunfinished)
      omega
    | succ n ih =>
      intro a hsize hinv
      rw [Function.iterate_succ_apply]
      by_cases hfinished : a.2.phase.finished = true
      · rw [next_of_finished hfinished]
        refine ih a ?_ hinv
        cases hphase : a.2.phase with
        | answered | failed => exact Nat.zero_le n
        | _ => simp [hphase, Phase.finished] at hfinished
      · have hunfinished : a.2.phase.finished = false := Bool.not_eq_true _ ▸ hfinished
        have hlt := Step.size_lt (@step_next env a.1 a.2 hunfinished)
        exact ih _ (by omega) (hkeeps hunfinished hinv)
  exact hall _ _ le_rfl hinit

theorem handleUpload_invariant (Inv : World × Upload → Prop)
    (hstep : ∀ {w u w' u'}, Step env w u w' u' → Inv (w, u) → Inv (w', u'))
    {fields : List Field} (hinit : Inv (w, Upload.start fields)) :
    Inv (handleUpload env w fields) :=
  (handleUpload_spec Inv (fun hunfinished hinv => hstep (step_next hunfinished) hinv) hinit).2

end Whole

/-! ## The fields decide the place -/

def varsOf (env : ServerEnv) (fields : List Field) : Vars := fields.foldl (Vars.after env) {}

/-- An upload is a stage in the handling of the fields. -/
def Follows (env : ServerEnv) (fields : List Field) (u : Upload) : Prop :=
  match u.phase with
  | .receiving todo => todo.foldl (Vars.after env) u.vars = varsOf env fields
  | .opening filename chunks todo =>
    todo.foldl (Vars.after env) (u.vars.after env (.file filename chunks)) = varsOf env fields
  | .writing path _ _ todo =>
    todo.foldl (Vars.after env) { u.vars with fileTempPath := some path } = varsOf env fields
  | .storing loc | .registering loc | .answered loc => locate env (varsOf env fields) = .ok loc
  | .failed _ => True

theorem follows_start (env : ServerEnv) (fields : List Field) :
    Follows env fields (Upload.start fields) := rfl

section Follows

variable {env : ServerEnv} {fields : List Field} {w w' : World} {u u' : Upload} {loc : Located}

theorem Follows.locate_of_registering (h : Follows env fields u)
    (hphase : u.phase = .registering loc) : locate env (varsOf env fields) = .ok loc := by
  simpa only [Follows, hphase] using h

theorem Follows.locate_of_answered (h : Follows env fields u) (hphase : u.phase = .answered loc) :
    locate env (varsOf env fields) = .ok loc := by
  simpa only [Follows, hphase] using h

theorem Step.follows (hstep : Step env w u w' u') (h : Follows env fields u) :
    Follows env fields u' := by
  cases hstep with
  | registerLost | fault => trivial
  | prepare hphase hloc =>
    simp only [Follows, hphase, List.foldl_nil] at h
    rw [h] at hloc
    exact hloc
  | read hphase | makeTemp hphase | openTemp hphase | writeChunk hphase | closeTemp hphase
  | store hphase | register hphase =>
    simp only [Follows, hphase] at h
    exact h

end Follows

end TrustFlow.Dm
