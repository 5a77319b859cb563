import TrustFlow.Dm.ConcurrentRequests
import TrustFlow.Dm.HandleDownload

/-! # Where uploads and downloads reach

The temporary file of an upload, its destination and the file of a download are named by
joining a directory with a text that a client or a record chose.  Joining keeps `..`, and
an absolute text replaces the directory.

`Arrives` is what the handling of a request can come to while anything else happens to the
files and records between its steps, so also while other requests are handled. -/

namespace TrustFlow.Dm

open Proxy (Name pathAppend pathParts Inside LeadsBelow inside_pathAppend_iff)

/-! ## The paths of an upload -/

inductive Arrives (env : ServerEnv) (fields : List Field) : Upload → Prop where
  | start : Arrives env fields (Upload.start fields)
  | step {w u w' u'} : Arrives env fields u → Step env w u w' u' → Arrives env fields u'

/-- The path that an upload has open or is about to write, after the directory it belongs in. -/
def Upload.target (env : ServerEnv) (u : Upload) : Option (Bytes × Bytes) :=
  match u.phase with
  | .opening (some filename) _ _ => some (tempDir, tempPath filename)
  | .writing path _ _ _ => some (tempDir, path)
  | .storing loc =>
    (env.mesh.localfsPath loc.params.datasourceId).map fun dir => (dir, loc.destPath)
  | _ => none

def Upload.Confined (env : ServerEnv) (cwd : Location Name) (u : Upload) : Prop :=
  ∀ dir path, u.target env = some (dir, path) → Inside cwd dir path

/-- Whatever happens between its steps, the request writes only below the directories. -/
def UploadConfined (env : ServerEnv) (cwd : Location Name) (fields : List Field) : Prop :=
  ∀ u, Arrives env fields u → u.Confined env cwd

/-! ## What the fields decide -/

/-- The handler gets past the field in some state of the files. -/
def Field.passes (env : ServerEnv) : Field → Bool
  | .file none _ => false
  | .file (some filename) _ => env.resolve (tempPath filename) ≠ []
  | field => field.accepted env

def Field.filename? : Field → Option Name
  | .file filename _ => filename
  | _ => none

/-- The file names that the handler may come to open. -/
def openedNames (env : ServerEnv) : List Field → List Name
  | [] => []
  | field :: todo =>
    field.filename?.toList ++ if field.passes env then openedNames env todo else []

/-- The place that the handler may come to store to. -/
def StoresAt (env : ServerEnv) (fields : List Field) (loc : Located) : Prop :=
  fields.all (Field.passes env) = true ∧ locate env (varsOf env fields) = .ok loc

/-- The fields that are left decide no more than all of them. -/
structure Rest (env : ServerEnv) (fields todo : List Field) : Prop where
  names : openedNames env todo ⊆ openedNames env fields
  passes : todo.all (Field.passes env) = true → fields.all (Field.passes env) = true

def Ahead (env : ServerEnv) (fields : List Field) (u : Upload) : Prop :=
  match u.phase with
  | .receiving todo => Rest env fields todo
  | .opening filename chunks todo => Rest env fields (.file filename chunks :: todo)
  | .writing path _ _ todo =>
    (∃ filename ∈ openedNames env fields, tempPath filename = path) ∧ Rest env fields todo
  | .storing _ | .registering _ | .answered _ => fields.all (Field.passes env) = true
  | .failed _ => True

section Ahead

variable {env : ServerEnv} {fields todo : List Field} {field : Field} {w w' : World}
  {u u' : Upload}

theorem Field.passes_of_accepted (h : field.accepted env = true) : field.passes env = true := by
  cases field with
  | file filename chunks => cases h
  | _ => exact h

theorem Rest.tail (h : Rest env fields (field :: todo)) (hpasses : field.passes env = true) :
    Rest env fields todo where
  names filename hmem := h.names (by simp [openedNames, hpasses, hmem])
  passes hall := h.passes (by simp [hpasses, hall])

theorem Rest.filename_mem {filename : Name} {chunks : List Bytes}
    (h : Rest env fields (.file (some filename) chunks :: todo)) :
    filename ∈ openedNames env fields :=
  h.names (by simp [openedNames, Field.filename?])

theorem ne_nil_of_writeFile {fs fs' : FileSystem} {p : Location Name} {content : Bytes}
    (h : fs.writeFile p content = some fs') : p ≠ [] := by
  rintro rfl
  simp [FileTree.writeFile] at h

theorem Step.ahead (hstep : Step env w u w' u') (h : Ahead env fields u) :
    Ahead env fields u' := by
  cases hstep with
  | read hphase haccepted =>
    simp only [Ahead, hphase] at h
    exact h.tail (Field.passes_of_accepted haccepted)
  | makeTemp hphase =>
    simp only [Ahead, hphase] at h
    exact h
  | openTemp hphase hopen =>
    simp only [Ahead, hphase] at h
    have hpasses := ne_nil_of_writeFile hopen
    exact ⟨⟨_, h.filename_mem, rfl⟩, h.tail (by simpa [Field.passes] using hpasses)⟩
  | writeChunk hphase =>
    simp only [Ahead, hphase] at h
    exact h
  | closeTemp hphase =>
    simp only [Ahead, hphase] at h
    exact h.2
  | prepare hphase =>
    simp only [Ahead, hphase] at h
    exact h.passes rfl
  | store hphase | register hphase =>
    simp only [Ahead, hphase] at h
    exact h
  | registerLost | fault => trivial

theorem Arrives.ahead (h : Arrives env fields u) : Ahead env fields u := by
  induction h with
  | start => exact ⟨List.Subset.refl _, id⟩
  | step _ hstep ih => exact hstep.ahead ih

theorem Arrives.follows (h : Arrives env fields u) : Follows env fields u := by
  induction h with
  | start => exact follows_start env fields
  | step _ hstep ih => exact hstep.follows ih

end Ahead

/-! ## Every field that passes is passed in some run -/

section Runs

variable {env : ServerEnv} {fields todo : List Field} {vars : Vars}

/-- A world in which a file can be written at a location. -/
theorem exists_world {p : Location Name} (hp : p ≠ []) :
    ∃ w : World, w.fs.fileAt p = some [] ∧ ∀ content, ∃ fs, w.fs.writeFile p content = some fs := by
  obtain ⟨made, hmade⟩ := FileTree.exists_createDirectories_empty (γ := Bytes) p.dropLast
  have hparent : made.node p.dropLast = some .dir := by
    rw [FileTree.node_createDirectories hmade, if_pos List.prefix_rfl]
  have hfree : made.node p = none := by
    have hlonger : ¬ p <+: p.dropLast := by
      intro hpre
      have hlen := hpre.length_le
      have hpos := List.length_pos_of_ne_nil hp
      rw [List.length_dropLast] at hlen
      omega
    rw [FileTree.node_createDirectories hmade, if_neg hlonger]
    simp [FileTree.empty, hp]
  obtain ⟨fs, hfs⟩ := FileTree.exists_writeFile [] hparent (.inl hfree)
  have hfile : fs.fileAt p = some [] := by rw [FileTree.fileAt_writeFile hfs, if_pos rfl]
  have hdir : fs.node p.dropLast = some .dir := by
    rw [FileTree.node_writeFile hfs, if_neg, hparent]
    intro heq
    rw [heq, hfree] at hparent
    cases hparent
  refine ⟨⟨fs, []⟩, hfile, fun content => ?_⟩
  exact FileTree.exists_writeFile content hdir (.inr ⟨[], FileTree.fileAt_eq_some.mp hfile⟩)

theorem Arrives.opening {filename : Option Name} {chunks : List Bytes}
    (h : Arrives env fields ⟨vars, .receiving (.file filename chunks :: todo)⟩) :
    Arrives env fields ⟨vars, .opening filename chunks todo⟩ := by
  obtain ⟨fs, hmake⟩ := FileTree.exists_createDirectories_empty (γ := Bytes) (env.resolve tempDir)
  exact h.step (.makeTemp (w := emptyWorld) rfl hmake)

theorem Arrives.written {path : Bytes} {mode : Mode} {chunks : List Bytes}
    (hpath : env.resolve path ≠ [])
    (h : Arrives env fields ⟨vars, .writing path mode chunks todo⟩) :
    Arrives env fields ⟨{ vars with fileTempPath := some path }, .receiving todo⟩ := by
  induction chunks generalizing mode with
  | nil => exact h.step (.closeTemp (w := emptyWorld) rfl)
  | cons chunk chunks ih =>
    obtain ⟨w, hcontent, hwrite⟩ := exists_world hpath
    obtain ⟨fs, hfs⟩ := hwrite (mode.write [] chunk).1
    exact ih (h.step (.writeChunk rfl hcontent hfs))

theorem Arrives.pass {field : Field} (hpasses : field.passes env = true)
    (h : Arrives env fields ⟨vars, .receiving (field :: todo)⟩) :
    Arrives env fields ⟨vars.after env field, .receiving todo⟩ := by
  cases field with
  | file filename chunks =>
    cases filename with
    | none => cases hpasses
    | some filename =>
      have hpath : env.resolve (tempPath filename) ≠ [] := by simpa [Field.passes] using hpasses
      obtain ⟨w, _, hwrite⟩ := exists_world hpath
      obtain ⟨fs, hfs⟩ := hwrite []
      exact (h.opening.step (.openTemp rfl hfs)).written hpath
  | _ => exact h.step (.read (w := emptyWorld) rfl hpasses)

theorem Arrives.exists_opening {filename : Name}
    (h : Arrives env fields ⟨vars, .receiving todo⟩) (hmem : filename ∈ openedNames env todo) :
    ∃ vars chunks todo, Arrives env fields ⟨vars, .opening (some filename) chunks todo⟩ := by
  induction todo generalizing vars with
  | nil => cases hmem
  | cons field todo ih =>
    rw [openedNames, List.mem_append] at hmem
    rcases hmem with hown | hlater
    · cases field with
      | file name chunks =>
        obtain rfl : name = some filename := by simpa [Field.filename?] using hown
        exact ⟨vars, chunks, todo, h.opening⟩
      | _ => simp [Field.filename?] at hown
    · by_cases hpasses : field.passes env = true
      · rw [if_pos hpasses] at hlater
        exact ih (h.pass hpasses) hlater
      · rw [if_neg hpasses] at hlater
        cases hlater

theorem Arrives.received (h : Arrives env fields ⟨vars, .receiving todo⟩)
    (hall : todo.all (Field.passes env) = true) :
    Arrives env fields ⟨todo.foldl (Vars.after env) vars, .receiving []⟩ := by
  induction todo generalizing vars with
  | nil => exact h
  | cons field todo ih =>
    rw [List.all_cons, Bool.and_eq_true] at hall
    exact ih (h.pass hall.1) hall.2

theorem StoresAt.arrives {loc : Located} (h : StoresAt env fields loc) :
    Arrives env fields ⟨varsOf env fields, .storing loc⟩ := by
  have hreceived : Arrives env fields ⟨varsOf env fields, .receiving []⟩ :=
    Arrives.start.received h.1
  obtain ⟨fs, hparent⟩ : ∃ fs, emptyWorld.fs.ensureParent (env.resolve loc.destPath) = some fs := by
    rw [FileTree.ensureParent]
    split
    · exact FileTree.exists_createDirectories_empty _
    · exact ⟨_, rfl⟩
  exact hreceived.step (.prepare rfl h.2 hparent)

end Runs

/-! ## Uploads -/

section Uploads

variable {env : ServerEnv} {cwd : Location Name} {fields : List Field} {u : Upload}

/-- The names that the handler opens lead below the temporary directory, and the place that it
    stores to leads below the path of its data source. -/
structure FieldsLeadBelow (env : ServerEnv) (cwd : Location Name) (fields : List Field) : Prop where
  temp : ∀ filename ∈ openedNames env fields, LeadsBelow cwd tempDir filename
  dest : ∀ loc, StoresAt env fields loc → ∀ dir,
    env.mesh.localfsPath loc.params.datasourceId = some dir → LeadsBelow cwd dir loc.params.uri

theorem Arrives.storesAt {loc : Located} (h : Arrives env fields u)
    (hphase : u.phase = .storing loc ∨ u.phase = .registering loc) : StoresAt env fields loc := by
  have hahead := h.ahead
  have hfollows := h.follows
  rcases hphase with hphase | hphase
  · simp only [Ahead, Follows, hphase] at hahead hfollows
    exact ⟨hahead, hfollows⟩
  · simp only [Ahead, Follows, hphase] at hahead hfollows
    exact ⟨hahead, hfollows⟩

theorem StoresAt.inside_iff {loc : Located} (h : StoresAt env fields loc) {dir : Bytes}
    (hdir : env.mesh.localfsPath loc.params.datasourceId = some dir) :
    Inside cwd dir loc.destPath ↔ LeadsBelow cwd dir loc.params.uri := by
  obtain ⟨_, _, path, hpath, hdest⟩ := locate_spec h.2
  obtain rfl : path = dir := Option.some.inj (hpath.symm.trans hdir)
  rw [← hdest, inside_pathAppend_iff]

theorem FieldsLeadBelow.confined (h : FieldsLeadBelow env cwd fields) (hu : Arrives env fields u) :
    u.Confined env cwd := by
  have htemp : ∀ filename ∈ openedNames env fields, Inside cwd tempDir (tempPath filename) :=
    fun filename hmem => (inside_pathAppend_iff cwd tempDir filename).mpr (h.temp filename hmem)
  have hahead := hu.ahead
  obtain ⟨vars, phase⟩ := u
  intro dir path htarget
  cases phase with
  | opening filename chunks todo =>
    cases filename with
    | none => cases htarget
    | some filename =>
      cases htarget
      exact htemp filename (Rest.filename_mem hahead)
  | writing path chunks todo =>
    cases htarget
    obtain ⟨filename, hmem, rfl⟩ := hahead.1
    exact htemp filename hmem
  | storing loc =>
    obtain ⟨dir', hdir, heq⟩ := Option.map_eq_some_iff.mp htarget
    cases heq
    have hstores := hu.storesAt (.inl rfl)
    exact (hstores.inside_iff hdir).mpr (h.dest loc hstores dir hdir)
  | _ => cases htarget

/-- A request stays below the directories exactly if its fields lead below them. -/
theorem uploadConfined_iff : UploadConfined env cwd fields ↔ FieldsLeadBelow env cwd fields := by
  constructor
  · intro h
    constructor
    · intro filename hmem
      obtain ⟨vars, chunks, todo, hopening⟩ := Arrives.start.exists_opening hmem
      exact (inside_pathAppend_iff cwd tempDir filename).mp (h _ hopening _ _ rfl)
    · intro loc hstores dir hdir
      have htarget : (⟨varsOf env fields, .storing loc⟩ : Upload).target env =
          some (dir, loc.destPath) := by simp [Upload.target, hdir]
      exact (hstores.inside_iff hdir).mp (h _ hstores.arrives dir loc.destPath htarget)
  · intro h u hu
    exact h.confined hu

end Uploads

/-! ## Downloads -/

/-- The file that a request opens for a record lies below the path of the record's source. -/
def DownloadConfined (env : DownloadEnv) (cwd : Location Name) (body : Bytes) : Prop :=
  ∀ domainData dir, locateDownload env body = .ok (.dm domainData dir) →
    Inside cwd dir (DownloadPlace.dm domainData dir).filename

/-- Both handlers stay below their directories exactly if the texts that they join lead below
    them: the file names and the place of an upload, and the relative path of a record. -/
theorem handlers_confined_iff (env : DownloadEnv) (cwd : Location Name) :
    (∀ fields, UploadConfined env.toServerEnv cwd fields ↔
      FieldsLeadBelow env.toServerEnv cwd fields) ∧
    ∀ body, DownloadConfined env cwd body ↔
      ∀ domainData dir, locateDownload env body = .ok (.dm domainData dir) →
        LeadsBelow cwd dir domainData.relativeUri := by
  refine ⟨fun fields => uploadConfined_iff, fun body => ?_⟩
  constructor
  · intro h domainData dir hplace
    exact (inside_pathAppend_iff cwd dir domainData.relativeUri).mp (h domainData dir hplace)
  · intro h domainData dir hplace
    exact (inside_pathAppend_iff cwd dir domainData.relativeUri).mpr (h domainData dir hplace)

def sampleInputUri (id : Bytes) : Bytes := str "dm://input/?id=" ++ id

/-- The body of a request for a URI without characters that JSON escapes. -/
def uriParams (uri : Bytes) : Bytes := str "\x7b\"uri\": \"" ++ uri ++ str "\"\x7d"

def plainParams (body : Bytes) : Option Bytes :=
  let uri := (body.drop 9).take (body.length - 11)
  if body = uriParams uri then some uri else none

def plainInputQuery (query : Bytes) : Option DmInputUriQueryParams :=
  ((plainPairs query).lookup (str "id")).map fun id => ⟨id⟩

/-- A server in the directory `/srv` without symbolic links, whose mesh answers every query for a
    record with one that has the asked id as its relative path. -/
def lexicalEnv : DownloadEnv where
  toServerEnv := { sampleEnv with resolve := fun path => Proxy.locate [str "srv"] (pathParts path) }
  queryDomainData id :=
    ⟨some ⟨0, []⟩, some { sampleDomainData with relativeUri := id, datasourceId := str "ds" }⟩
  urlPath := id
  parseRequestParams := plainParams
  parseInputQuery := plainInputQuery

/-- A disk with the directory of the data source. -/
def dataWorld : World := ⟨(FileTree.empty.createDirectories [str "data"]).getD .empty, []⟩

/-- An upload whose file name climbs and whose place is absolute. -/
def escapingFields : List Field := sampleFields (str "../evil") [str "x"] (str "/etc/x")

/-- The upload leaves its bytes beside the temporary directory and outside of the data source, and
    a download of a record that climbs answers with a file outside of it. -/
theorem handlers_escape :
    let fs := (handleUpload lexicalEnv.toServerEnv dataWorld escapingFields).1.fs
    (fs.fileAt [str "srv", str "evil"] = some (str "x") ∧
      fs.fileAt [str "etc", str "x"] = some (str "x") ∧
      handleDownload lexicalEnv fs (uriParams (sampleInputUri (str "../etc/x"))) =
        .ok (.content (str "x"))) ∧
    ¬ UploadConfined lexicalEnv.toServerEnv [str "srv"] escapingFields ∧
    ¬ DownloadConfined lexicalEnv [str "srv"] (uriParams (sampleInputUri (str "../etc/x"))) := by
  refine ⟨by decide, ?_, ?_⟩
  · intro h
    have htemp := (uploadConfined_iff.mp h).temp (str "../evil") (by decide)
    have hinside := (inside_pathAppend_iff _ _ _).mpr htemp
    exact absurd hinside (by decide)
  · intro h
    exact absurd (h _ _ rfl) (by decide)

/-! ## The whole server -/

/-- A location that is neither in the temporary directory nor in a data source. -/
structure Outside (env : ServerEnv) (cwd p : Location Name) : Prop where
  temp : ¬ Proxy.locate cwd (pathParts tempDir) <+: p
  data : ∀ id dir, env.mesh.localfsPath id = some dir → ¬ Proxy.locate cwd (pathParts dir) <+: p

/-- The data source of a record has the place of the record below its path. -/
def RecordLeadsBelow (env : ServerEnv) (cwd : Location Name) (r : DomainData) : Prop :=
  ∀ dir, env.mesh.localfsPath r.datasourceId = some dir → LeadsBelow cwd dir r.relativeUri

/-- The upload names its data source, so that none is chosen for it. -/
def NamesSource (env : ServerEnv) (fields : List Field) : Prop :=
  ∀ loc, locate env (varsOf env fields) = .ok loc → loc.params.datasourceId ≠ []

/-- The mesh answers with the places of records it has. -/
def AnswersFrom (env : DownloadEnv) (registered : List DomainData) : Prop :=
  ∀ id domainData, (env.queryDomainData id).data = some domainData →
    ∃ r ∈ registered, r.datasourceId = domainData.datasourceId ∧
      r.relativeUri = domainData.relativeUri

section Server

variable {κ : Type} [DecidableEq κ] {env : ServerEnv} {cwd : Location Name} {w : World}
  {requests : κ → List Field} {c : Parties.Config κ World Upload}
  {allowed : Parties.Config κ World Upload → κ → Prop} {u : Upload} {fields : List Field}

theorem arrives_of_reaches (h : (server env κ).Reaches allowed (started w requests) c) :
    ∀ k, Arrives env (requests k) (c.own k) := by
  refine h.invariant_own (fun k u => Arrives env (requests k) u) ?_ fun k => .start
  intro c k w' u' _ hk hstep
  exact hk.step hstep

/-- A write goes to the target of the upload, which belongs in one of the directories. -/
theorem Arrives.target_of_writes (h : Arrives env fields u) {p : Location Name}
    (heffect : u.effect env = .writes p) : ∃ dir path, u.target env = some (dir, path) ∧
      env.resolve path = p ∧ (dir = tempDir ∨ ∃ id, env.mesh.localfsPath id = some dir) := by
  have hfollows := h.follows
  obtain ⟨vars, phase⟩ := u
  cases phase with
  | receiving todo =>
    cases todo with
    | nil =>
      cases hloc : locate env vars with
      | error e => simp [Upload.effect, hloc] at heffect
      | ok loc => simp [Upload.effect, hloc] at heffect
    | cons field todo => cases field <;> simp [Upload.effect] at heffect
  | opening filename chunks todo =>
    cases filename with
    | none => cases heffect
    | some filename =>
      cases heffect
      exact ⟨tempDir, _, rfl, rfl, .inl rfl⟩
  | writing path mode chunks todo =>
    cases chunks with
    | nil => cases heffect
    | cons chunk chunks =>
      cases heffect
      exact ⟨tempDir, path, rfl, rfl, .inl rfl⟩
  | storing loc =>
    cases heffect
    obtain ⟨_, _, dir, hdir, _⟩ := locate_spec hfollows
    exact ⟨dir, loc.destPath, by simp [Upload.target, hdir], rfl, .inr ⟨_, hdir⟩⟩
  | registering | answered | failed => cases heffect

/-- While all requests lead below the directories, no file outside of them changes. -/
theorem fileAt_outside (hresolve : ∀ path, env.resolve path = Proxy.locate cwd (pathParts path))
    (hfields : ∀ k, FieldsLeadBelow env cwd (requests k))
    (h : (server env κ).Reaches allowed (started w requests) c) {p : Location Name}
    (hp : Outside env cwd p) : c.shared.fs.fileAt p = w.fs.fileAt p := by
  induction h with
  | refl => rfl
  | tail hbefore hturn ih =>
    obtain ⟨k, _, u', hstep, _⟩ := hturn
    have harrives := arrives_of_reaches hbefore k
    rw [hstep.on.fileAt, ih]
    intro hwrites
    obtain ⟨dir, path, htarget, hpath, hdir⟩ := harrives.target_of_writes hwrites
    have hinside := (hfields k).confined harrives dir path htarget
    rw [Inside, ← hresolve path, hpath] at hinside
    rcases hdir with rfl | ⟨id, hid⟩
    · exact hp.temp hinside
    · exact hp.data id dir hid hinside

/-- What the requests register leads below the data source it names. -/
theorem recordLeadsBelow_of_reaches (hfields : ∀ k, FieldsLeadBelow env cwd (requests k))
    (hsources : ∀ k, NamesSource env (requests k))
    (hinit : ∀ r ∈ w.registered, RecordLeadsBelow env cwd r)
    (h : (server env κ).Reaches allowed (started w requests) c) :
    ∀ r ∈ c.shared.registered, RecordLeadsBelow env cwd r := by
  induction h with
  | refl => exact hinit
  | tail hbefore hturn ih =>
    obtain ⟨k, _, u', hstep, _⟩ := hturn
    intro r hr
    rcases hstep.registered with hsame | ⟨loc, new, hphase, ⟨hcompletes, _⟩, happend⟩
    · rw [hsame] at hr
      exact ih r hr
    · rw [happend, List.mem_append, List.mem_singleton] at hr
      rcases hr with hr | rfl
      · exact ih r hr
      · have harrives := arrives_of_reaches hbefore k
        have hsource : r.datasourceId = loc.params.datasourceId := hcompletes.datasourceId.trans
          (if_neg (hsources k loc (harrives.follows.locate_of_registering hphase)))
        have huri : r.relativeUri = loc.params.uri := hcompletes.relativeUri
        intro dir hdir
        rw [hsource] at hdir
        rw [huri]
        exact (hfields k).dest loc (harrives.storesAt (.inr hphase)) dir hdir

/-- Downloads of what such uploads have registered stay below the data sources. -/
theorem downloadConfined_of_reaches {env : DownloadEnv}
    (hfields : ∀ k, FieldsLeadBelow env.toServerEnv cwd (requests k))
    (hsources : ∀ k, NamesSource env.toServerEnv (requests k))
    (hinit : ∀ r ∈ w.registered, RecordLeadsBelow env.toServerEnv cwd r)
    (h : (server env.toServerEnv κ).Reaches allowed (started w requests) c)
    (hanswers : AnswersFrom env c.shared.registered) (body : Bytes) :
    DownloadConfined env cwd body := by
  intro domainData dir hplace
  obtain ⟨⟨id, hdata⟩, hdir⟩ := locateDownload_dm hplace
  obtain ⟨r, hr, hsource, huri⟩ := hanswers id domainData hdata
  have hrecord := recordLeadsBelow_of_reaches hfields hsources hinit h r hr
  rw [RecordLeadsBelow, hsource, huri] at hrecord
  exact (inside_pathAppend_iff cwd dir domainData.relativeUri).mpr (hrecord dir hdir)

end Server

end TrustFlow.Dm
