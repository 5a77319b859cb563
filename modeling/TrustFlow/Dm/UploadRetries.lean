import Mathlib.Data.List.TakeWhile
import TrustFlow.Dm.ConcurrentRequests

/-! # Retries of an upload

The uploader sends the same file up to five times until an attempt is answered with
success.  An attempt before the last may have been cut short anywhere, and its
response may have been lost.  The attempts follow each other. -/

namespace TrustFlow.Dm

open Proxy (Name ValidName)

/-! ## What the uploader sends -/

/-- The arguments of `upload_file`, which are the same in every attempt. -/
structure UploadFile where
  filePath : Bytes
  content : Bytes
  outputUri : Bytes
  domainDataJson : Bytes
deriving DecidableEq

namespace UploadFile

def encryptedFilePath (up : UploadFile) : Bytes := up.filePath ++ str ".encrypted"

/-- `os.path.basename` of the encrypted file. -/
def filename (up : UploadFile) : Name := Proxy.filename up.encryptedFilePath

/-- The fields of a request, with the file in the chunks in which it happens to arrive. -/
def fields (up : UploadFile) (chunks : List Bytes) : List Field :=
  [.file (some up.filename) chunks, .storePath up.outputUri, .domainData up.domainDataJson]

theorem filename_eq (up : UploadFile) :
    up.filename = Proxy.filename up.filePath ++ str ".encrypted" := by
  have hsuffix : ∀ b ∈ (str ".encrypted").reverse, decide (b ≠ Proxy.slash) = true := by
    decide +kernel
  rw [filename, encryptedFilePath, Proxy.filename, Proxy.filename, List.reverse_append,
    List.takeWhile_append_of_pos hsuffix, List.reverse_append, List.reverse_reverse]

theorem valid_filename (up : UploadFile) : ValidName up.filename := by
  have hlen : up.filename.length = (Proxy.filename up.filePath).length + 10 := by
    rw [filename_eq, List.length_append]
    rfl
  refine ⟨List.ne_nil_of_length_pos (by omega), ?_, ?_⟩
  · intro hslash
    have hnot := List.mem_takeWhile_imp (List.mem_reverse.mp hslash)
    simp at hnot
  · have hdots : ∀ dots : Name, dots.length ≤ 2 → up.filename ≠ dots := by
      rintro dots hdots rfl
      omega
    simp [Proxy.isDots, hdots (str ".") (by decide), hdots (str "..") (by decide)]

theorem tempPath_parent {env : ServerEnv} (hresolve : Proxy.ResolvesNames env.resolve)
    (up : UploadFile) :
    (env.resolve (tempPath up.filename)).dropLast = env.resolve tempDir := by
  have hloc := hresolve tempDir [up.filename] (by simpa using up.valid_filename)
  rw [Proxy.relText] at hloc
  rw [tempPath, hloc, List.dropLast_concat]

theorem sentBody_fields (up : UploadFile) (chunks : List Bytes) :
    sentBody (up.fields chunks) = some chunks.flatten := rfl

end UploadFile

/-! ## Attempts -/

/-- A step of the handler of one request while no other request is handled. -/
def Moves (env : ServerEnv) (a b : World × Upload) : Prop := Step env a.1 a.2 b.1 b.2

/-- An attempt that ends anywhere. -/
def Attempt (env : ServerEnv) (up : UploadFile) (w w' : World) : Prop :=
  ∃ chunks u, chunks.flatten = up.content ∧
    Relation.ReflTransGen (Moves env) (w, Upload.start (up.fields chunks)) (w', u)

/-- An attempt in which nothing fails outside of the handler is answered with success. -/
def AnswersOk (env : ServerEnv) (w : World) (fields : List Field) : Prop :=
  ∃ loc, (handleUpload env w fields).2.phase = .answered loc

/-- The same files and the same records. -/
def SameState (w w' : World) : Prop :=
  (∀ p, w.fs.fileAt p = w'.fs.fileAt p) ∧ w.registered = w'.registered

/-- One record more than before, and the file at its destination. -/
def UploadedOnce (env : ServerEnv) (up : UploadFile) (w₀ w : World) : Prop :=
  (∃ r, w.registered = w₀.registered ++ [r]) ∧
    ∃ p, destination env (up.fields []) = some p ∧ w.fs.fileAt p = some up.content

/-! ## One attempt -/

/-- After the copy the temporary file and the destination are the same. -/
def Copied (env : ServerEnv) (w : World) (u : Upload) : Prop :=
  match u.phase with
  | .registering loc | .answered loc =>
    w.fs.fileAt (env.resolve loc.tempPath) = w.fs.fileAt (env.resolve loc.destPath)
  | _ => True

/-- The records are those of the start, and once the request is answered those that its creation
    leaves. -/
def Logged (env : ServerEnv) (registered : List DomainData) (w : World) (u : Upload) : Prop :=
  match u.phase with
  | .answered loc => ∃ id, DataMeshClient.createDomainData env.mesh registered loc.params.id
      loc.params.uri loc.params.datasourceId loc.domainData = (.ok id, w.registered)
  | .failed _ => True
  | _ => w.registered = registered

structure Serves (env : ServerEnv) (fields : List Field) (registered : List DomainData)
    (a : World × Upload) : Prop where
  follows : Follows env fields a.2
  within : Within env (tempLocations env fields) a.2
  holds : Holds env fields a.1 a.2
  copy : Copied env a.1 a.2
  logged : Logged env registered a.1 a.2

section Attempts

variable {env : ServerEnv} {fields : List Field} {registered : List DomainData}
  {w w' : World} {u u' : Upload}

theorem Step.copied (h : Step env w u w' u') (hu : Copied env w u) : Copied env w' u' := by
  cases h with
  | @store loc content _ hphase hcontent hwrite =>
    simp only [Copied, Upload.goto, FileTree.fileAt_writeFile hwrite, Dm.copied, if_true]
    split
    next => rfl
    next => exact hcontent
  | register hphase =>
    simp only [Copied, hphase] at hu
    exact hu
  | _ => trivial

theorem Step.logged (h : Step env w u w' u') (hu : Logged env registered w u) :
    Logged env registered w' u' := by
  cases h with
  | register hphase hcreate =>
    simp only [Logged, hphase] at hu
    subst hu
    exact ⟨_, hcreate⟩
  | registerLost | fault => trivial
  | read hphase | makeTemp hphase | openTemp hphase | writeChunk hphase | closeTemp hphase
  | prepare hphase | store hphase =>
    simp only [Logged, hphase] at hu
    exact hu

theorem Step.serves (h : Step env w u w' u') (hu : Serves env fields registered (w, u)) :
    Serves env fields registered (w', u') where
  follows := h.follows hu.follows
  within := h.within hu.within
  holds := h.holds hu.holds
  copy := h.copied hu.copy
  logged := h.logged hu.logged

theorem serves_start (env : ServerEnv) (fields : List Field) (w : World) :
    Serves env fields w.registered (w, Upload.start fields) where
  follows := follows_start env fields
  within := ⟨by simp [Upload.start], List.Subset.refl _⟩
  holds := holds_start
  copy := trivial
  logged := rfl

theorem handleUpload_serves (env : ServerEnv) (w : World) (fields : List Field) :
    Serves env fields w.registered (handleUpload env w fields) :=
  handleUpload_invariant _ Step.serves (serves_start env fields w)

end Attempts

/-! ## The files of an upload -/

/-- The files of a request as a placement; any content may be placed. -/
def uploadPlacement (env : ServerEnv) (fields : List Field) (fs : FileSystem) :
    Placement (Location Name) Name Bytes where
  start := fs
  items := filesOf env fields
  target := id
  Good _ _ := True

section Files

variable {env : ServerEnv} {fields : List Field} {fs : FileSystem} {w w' : World} {u u' : Upload}

/-- Directories are made only on the way to a file of the request. -/
theorem makes_above {q : Location Name} (hfollows : Follows env fields u)
    (htemp : ∃ p ∈ filesOf env fields, p.dropLast = env.resolve tempDir)
    (heffect : u.effect env = .makes q) : ∃ p ∈ filesOf env fields, q <+: p.dropLast := by
  unfold Upload.effect at heffect
  split at heffect
  next =>
    cases heffect
    obtain ⟨p, hp, hparent⟩ := htemp
    exact ⟨p, hp, hparent ▸ List.prefix_rfl⟩
  next hphase =>
    simp only [Follows, hphase, List.foldl_nil] at hfollows
    split at heffect
    next loc hloc =>
      cases heffect
      refine ⟨env.resolve loc.destPath, ?_, List.prefix_rfl⟩
      rw [hfollows] at hloc
      simp [filesOf, destination_of_ok hloc]
    next => cases heffect
  all_goals cases heffect

theorem Step.between (hfree : (uploadPlacement env fields fs).Free)
    (htemp : ∃ p ∈ filesOf env fields, p.dropLast = env.resolve tempDir)
    (hstep : Step env w u w' u') (hfollows : Follows env fields u)
    (hwithin : Within env (tempLocations env fields) u)
    (h : (uploadPlacement env fields fs).Between w.fs) :
    (uploadPlacement env fields fs).Between w'.fs := by
  have hon := hstep.on
  generalize w'.fs = fs' at hon
  cases heffect : u.effect env with
  | none =>
    rw [heffect] at hon
    cases hon
    exact h
  | makes q =>
    rw [heffect] at hon
    obtain ⟨p, hp, hpre⟩ := makes_above hfollows htemp heffect
    cases hon with
    | unchanged => exact h
    | makes hq hmake =>
      obtain ⟨fs'', hmake', hadvances, _⟩ := h.createDirectories hfree hp (hq.trans hpre)
      cases hmake.symm.trans hmake'
      exact hadvances.between
  | writes p =>
    rw [heffect] at hon
    have hp := writes_mem hfollows hwithin heffect
    cases hon with
    | unchanged => exact h
    | writes hwrite =>
      obtain ⟨fs'', hwrite', hadvances, _⟩ := h.writeFile hfree hp trivial
        (FileTree.writeFile_parent hwrite)
      cases hwrite.symm.trans hwrite'
      exact hadvances.between

end Files

/-! ## An attempt that finds nothing in its way -/

/-- A field that the handler takes in once there is room for its file. -/
def Field.Fine (env : ServerEnv) : Field → Prop
  | .file none _ => False
  | .file (some filename) _ => (env.resolve (tempPath filename)).dropLast = env.resolve tempDir
  | field => field.accepted env = true

/-- The next step of the handler does not fail. -/
def Ready (env : ServerEnv) (w : World) (u : Upload) : Prop :=
  match u.phase with
  | .receiving todo => ∀ field ∈ todo, field.Fine env
  | .opening filename chunks todo => (Field.file filename chunks).Fine env ∧
      w.fs.node (env.resolve tempDir) = some .dir ∧ ∀ field ∈ todo, field.Fine env
  | .writing _ _ _ todo => ∀ field ∈ todo, field.Fine env
  | .storing loc => w.fs.node (env.resolve loc.destPath).dropLast = some .dir
  | .registering _ | .answered _ => True
  | .failed _ => False

section Ready

variable {env : ServerEnv} {fields : List Field} {fs : FileSystem} {w w' : World} {u u' : Upload}
  {registered registered' : List DomainData} {loc : Located} {body id : Bytes}

theorem mem_filesOf_dest (hloc : locate env (varsOf env fields) = .ok loc) :
    env.resolve loc.destPath ∈ filesOf env fields := by
  simp [filesOf, destination_of_ok hloc]

theorem ready_next_field {vars : Vars} {field : Field} {todo : List Field}
    (hfree : (uploadPlacement env fields fs).Free)
    (hbetween : (uploadPlacement env fields fs).Between w.fs)
    (hwithin : Within env (tempLocations env fields) ⟨vars, .receiving (field :: todo)⟩)
    (hready : Ready env w ⟨vars, .receiving (field :: todo)⟩) :
    Ready env (next env w ⟨vars, .receiving (field :: todo)⟩).1
      (next env w ⟨vars, .receiving (field :: todo)⟩).2 := by
  have hfine := hready field List.mem_cons_self
  have hrest : ∀ field ∈ todo, field.Fine env :=
    fun field hfield => hready field (List.mem_cons_of_mem _ hfield)
  cases field with
  | storePath | other => exact hrest
  | domainData json =>
    obtain ⟨d, hd⟩ := Option.isSome_iff_exists.mp hfine
    simp only [next, hd]
    exact hrest
  | file filename chunks =>
    cases filename with
    | none => cases hfine
    | some filename =>
      have hp : env.resolve (tempPath filename) ∈ filesOf env fields :=
        List.mem_append_left _ (hwithin.2 (by simp [tempLocations]))
      obtain ⟨fs', hfs', _, hdir⟩ := hbetween.createDirectories hfree hp
        (show env.resolve tempDir <+: _ from hfine ▸ List.prefix_rfl)
      simp only [next, hfs']
      exact ⟨hfine, hdir, hrest⟩

/-- With room for its files and a mesh that creates its record, the handler is ready for every
    step. -/
theorem ready_next (hfree : (uploadPlacement env fields fs).Free)
    (hloc : locate env (varsOf env fields) = .ok loc) (hbody : sentBody fields = some body)
    (hcreate : DataMeshClient.createDomainData env.mesh registered loc.params.id loc.params.uri
      loc.params.datasourceId loc.domainData = (.ok id, registered'))
    (hbetween : (uploadPlacement env fields fs).Between w.fs)
    (hserves : Serves env fields registered (w, u)) (hready : Ready env w u) :
    Ready env (next env w u).1 (next env w u).2 := by
  obtain ⟨vars, phase⟩ := u
  obtain ⟨hfollows, hwithin, hholds, _, hlogged⟩ := hserves
  cases phase with
  | receiving todo =>
    cases todo with
    | nil =>
      obtain rfl : vars = varsOf env fields := hfollows
      obtain ⟨fs', (hfs' : w.fs.ensureParent (env.resolve loc.destPath) = some fs'), _, hdir⟩ :=
        hbetween.ensureParent hfree (mem_filesOf_dest hloc) List.prefix_rfl
      simp only [next, hloc, hfs']
      exact hdir
    | cons field todo => exact ready_next_field hfree hbetween hwithin hready
  | opening filename chunks todo =>
    obtain ⟨hfine, hdir, hrest⟩ := hready
    cases filename with
    | none => cases hfine
    | some filename =>
      have hp : env.resolve (tempPath filename) ∈ filesOf env fields :=
        List.mem_append_left _ (hwithin (by simp [tempLocations]))
      have hparent : w.fs.node (env.resolve (tempPath filename)).dropLast = some .dir :=
        hfine ▸ hdir
      obtain ⟨fs', (hfs' : w.fs.writeFile (env.resolve (tempPath filename)) [] = some fs'), _⟩ :=
        hbetween.writeFile hfree hp trivial hparent
      simp only [next, hfs']
      exact hrest
  | writing path mode chunks todo =>
    cases chunks with
    | nil => exact hready
    | cons chunk chunks =>
      obtain ⟨content, hcontent, _⟩ := hholds
      have hnode := FileTree.fileAt_eq_some.mp hcontent
      obtain ⟨fs', hfs'⟩ := FileTree.exists_writeFile (mode.write content chunk).1
        (FileTree.node_above_file hnode List.prefix_rfl) (.inr ⟨_, hnode⟩)
      simp only [next, hcontent, hfs']
      exact hready
  | storing loc' =>
    have hcontent : w.fs.fileAt (env.resolve loc'.tempPath) = some body := hholds.trans hbody
    obtain ⟨fs', (hfs' : w.fs.writeFile (env.resolve loc'.destPath)
        (copied (env.resolve loc'.tempPath) (env.resolve loc'.destPath) body) = some fs'), _⟩ :=
      hbetween.writeFile hfree (mem_filesOf_dest hfollows) trivial hready
    simp only [next, hcontent, hfs']
    trivial
  | registering loc' =>
    cases hloc.symm.trans hfollows
    obtain rfl : w.registered = registered := hlogged
    simp only [next, hcreate]
    trivial
  | answered => trivial
  | failed => cases hready

theorem answersOk_of_between (hfree : (uploadPlacement env fields fs).Free)
    (htemp : ∃ p ∈ filesOf env fields, p.dropLast = env.resolve tempDir)
    (hloc : locate env (varsOf env fields) = .ok loc) (hbody : sentBody fields = some body)
    (hfine : ∀ field ∈ fields, field.Fine env)
    (hcreate : DataMeshClient.createDomainData env.mesh w.registered loc.params.id loc.params.uri
      loc.params.datasourceId loc.domainData = (.ok id, registered'))
    (hbetween : (uploadPlacement env fields fs).Between w.fs) : AnswersOk env w fields := by
  obtain ⟨hfinished, _, _, hready⟩ := handleUpload_spec
    (fun a => Serves env fields w.registered a ∧
      (uploadPlacement env fields fs).Between a.1.fs ∧ Ready env a.1 a.2)
    (fun hunfinished ⟨hserves, hbetween, hready⟩ =>
      ⟨(step_next hunfinished).serves hserves,
        (step_next hunfinished).between hfree htemp hserves.follows hserves.within hbetween,
        ready_next hfree hloc hbody hcreate hbetween hserves hready⟩)
    ⟨serves_start env fields w, hbetween, hfine⟩
  cases hphase : (handleUpload env w fields).2.phase with
  | answered loc' => exact ⟨loc', hphase⟩
  | failed e => simp [Ready, hphase] at hready
  | _ => simp [hphase, Phase.finished] at hfinished

end Ready

/-! ## Attempts after each other -/

section History

variable {env : ServerEnv} {up : UploadFile} {chunks : List Bytes} {fs : FileSystem}
  {w w' : World} {u : Upload} {registered : List DomainData} {loc : Located}
  {p : Location Name}

theorem tempPath_of_fields (hloc : locate env (varsOf env (up.fields chunks)) = .ok loc) :
    loc.tempPath = tempPath up.filename := by
  have htemp := (locate_spec hloc).1
  simp only [varsOf, UploadFile.fields, List.foldl_cons, List.foldl_nil, Vars.after] at htemp
  split at htemp <;> exact (Option.some.inj htemp).symm

theorem fine_fields (hresolve : Proxy.ResolvesNames env.resolve)
    (hloc : locate env (varsOf env (up.fields chunks)) = .ok loc) :
    ∀ field ∈ up.fields chunks, field.Fine env := by
  have hdata := (locate_spec hloc).2.1
  simp only [varsOf, UploadFile.fields, List.foldl_cons, List.foldl_nil, Vars.after] at hdata
  have hjson : (env.parseDomainData up.domainDataJson).isSome = true := by
    split at hdata
    next => cases hdata
    next hparse => rw [hparse]; rfl
  intro field hfield
  simp only [UploadFile.fields, List.mem_cons, List.not_mem_nil, or_false] at hfield
  rcases hfield with rfl | rfl | rfl
  · exact up.tempPath_parent hresolve
  · rfl
  · exact hjson

theorem exists_temp (hresolve : Proxy.ResolvesNames env.resolve) (up : UploadFile)
    (chunks : List Bytes) :
    ∃ p ∈ filesOf env (up.fields chunks), p.dropLast = env.resolve tempDir :=
  ⟨_, List.mem_append_left _ List.mem_cons_self, up.tempPath_parent hresolve⟩

/-- Both files of an upload that is answered with success have the same content. -/
theorem Serves.fileAt_answered (h : Serves env (up.fields chunks) registered (w, u))
    (hphase : u.phase = .answered loc) (hp : p ∈ filesOf env (up.fields chunks)) :
    w.fs.fileAt p =
      some (copied (env.resolve loc.tempPath) (env.resolve loc.destPath) chunks.flatten) := by
  obtain ⟨hfollows, _, hholds, hcopied, _⟩ := h
  have hloc := hfollows.locate_of_answered hphase
  simp only [Holds, hphase, UploadFile.sentBody_fields, Option.some.injEq,
    exists_eq_left'] at hholds
  simp only [Copied, hphase] at hcopied
  have hfiles : filesOf env (up.fields chunks) =
      [env.resolve loc.tempPath, env.resolve loc.destPath] := by
    rw [filesOf, destination_of_ok hloc, tempPath_of_fields hloc]
    rfl
  rw [hfiles] at hp
  simp only [List.mem_cons, List.not_mem_nil, or_false] at hp
  rcases hp with rfl | rfl
  · rw [hcopied, hholds]
  · exact hholds

theorem free_of_answersOk (h : AnswersOk env w (up.fields chunks)) :
    (uploadPlacement env (up.fields chunks) w.fs).Free := by
  obtain ⟨loc, hphase⟩ := h
  have hkinds : w.fs.KindsKept (handleUpload env w (up.fields chunks)).1.fs :=
    handleUpload_invariant (fun a => w.fs.KindsKept a.1.fs)
      (fun hstep hkinds => hkinds.trans hstep.on.kindsKept) (.refl _)
  refine Placement.free_of_placed hkinds (fun p hp => ?_) (fun p _ q _ heq => heq)
  exact ⟨_, trivial, FileTree.fileAt_eq_some.mp
    ((handleUpload_serves env w _).fileAt_answered hphase hp)⟩

theorem handleUpload_between (hfree : (uploadPlacement env (up.fields chunks) fs).Free)
    (hresolve : Proxy.ResolvesNames env.resolve)
    (h : (uploadPlacement env (up.fields chunks) fs).Between w.fs) :
    (uploadPlacement env (up.fields chunks) fs).Between
      (handleUpload env w (up.fields chunks)).1.fs := by
  have hall := handleUpload_invariant
    (fun a => Serves env (up.fields chunks) w.registered a ∧
      (uploadPlacement env (up.fields chunks) fs).Between a.1.fs)
    (fun hstep ⟨hserves, hbetween⟩ => ⟨hstep.serves hserves,
      hstep.between hfree (exists_temp hresolve up chunks) hserves.follows hserves.within hbetween⟩)
    ⟨serves_start env _ w, h⟩
  exact hall.2

/-- Two uploads of the same content into the same files leave the same files. -/
theorem Serves.fileAt_eq {chunks' : List Bytes} {u' : Upload}
    {registered' : List DomainData} (hchunks : chunks.flatten = chunks'.flatten)
    (h : Serves env (up.fields chunks) registered (w, u)) (hphase : u.phase = .answered loc)
    (hbetween : (uploadPlacement env (up.fields []) fs).Between w.fs)
    (h' : Serves env (up.fields chunks') registered' (w', u')) (hphase' : u'.phase = .answered loc)
    (hbetween' : (uploadPlacement env (up.fields []) fs).Between w'.fs) (p : Location Name) :
    w.fs.fileAt p = w'.fs.fileAt p := by
  by_cases hp : p ∈ filesOf env (up.fields [])
  · rw [h.fileAt_answered hphase hp, h'.fileAt_answered hphase' hp, hchunks]
  · have hother : ∀ q ∈ filesOf env (up.fields []), p ≠ q := fun q hq heq => hp (heq ▸ hq)
    rw [hbetween.fileAt_eq hother, hbetween'.fileAt_eq hother]

/-- What every attempt leaves behind, wherever it ended. -/
structure Tried (env : ServerEnv) (fields : List Field) (fs : FileSystem)
    (registered : List DomainData) (w : World) : Prop where
  between : (uploadPlacement env fields fs).Between w.fs
  recorded : w.registered = registered ∨ registered.length < w.registered.length

theorem Step.tried {fields : List Field} {u' : Upload}
    (hfree : (uploadPlacement env fields fs).Free)
    (htemp : ∃ p ∈ filesOf env fields, p.dropLast = env.resolve tempDir)
    (hstep : Step env w u w' u') (hfollows : Follows env fields u)
    (hwithin : Within env (tempLocations env fields) u) (h : Tried env fields fs registered w) :
    Tried env fields fs registered w' := by
  refine ⟨hstep.between hfree htemp hfollows hwithin h.between, ?_⟩
  rcases hstep.registered with hunchanged | ⟨_, _, _, _, happend⟩
  · rw [hunchanged]
    exact h.recorded
  · right
    rw [happend, List.length_append, List.length_singleton]
    rcases h.recorded with hsame | hmore
    · rw [hsame]
      exact Nat.lt_succ_self _
    · omega

theorem Attempt.tried (hfree : (uploadPlacement env (up.fields []) fs).Free)
    (hresolve : Proxy.ResolvesNames env.resolve) (hattempt : Attempt env up w w')
    (h : Tried env (up.fields []) fs registered w) :
    Tried env (up.fields []) fs registered w' := by
  obtain ⟨chunks, u, _, hrun⟩ := hattempt
  have hkeeps : ∀ b, Relation.ReflTransGen (Moves env) (w, Upload.start (up.fields chunks)) b →
      Follows env (up.fields chunks) b.2 ∧
        Within env (tempLocations env (up.fields chunks)) b.2 ∧
        Tried env (up.fields []) fs registered b.1 := by
    intro b hb
    induction hb with
    | refl => exact ⟨follows_start _ _, (serves_start env (up.fields chunks) w).within, h⟩
    | tail _ hstep ih =>
      obtain ⟨hfollows, hwithin, htried⟩ := ih
      exact ⟨Step.follows hstep hfollows, Step.within hstep hwithin,
        Step.tried hfree (exists_temp hresolve up []) hstep hfollows hwithin htried⟩
  exact (hkeeps _ hrun).2.2

end History

/-- After any attempts that were cut short anywhere, an attempt in which nothing fails is answered
    with success and ends as a single one would exactly if none of the attempts before it has
    registered the data. -/
theorem retry_answersOk_iff (env : ServerEnv) (hresolve : Proxy.ResolvesNames env.resolve)
    (up : UploadFile) (chunks₀ chunks : List Bytes) (hchunks₀ : chunks₀.flatten = up.content)
    (hchunks : chunks.flatten = up.content) (w₀ w : World)
    (hsingle : AnswersOk env w₀ (up.fields chunks₀))
    (hstored : UploadedOnce env up w₀ (handleUpload env w₀ (up.fields chunks₀)).1)
    (hhistory : Relation.ReflTransGen (Attempt env up) w₀ w) :
    (AnswersOk env w (up.fields chunks) ∧
        SameState (handleUpload env w (up.fields chunks)).1
          (handleUpload env w₀ (up.fields chunks₀)).1 ∧
        UploadedOnce env up w₀ (handleUpload env w (up.fields chunks)).1) ↔
      w.registered = w₀.registered := by
  have hfree₀ := free_of_answersOk hsingle
  have hfree : (uploadPlacement env (up.fields chunks) w₀.fs).Free := hfree₀
  have hserves₀ := handleUpload_serves env w₀ (up.fields chunks₀)
  obtain ⟨loc, hphase₀⟩ := hsingle
  have hloc : locate env (varsOf env (up.fields chunks)) = .ok loc :=
    hserves₀.follows.locate_of_answered hphase₀
  have hlogged₀ := hserves₀.logged
  simp only [Logged, hphase₀] at hlogged₀
  obtain ⟨id, hcreate₀⟩ := hlogged₀
  have htried : Tried env (up.fields []) w₀.fs w₀.registered w := by
    induction hhistory with
    | refl => exact ⟨Placement.between_start _, .inl rfl⟩
    | tail _ hattempt ih => exact hattempt.tried hfree hresolve ih
  have hserves := handleUpload_serves env w (up.fields chunks)
  have hlogged := hserves.logged
  constructor
  · rintro ⟨⟨loc', hphase⟩, _, ⟨r, hone⟩, _⟩
    rcases htried.recorded with hsame | hmore
    · exact hsame
    · -- Each attempt that is answered with success adds a record of its own.
      simp only [Logged, hphase] at hlogged
      obtain ⟨_, hcreate⟩ := hlogged
      obtain ⟨r', _, happend⟩ := DataMeshClient.createDomainData_ok hcreate
      have hlength := congrArg List.length (happend.symm.trans hone)
      simp only [List.length_append, List.length_singleton] at hlength
      omega
  · intro hsame
    have hanswers : AnswersOk env w (up.fields chunks) :=
      answersOk_of_between hfree (exists_temp hresolve up chunks) hloc (up.sentBody_fields chunks)
        (fine_fields hresolve hloc) (hsame ▸ hcreate₀) htried.between
    refine ⟨hanswers, ?_⟩
    -- Both attempts place the same content in the same files and register the same place.
    obtain ⟨loc', hphase⟩ := hanswers
    cases hloc.symm.trans (hserves.follows.locate_of_answered hphase)
    simp only [Logged, hphase, hsame, hcreate₀] at hlogged
    obtain ⟨_, heq⟩ := hlogged
    have hrecords := congrArg Prod.snd heq
    have hfiles := hserves.fileAt_eq (hchunks.trans hchunks₀.symm) hphase
      (handleUpload_between hfree hresolve htried.between) hserves₀ hphase₀
      (handleUpload_between hfree₀ hresolve (Placement.between_start _))
    obtain ⟨⟨r, hone⟩, p, hp, hcontent⟩ := hstored
    exact ⟨⟨hfiles, hrecords.symm⟩, ⟨r, hrecords.symm.trans hone⟩, p, hp,
      (hfiles p).trans hcontent⟩

/-! ## Two attempts -/

theorem moves_iterate (env : ServerEnv) (n : Nat) (a : World × Upload) :
    Relation.ReflTransGen (Moves env) a ((fun a => next env a.1 a.2)^[n] a) := by
  induction n generalizing a with
  | zero => exact .refl
  | succ n ih =>
    rw [Function.iterate_succ_apply]
    by_cases hfinished : a.2.phase.finished = true
    · rw [next_of_finished hfinished]
      exact ih a
    · exact .head (step_next (Bool.not_eq_true _ ▸ hfinished)) (ih _)

def sampleUpload : UploadFile :=
  ⟨str "/home/t", str "secret", sampleUri (str "a"), sampleJson⟩

/-- The first steps of an attempt that sends the file in one chunk. -/
def sampleAttempt (n : Nat) : World × Upload :=
  (fun a => next sampleEnv a.1 a.2)^[n]
    (emptyWorld, Upload.start (sampleUpload.fields [str "secret"]))

theorem sampleAttempt_attempt (n : Nat) :
    Attempt sampleEnv sampleUpload emptyWorld (sampleAttempt n).1 :=
  ⟨[str "secret"], (sampleAttempt n).2, by decide, moves_iterate sampleEnv n _⟩

theorem sample_uploadedOnce :
    UploadedOnce sampleEnv sampleUpload emptyWorld
      (handleUpload sampleEnv emptyWorld (sampleUpload.fields [str "secret"])).1 :=
  ⟨⟨(sampleLocated (str "t.encrypted") (str "a")).request.completed (str "a") (str "ds"),
      by decide⟩,
    [str "data", str "a"], by decide, by decide⟩

/-- The first attempt is cut after the copy, the second one sends other chunks. -/
theorem retry_answersOk_iff_cut :
    Attempt sampleEnv sampleUpload emptyWorld (sampleAttempt 8).1 ∧
      (sampleAttempt 8).2.phase = .registering (sampleLocated (str "t.encrypted") (str "a")) ∧
      AnswersOk sampleEnv (sampleAttempt 8).1 (sampleUpload.fields [str "sec", str "ret"]) ∧
      UploadedOnce sampleEnv sampleUpload emptyWorld
        (handleUpload sampleEnv (sampleAttempt 8).1
          (sampleUpload.fields [str "sec", str "ret"])).1 := by
  have hretry := (retry_answersOk_iff sampleEnv Proxy.resolvesNames_pathComponents sampleUpload
    [str "secret"] [str "sec", str "ret"] (by decide) (by decide) emptyWorld (sampleAttempt 8).1
    ⟨sampleLocated (str "t.encrypted") (str "a"), by decide⟩ sample_uploadedOnce
    (.single (sampleAttempt_attempt 8))).mpr (by decide)
  exact ⟨sampleAttempt_attempt 8, by decide, hretry.1, hretry.2.2⟩

/-- The first attempt stores the file, registers it and is answered with success, and the response
    is lost.  The second attempt is answered with an error. -/
theorem retry_refused :
    Attempt sampleEnv sampleUpload emptyWorld
        (handleUpload sampleEnv emptyWorld (sampleUpload.fields [str "secret"])).1 ∧
      (handleUpload sampleEnv emptyWorld (sampleUpload.fields [str "secret"])).2.phase =
        .answered (sampleLocated (str "t.encrypted") (str "a")) ∧
      UploadedOnce sampleEnv sampleUpload emptyWorld
        (handleUpload sampleEnv emptyWorld (sampleUpload.fields [str "secret"])).1 ∧
      (handleUpload sampleEnv
          (handleUpload sampleEnv emptyWorld (sampleUpload.fields [str "secret"])).1
          (sampleUpload.fields [str "secret"])).2.phase =
        .failed (.text (str "status code: 1, err msg: duplicate")) :=
  ⟨sampleAttempt_attempt _, by decide, sample_uploadedOnce, by decide⟩

end TrustFlow.Dm
