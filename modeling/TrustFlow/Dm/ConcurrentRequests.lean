import TrustFlow.Dm.HandleUpload
import TrustFlow.Transitions

/-! # Uploads at the same time

The server handles its requests concurrently, and the name of the temporary file of
a request is the one that its client chose.  A request stores its own bytes as long
as no other request writes to the file that it relies on: first its temporary file,
then its destination. -/

namespace TrustFlow.Dm

open Proxy (Name)

/-! ## The bytes of a request -/

def bodyAfter (sent : Option Bytes) : Field → Option Bytes
  | .file (some _) chunks => some chunks.flatten
  | _ => sent

/-- The bytes of the file field; of several file fields the last one counts. -/
def sentBody (fields : List Field) : Option Bytes := fields.foldl bodyAfter none

/-- What the temporary file has now. -/
def staged (env : ServerEnv) (w : World) (vars : Vars) : Option Bytes :=
  vars.fileTempPath.bind fun path => w.fs.fileAt (env.resolve path)

/-- The files have what the request has sent so far. -/
def Holds (env : ServerEnv) (fields : List Field) (w : World) (u : Upload) : Prop :=
  match u.phase with
  | .receiving todo => todo.foldl bodyAfter (staged env w u.vars) = sentBody fields
  | .opening none _ _ => True
  | .opening (some _) chunks todo => todo.foldl bodyAfter (some chunks.flatten) = sentBody fields
  | .writing path mode chunks todo => ∃ content, w.fs.fileAt (env.resolve path) = some content ∧
      mode.AtEnd content ∧
      todo.foldl bodyAfter (some (content ++ chunks.flatten)) = sentBody fields
  | .storing loc => w.fs.fileAt (env.resolve loc.tempPath) = sentBody fields
  | .registering loc | .answered loc => ∃ body, sentBody fields = some body ∧
      w.fs.fileAt (env.resolve loc.destPath) =
        some (copied (env.resolve loc.tempPath) (env.resolve loc.destPath) body)
  | .failed _ => True

/-- The location whose content a request counts on. -/
def Upload.relies (env : ServerEnv) (u : Upload) : Option (Location Name) :=
  match u.phase with
  | .receiving _ => u.vars.fileTempPath.map env.resolve
  | .writing path _ _ _ => some (env.resolve path)
  | .storing loc => some (env.resolve loc.tempPath)
  | .registering loc | .answered loc => some (env.resolve loc.destPath)
  | .opening _ _ _ | .failed _ => none

/-- A file is not copied to itself. -/
def Upload.copiesApart (env : ServerEnv) (u : Upload) : Prop :=
  match u.phase with
  | .storing loc | .registering loc | .answered loc =>
    env.resolve loc.tempPath ≠ env.resolve loc.destPath
  | _ => True

section Holds

variable {env : ServerEnv} {fields : List Field} {w w' : World} {u u' : Upload}

theorem holds_start : Holds env fields w (Upload.start fields) := rfl

theorem fileTempPath_after {field : Field} (vars : Vars) (h : field.accepted env = true) :
    (vars.after env field).fileTempPath = vars.fileTempPath := by
  cases field with
  | storePath | other => rfl
  | file => cases h
  | domainData json =>
    simp only [Vars.after]
    split <;> rfl

theorem bodyAfter_accepted {field : Field} (sent : Option Bytes) (h : field.accepted env = true) :
    bodyAfter sent field = sent := by
  cases field with
  | storePath | other | domainData => rfl
  | file => cases h

theorem Step.holds (hstep : Step env w u w' u') (h : Holds env fields w u) :
    Holds env fields w' u' := by
  cases hstep with
  | read hphase haccepted =>
    simp only [Holds, hphase, List.foldl_cons, bodyAfter_accepted _ haccepted] at h
    simp only [Holds, staged, fileTempPath_after _ haccepted]
    exact h
  | @makeTemp filename _ _ _ hphase _ =>
    simp only [Holds, hphase, List.foldl_cons] at h
    cases filename with
    | none => trivial
    | some filename => exact h
  | openTemp hphase hopen =>
    simp only [Holds, hphase] at h
    refine ⟨[], ?_, openMode_atEnd _ _, h⟩
    rw [FileTree.fileAt_writeFile hopen, if_pos rfl]
  | @writeChunk _ _ chunk chunks todo content _ hphase hcontent hwrite =>
    simp only [Holds, hphase] at h
    obtain ⟨content', hcontent', hend, hsent⟩ := h
    obtain rfl : content = content' := Option.some.inj (hcontent.symm.trans hcontent')
    obtain ⟨hwritten, hend'⟩ := Mode.write_atEnd hend chunk
    refine ⟨content ++ chunk, ?_, hend', ?_⟩
    · rw [FileTree.fileAt_writeFile hwrite, if_pos rfl, hwritten]
    · rw [List.append_assoc]
      exact hsent
  | closeTemp hphase =>
    simp only [Holds, hphase, List.flatten_nil, List.append_nil] at h
    obtain ⟨content, hcontent, _, hsent⟩ := h
    simp only [Holds, staged, Option.bind_some, hcontent]
    exact hsent
  | prepare hphase hloc hparent =>
    simp only [Holds, hphase, List.foldl_nil, staged, (locate_spec hloc).1, Option.bind_some] at h
    simp only [Holds, Upload.goto, FileTree.fileAt_ensureParent hparent]
    exact h
  | store hphase hcontent hwrite =>
    simp only [Holds, hphase] at h
    refine ⟨_, h.symm.trans hcontent, ?_⟩
    rw [FileTree.fileAt_writeFile hwrite, if_pos rfl]
  | register hphase _ =>
    simp only [Holds, hphase] at h
    exact h
  | registerLost | fault => trivial

/-- Only a request that is about to copy can come to copy a file to itself. -/
theorem Step.copiesApart (hstep : Step env w u w' u') (h : u.copiesApart env)
    (hstoring : ∀ loc, u'.phase ≠ .storing loc) : u'.copiesApart env := by
  cases hstep with
  | prepare => exact absurd rfl (hstoring _)
  | store hphase | register hphase =>
    simp only [Upload.copiesApart, hphase] at h
    exact h
  | _ => trivial

/-- A step of another request that leaves the file alone. -/
theorem Holds.frame (h : Holds env fields w u)
    (hsame : ∀ p ∈ u.relies env, w'.fs.fileAt p = w.fs.fileAt p) : Holds env fields w' u := by
  obtain ⟨vars, phase⟩ := u
  cases phase with
  | receiving todo =>
    have hstaged : staged env w' vars = staged env w vars := by
      cases hpath : vars.fileTempPath with
      | none => simp only [staged, hpath, Option.bind_none]
      | some path =>
        simp only [staged, hpath, Option.bind_some]
        exact hsame _ (by simp [Upload.relies, hpath])
    simp only [Holds, hstaged]
    exact h
  | opening filename _ _ => cases filename <;> exact h
  | writing path _ _ _ =>
    simp only [Holds, hsame (env.resolve path) rfl]
    exact h
  | storing loc =>
    simp only [Holds, hsame (env.resolve loc.tempPath) rfl]
    exact h
  | registering loc | answered loc =>
    simp only [Holds, hsame (env.resolve loc.destPath) rfl]
    exact h
  | failed _ => trivial

end Holds

/-! ## All requests -/

/-- The requests that a server handles at the same time. -/
def server (env : ServerEnv) (κ : Type) : Parties κ World Upload where
  step _ := Step env

def started {κ : Type} (w : World) (requests : κ → List Field) : Parties.Config κ World Upload :=
  ⟨w, fun k => Upload.start (requests k)⟩

/-- The step of request `k` writes to no file that another request relies on, and does not copy
    a file to itself. -/
def Undisturbed {κ : Type} (env : ServerEnv) (c : Parties.Config κ World Upload) (k : κ) : Prop :=
  (∀ j, j ≠ k → ∀ p ∈ (c.own j).relies env, (c.own k).effect env ≠ .writes p) ∧
    (c.own k).copiesApart env

/-- What is asked of a request that is answered with success: the destination that its fields
    name has the bytes of its file field. -/
def StoresOwnFile (env : ServerEnv) (fields : List Field) (w : World) (u : Upload) : Prop :=
  ∀ loc, u.phase = .answered loc → locate env (varsOf env fields) = .ok loc ∧
    ∃ body, sentBody fields = some body ∧ w.fs.fileAt (env.resolve loc.destPath) = some body

section All

variable {κ : Type} [DecidableEq κ] {env : ServerEnv} {requests : κ → List Field}
  {c : Parties.Config κ World Upload} {w : World}

theorem follows_of_reaches {allowed : Parties.Config κ World Upload → κ → Prop}
    (h : (server env κ).Reaches allowed (started w requests) c) :
    ∀ k, Follows env (requests k) (c.own k) := by
  refine h.invariant_own (fun k u => Follows env (requests k) u) ?_ fun k =>
    follows_start env (requests k)
  intro c k w' u' _ hk hstep
  exact Step.follows hstep hk

theorem holds_of_reaches (h : (server env κ).Reaches (Undisturbed env) (started w requests) c) :
    ∀ k, Holds env (requests k) c.shared (c.own k) := by
  refine h.invariant (fun k w u => Holds env (requests k) w u) ?_ ?_ fun k => holds_start
  · intro c k w' u' _ hk hstep
    exact Step.holds hstep hk
  · intro c k j w' u' hallowed hj hinv hstep
    exact hinv.frame fun p hp => (Step.on hstep).fileAt (hallowed.1 j hj p hp)

theorem copiesApart_of_reaches
    (h : (server env κ).Reaches (Undisturbed env) (started w requests) c) :
    ∀ k, (∀ loc, (c.own k).phase ≠ .storing loc) → (c.own k).copiesApart env := by
  refine h.invariant_own (fun _ u => (∀ loc, u.phase ≠ .storing loc) → u.copiesApart env) ?_
    fun k _ => trivial
  intro c k w' u' hallowed _ hstep
  exact Step.copiesApart hstep hallowed.2

end All

/-! ## Requests with different files -/

def tempLocations (env : ServerEnv) (fields : List Field) : List (Location Name) :=
  fields.filterMap fun
    | .file (some filename) _ => some (env.resolve (tempPath filename))
    | _ => none

def destination (env : ServerEnv) (fields : List Field) : Option (Location Name) :=
  match locate env (varsOf env fields) with
  | .ok loc => some (env.resolve loc.destPath)
  | .error _ => none

def filesOf (env : ServerEnv) (fields : List Field) : List (Location Name) :=
  tempLocations env fields ++ (destination env fields).toList

/-- No file of one request is a file of another, and no destination is a temporary file. -/
structure FilesApart {κ : Type} (env : ServerEnv) (requests : κ → List Field) : Prop where
  others : ∀ j k, j ≠ k → ∀ p ∈ filesOf env (requests j), p ∉ filesOf env (requests k)
  own : ∀ k, ∀ p ∈ destination env (requests k), p ∉ tempLocations env (requests k)

/-- The temporary files that an upload uses from here on are among the given ones. -/
def Within (env : ServerEnv) (temps : List (Location Name)) (u : Upload) : Prop :=
  match u.phase with
  | .receiving todo => (∀ path ∈ u.vars.fileTempPath, env.resolve path ∈ temps) ∧
      tempLocations env todo ⊆ temps
  | .opening filename chunks todo => tempLocations env (.file filename chunks :: todo) ⊆ temps
  | .writing path _ _ todo => env.resolve path ∈ temps ∧ tempLocations env todo ⊆ temps
  | .storing loc | .registering loc | .answered loc => env.resolve loc.tempPath ∈ temps
  | .failed _ => True

section Within

variable {env : ServerEnv} {fields : List Field} {w w' : World} {u u' : Upload}
  {temps : List (Location Name)} {p : Location Name}

theorem tempLocations_tail {field : Field} {todo : List Field} :
    tempLocations env todo ⊆ tempLocations env (field :: todo) :=
  (List.sublist_cons_self field todo).filterMap _ |>.subset

theorem Step.within (hstep : Step env w u w' u') (h : Within env temps u) :
    Within env temps u' := by
  cases hstep with
  | read hphase haccepted =>
    simp only [Within, hphase] at h
    simp only [Within, fileTempPath_after _ haccepted]
    exact ⟨h.1, List.Subset.trans tempLocations_tail h.2⟩
  | makeTemp hphase _ =>
    simp only [Within, hphase] at h
    exact h.2
  | openTemp hphase _ =>
    simp only [Within, hphase] at h
    exact ⟨h (by simp [tempLocations]), List.Subset.trans tempLocations_tail h⟩
  | writeChunk hphase _ _ =>
    simp only [Within, hphase] at h
    exact h
  | closeTemp hphase =>
    simp only [Within, hphase] at h
    refine ⟨fun path hpath => ?_, h.2⟩
    obtain rfl := Option.some.inj hpath
    exact h.1
  | prepare hphase hloc _ =>
    simp only [Within, hphase] at h
    exact h.1 _ (locate_spec hloc).1
  | store hphase | register hphase =>
    simp only [Within, hphase] at h
    exact h
  | registerLost | fault => trivial

theorem destination_of_ok {loc : Located} (h : locate env (varsOf env fields) = .ok loc) :
    destination env fields = some (env.resolve loc.destPath) := by
  simp only [destination, h]

theorem relies_mem (hfollows : Follows env fields u)
    (h : Within env (tempLocations env fields) u) (hp : p ∈ u.relies env) :
    p ∈ filesOf env fields := by
  obtain ⟨vars, phase⟩ := u
  simp only [filesOf, List.mem_append, Option.mem_toList]
  cases phase with
  | receiving todo =>
    obtain ⟨path, hpath, rfl⟩ := Option.map_eq_some_iff.mp hp
    exact .inl (h.1 path hpath)
  | writing path _ _ _ =>
    cases hp
    exact .inl h.1
  | storing loc =>
    cases hp
    exact .inl h
  | registering loc | answered loc =>
    cases hp
    exact .inr (destination_of_ok hfollows)
  | opening | failed => cases hp

theorem writes_mem (hfollows : Follows env fields u)
    (h : Within env (tempLocations env fields) u) (hp : u.effect env = .writes p) :
    p ∈ filesOf env fields := by
  unfold Upload.effect at hp
  simp only [filesOf, List.mem_append, Option.mem_toList]
  split at hp
  next => cases hp
  next => split at hp <;> cases hp
  next hphase =>
    cases hp
    simp only [Within, hphase] at h
    exact .inl (h (by simp [tempLocations]))
  next hphase =>
    cases hp
    simp only [Within, hphase] at h
    exact .inl h.1
  next hphase =>
    cases hp
    simp only [Follows, hphase] at hfollows
    exact .inr (destination_of_ok hfollows)
  next => cases hp

/-- Requests with different files do not disturb each other. -/
theorem FilesApart.undisturbed {κ : Type} [DecidableEq κ] {requests : κ → List Field}
    (h : FilesApart env requests) {allowed : Parties.Config κ World Upload → κ → Prop}
    {c : Parties.Config κ World Upload}
    (hrun : (server env κ).Reaches allowed (started w requests) c) (k : κ) :
    Undisturbed env c k := by
  have hfollows := follows_of_reaches hrun
  have hwithin : ∀ j, Within env (tempLocations env (requests j)) (c.own j) := by
    refine hrun.invariant_own (fun j u => Within env (tempLocations env (requests j)) u) ?_
      fun j => ⟨by simp [Upload.start, started], List.Subset.refl _⟩
    intro c k w' u' _ hk hstep
    exact Step.within hstep hk
  constructor
  · intro j hj p hp heffect
    exact h.others j k hj p (relies_mem (hfollows j) (hwithin j) hp)
      (writes_mem (hfollows k) (hwithin k) heffect)
  · have hk := hwithin k
    have hfollows := hfollows k
    cases hphase : (c.own k).phase with
    | storing loc | registering loc | answered loc =>
      simp only [Within, hphase] at hk
      simp only [Follows, hphase] at hfollows
      simp only [Upload.copiesApart, hphase]
      intro heq
      exact h.own k _ (destination_of_ok hfollows) (heq ▸ hk)
    | _ => simp only [Upload.copiesApart, hphase]

end Within

/-- In every interleaving of requests in which each step is undisturbed, every request that is
    answered with success has stored its own file at its own destination. -/
theorem interleaving_stores_own_file {κ : Type} [DecidableEq κ] (env : ServerEnv)
    (requests : κ → List Field) (w : World) (c : Parties.Config κ World Upload)
    (h : (server env κ).Reaches (Undisturbed env) (started w requests) c) :
    ∀ k, StoresOwnFile env (requests k) c.shared (c.own k) := by
  intro k loc hphase
  have hloc := (follows_of_reaches h k).locate_of_answered hphase
  have hholds := holds_of_reaches h k
  have hapart := copiesApart_of_reaches h k (by simp [hphase])
  simp only [Holds, hphase] at hholds
  simp only [Upload.copiesApart, hphase] at hapart
  obtain ⟨body, hbody, hstored⟩ := hholds
  rw [copied, if_neg hapart] at hstored
  exact ⟨hloc, body, hbody, hstored⟩

/-! ## Two requests -/

def sampleDomainData : DomainData :=
  ⟨str "alice-table", str "alice", str "table", [], [], [], none, [], [], .csv, []⟩

/-- The same record as the uploader writes it. -/
def sampleJson : Bytes :=
  str "\x7b\n  \"domaindata_id\": \"alice-table\",\n  \"name\": \"alice\",\n" ++
    str "  \"type\": \"table\",\n  \"file_format\": \"CSV\"\n\x7d"

/-- How the URL libraries take a URI apart, for URIs without escapes and fragments. -/
def plainUrl (text : Bytes) : Url where
  scheme := text.takeWhile (· ≠ 58)
  query := if 63 ∈ text then some ((text.dropWhile (· ≠ 63)).drop 1) else none

/-- The pairs of such a query that have a value. -/
def plainPairs (query : Bytes) : List (Bytes × Bytes) :=
  ((query.splitOn 38).map fun pair =>
    (pair.takeWhile (· ≠ 61), (pair.dropWhile (· ≠ 61)).drop 1)).filter fun kv => kv.2 ≠ []

def plainOutputQuery (query : Bytes) : Option DmOutputUriQueryParams := do
  let datasourceId ← (plainPairs query).lookup (str "datasource_id")
  let id ← (plainPairs query).lookup (str "id")
  let uri ← (plainPairs query).lookup (str "uri")
  return ⟨datasourceId, id, uri⟩

/-- An output URI for a file in the data source `ds`, under its own name as the id. -/
def sampleUri (name : Bytes) : Bytes :=
  str "dm://output/?datasource_id=ds&id=" ++ name ++ str "&uri=" ++ name

/-- A server with one data source. -/
def sampleEnv : ServerEnv where
  mesh := .keeping (fun _ => ⟨some ⟨0, []⟩, some ⟨some ⟨some ⟨str "/data"⟩⟩⟩⟩) (str "ds")
  resolve := Proxy.pathComponents
  parseUrl text := some (plainUrl text)
  parseQuery := plainOutputQuery
  parseDomainData json := if json = sampleJson then some sampleDomainData else none

/-- The fields of an upload in the order in which the uploader sends them. -/
def sampleFields (filename : Name) (chunks : List Bytes) (name : Bytes) : List Field :=
  [.file (some filename) chunks, .storePath (sampleUri name), .domainData sampleJson]

def sampleLocated (filename : Name) (name : Bytes) : Located :=
  ⟨⟨str "ds", name, name⟩, tempPath filename, Proxy.pathAppend (str "/data") name,
    sampleDomainData⟩

def sampleRequests (filename filename' : Name) : Bool → List Field
  | true => sampleFields filename [str "al", str "ice"] (str "a")
  | false => sampleFields filename' [str "bob"] (str "b")

def emptyWorld : World := ⟨.empty, []⟩

theorem reaches_next {κ : Type} [DecidableEq κ] {env : ServerEnv} (turns : List κ)
    (c : Parties.Config κ World Upload) :
    (server env κ).Reaches (fun _ _ => True) c (c.run (next env) turns) := by
  refine .run (fun k w u => ?_) turns c
  by_cases h : u.phase.finished = true
  · exact .inr (next_of_finished h)
  · exact .inl (step_next (Bool.not_eq_true _ ▸ h))

/-- Both requests at once, one step each in turn. -/
def sampleAfter (filename filename' : Name) : Parties.Config Bool World Upload :=
  (started emptyWorld (sampleRequests filename filename')).run (next sampleEnv)
    (List.replicate 11 [true, false]).flatten

theorem interleaving_stores_own_file_alternating :
    ∃ c, (server sampleEnv Bool).Reaches (Undisturbed sampleEnv)
        (started emptyWorld (sampleRequests (str "f") (str "g"))) c ∧
      (c.own true).phase = .answered (sampleLocated (str "f") (str "a")) ∧
      (c.own false).phase = .answered (sampleLocated (str "g") (str "b")) ∧
      ∀ k, StoresOwnFile sampleEnv (sampleRequests (str "f") (str "g") k) c.shared (c.own k) := by
  have hapart : FilesApart sampleEnv (sampleRequests (str "f") (str "g")) :=
    ⟨by decide, by decide⟩
  have hrun : (server sampleEnv Bool).Reaches (Undisturbed sampleEnv)
      (started emptyWorld (sampleRequests (str "f") (str "g"))) (sampleAfter (str "f") (str "g")) :=
    (reaches_next _ _).strengthen fun hbefore _ => hapart.undisturbed hbefore _
  refine ⟨_, hrun, by decide, by decide, ?_⟩
  exact interleaving_stores_own_file sampleEnv _ _ _ hrun

/-- Two requests with different destinations whose files have the same name.  Both are answered
    with success, and each has stored a mixture of the two files. -/
theorem interleaving_mixes_files :
    destination sampleEnv (sampleRequests (str "f") (str "f") true) ≠
        destination sampleEnv (sampleRequests (str "f") (str "f") false) ∧
      ∃ c, (server sampleEnv Bool).Reaches (fun _ _ => True)
          (started emptyWorld (sampleRequests (str "f") (str "f"))) c ∧
        ∀ k, ¬ StoresOwnFile sampleEnv (sampleRequests (str "f") (str "f") k) c.shared
          (c.own k) := by
  refine ⟨by decide, sampleAfter (str "f") (str "f"), reaches_next _ _, ?_⟩
  have hmixed : ∀ k, ((sampleAfter (str "f") (str "f")).own k).phase =
        .answered (sampleLocated (str "f") (if k then str "a" else str "b")) ∧
      (sampleAfter (str "f") (str "f")).shared.fs.fileAt
        [str "data", if k then str "a" else str "b"] = some (str "bobice") ∧
      sentBody (sampleRequests (str "f") (str "f") k) ≠ some (str "bobice") := by
    decide
  intro k h
  obtain ⟨hphase, hfile, hsent⟩ := hmixed k
  obtain ⟨_, body, hbody, hstored⟩ := h _ hphase
  apply hsent
  rw [hbody, ← hstored, ← hfile]
  cases k
  · decide
  · decide

end TrustFlow.Dm
