import TrustFlow.Dm.Confinement
import TrustFlow.Dm.ServeReq

/-! # The status of an upload

Whether the status of a response tells if the upload was done.  Two things stand between them.
A request without a multipart body is answered with 200, and what is copied to the destination
is what the temporary file has at that moment: others may have written to it, and a file that is
copied to itself is emptied.

`status_truthful_iff` reads the condition off the request and the files that others may write:
it holds for a request exactly if in every run for it the status is true. -/

namespace TrustFlow.Dm

open Proxy (Name)

/-- The file field was copied to the place that `store_path` names, and `create_domain_data`
    succeeded for the id that it names.  Of several fields of one name the last one counts. -/
def UploadDone (env : ServiceEnv) (q : HttpRequest) (log : List Event) : Prop :=
  ∃ fields loc content, env.tryFromRequest q = some fields ∧
    locate env.toServerEnv (varsOf env.toServerEnv fields) = .ok loc ∧
    .copied (env.resolve loc.tempPath) (env.resolve loc.destPath) content ∈ log ∧
    sentBody fields =
      some (copied (env.resolve loc.tempPath) (env.resolve loc.destPath) content) ∧
    .created loc.params.id ∈ log

/-- Others write only to the files `touched`.  Like the requests of the server, they remove
    nothing. -/
def Touching (touched : Set (Location Name)) : Interference := fun w _ w' =>
  w.fs.KindsKept w'.fs ∧ ∀ p ∉ touched, w'.fs.fileAt p = w.fs.fileAt p

/-- The tree has a file for everything that the request writes. -/
structure Room (env : ServerEnv) (fields : List Field) (fs : FileSystem) : Prop where
  temp : fs.node (env.resolve tempDir) = some .dir
  files : ∀ p ∈ filesOf env fields, ∃ content, fs.node p = some (.file content)

/-- The handler can come to store the file of the request: it gets past all fields, and one
    directory tree has room for the files that they name. -/
structure Completable (env : ServerEnv) (fields : List Field) (loc : Located) : Prop where
  storesAt : StoresAt env fields loc
  room : ∃ fs, Room env fields fs

/-- A request that can come to its end has a temporary file that others do not write to and that
    is not its destination.  Only an empty file may be copied to itself. -/
def CopiesOwnFile (env : ServerEnv) (touched : Set (Location Name)) (fields : List Field) : Prop :=
  ∀ loc, Completable env fields loc →
    if env.resolve loc.tempPath = env.resolve loc.destPath then sentBody fields = some []
    else env.resolve loc.tempPath ∉ touched

/-! ## The files of a request that was answered -/

/-- The temporary files of the request are there, apart from those that are still to come. -/
def LaidBut (env : ServerEnv) (fields : List Field) (w : World)
    (rest : List (Location Name)) : Prop :=
  ∀ p ∈ tempLocations env fields, p ∈ rest ∨
    w.fs.node (env.resolve tempDir) = some .dir ∧ ∃ content, w.fs.node p = some (.file content)

def Laid (env : ServerEnv) (fields : List Field) (w : World) (u : Upload) : Prop :=
  match u.phase with
  | .receiving todo => LaidBut env fields w (tempLocations env todo)
  | .opening filename chunks todo =>
    LaidBut env fields w (tempLocations env (.file filename chunks :: todo)) ∧
      w.fs.node (env.resolve tempDir) = some .dir
  | .writing _ _ _ todo => LaidBut env fields w (tempLocations env todo)
  | .storing _ => LaidBut env fields w []
  | .registering loc | .answered loc => LaidBut env fields w [] ∧
      ∃ content, w.fs.node (env.resolve loc.destPath) = some (.file content)
  | .failed _ => True

section Laid

variable {env : ServerEnv} {touched : Set (Location Name)} {fields todo : List Field}
  {w w' : World} {u u' : Upload} {log : List Event} {rest : List (Location Name)} {loc : Located}

theorem LaidBut.kept (h : LaidBut env fields w rest) (hkept : w.fs.KindsKept w'.fs) :
    LaidBut env fields w' rest := by
  intro p hp
  rcases h p hp with hrest | ⟨hdir, content, hfile⟩
  · exact .inl hrest
  · exact .inr ⟨hkept.dir hdir, hkept.file hfile⟩

theorem Laid.kept (h : Laid env fields w u) (hkept : w.fs.KindsKept w'.fs) :
    Laid env fields w' u := by
  obtain ⟨vars, phase⟩ := u
  cases phase with
  | receiving | writing | storing => exact LaidBut.kept h hkept
  | opening => exact ⟨h.1.kept hkept, hkept.dir h.2⟩
  | registering | answered =>
    obtain ⟨hlaid, content, hfile⟩ := h
    exact ⟨hlaid.kept hkept, hkept.file hfile⟩
  | failed => trivial

theorem tempLocations_accepted {field : Field} (h : field.accepted env = true) :
    tempLocations env (field :: todo) = tempLocations env todo := by
  cases field with
  | file => cases h
  | _ => rfl

theorem Step.laid (hstep : Step env w u w' u') (h : Laid env fields w u) :
    Laid env fields w' u' := by
  have hkept : w.fs.KindsKept w'.fs := hstep.on.kindsKept
  cases hstep with
  | read hphase haccepted =>
    simp only [Laid, hphase, tempLocations_accepted haccepted] at h
    exact h
  | makeTemp hphase hmake =>
    simp only [Laid, hphase] at h
    refine ⟨h.kept hkept, ?_⟩
    rw [FileTree.node_createDirectories hmake, if_pos List.prefix_rfl]
  | @openTemp filename chunks todo fs hphase hopen =>
    simp only [Laid, hphase] at h
    intro p hp
    -- The file that was just opened is the first of those that were still to come.
    rcases h.1.kept hkept p hp with hrest | hlaid
    · obtain rfl | htodo : p = env.resolve (tempPath filename) ∨ p ∈ tempLocations env todo :=
        List.mem_cons.mp hrest
      · refine .inr ⟨hkept.dir h.2, [], ?_⟩
        rw [FileTree.node_writeFile hopen, if_pos rfl]
      · exact .inl htodo
    · exact .inr hlaid
  | writeChunk hphase =>
    simp only [Laid, hphase] at h
    exact h.kept hkept
  | closeTemp hphase =>
    simp only [Laid, hphase] at h
    exact h
  | prepare hphase =>
    simp only [Laid, hphase] at h
    exact h.kept hkept
  | store hphase _ hwrite =>
    simp only [Laid, hphase] at h
    exact ⟨h.kept hkept, _, (FileTree.node_writeFile hwrite).trans (if_pos rfl)⟩
  | register hphase =>
    simp only [Laid, hphase] at h
    exact h
  | registerLost | fault => trivial

theorem Move.kindsKept (hmove : Move env w u w' u') : w.fs.KindsKept w'.fs := by
  cases hmove with
  | step hstep => exact hstep.on.kindsKept
  | create => exact .refl _

theorem Move.laid (hmove : Move env w u w' u') (h : Laid env fields w u) :
    Laid env fields w' u' := by
  cases hmove with
  | step hstep => exact hstep.laid h
  | @create loc hphase response _ =>
    simp only [Laid, hphase] at h
    obtain hok | ⟨e, herror⟩ := afterCreate_cases loc response
    · rw [hok]
      exact h
    · rw [herror]
      trivial

theorem Move.ahead (hmove : Move env w u w' u') (h : Ahead env fields u) :
    Ahead env fields u' := by
  cases hmove with
  | step hstep => exact hstep.ahead h
  | @create loc hphase response _ =>
    simp only [Ahead, hphase] at h
    obtain hok | ⟨e, herror⟩ := afterCreate_cases loc response
    · rw [hok]
      exact h
    · rw [herror]
      trivial

theorem Handling.laid (h : Handling env (Touching touched) fields w u log) :
    Laid env fields w u := by
  induction h with
  | start => exact fun p hp => .inl hp
  | own _ hmove ih => exact hmove.laid ih
  | others _ hothers ih => exact ih.kept hothers.1

theorem Handling.ahead {others : Interference} (h : Handling env others fields w u log) :
    Ahead env fields u := by
  induction h with
  | start => exact ⟨List.Subset.refl _, id⟩
  | own _ hmove ih => exact hmove.ahead ih
  | others _ _ ih => exact ih

theorem fileTempPath_mem {path : Bytes} {vars : Vars}
    (h : (todo.foldl (Vars.after env) vars).fileTempPath = some path) :
    vars.fileTempPath = some path ∨ env.resolve path ∈ tempLocations env todo := by
  induction todo generalizing vars with
  | nil => exact .inl h
  | cons field todo ih =>
    rcases ih h with hvars | hlater
    · by_cases haccepted : field.accepted env = true
      · rw [fileTempPath_after _ haccepted] at hvars
        exact .inl hvars
      · cases field with
        | file filename chunks =>
          cases filename with
          | none => exact .inl hvars
          | some filename =>
            obtain rfl := Option.some.inj hvars
            exact .inr (List.mem_cons_self ..)
        | storePath | other => exact absurd rfl haccepted
        | domainData json =>
          left
          rw [← hvars]
          simp only [Vars.after]
          split <;> rfl
    · exact .inr (tempLocations_tail hlater)

/-- A request that was answered could be. -/
theorem Handling.completable (h : Handling env (Touching touched) fields w u log)
    (hphase : u.phase = .answered loc) : Completable env fields loc := by
  have hahead := h.ahead
  have hlaid := h.laid
  have hloc := h.follows.locate_of_answered hphase
  simp only [Ahead, hphase] at hahead
  simp only [Laid, hphase] at hlaid
  obtain ⟨htemps, hdest⟩ := hlaid
  have hthere : ∀ p ∈ tempLocations env fields, w.fs.node (env.resolve tempDir) = some .dir ∧
      ∃ content, w.fs.node p = some (.file content) :=
    fun p hp => (htemps p hp).resolve_left List.not_mem_nil
  have hmem : env.resolve loc.tempPath ∈ tempLocations env fields :=
    (fileTempPath_mem (locate_spec hloc).1).resolve_left (by simp)
  -- The tree at the end of the run has room for the files: they are all in it.
  refine ⟨⟨hahead, hloc⟩, w.fs, (hthere _ hmem).1, ?_⟩
  intro p hp
  rw [filesOf, destination_of_ok hloc, Option.toList_some, List.mem_append,
    List.mem_singleton] at hp
  rcases hp with htemp | rfl
  · exact (hthere p htemp).2
  · exact hdest

end Laid

/-! ## A temporary file that is left alone -/

/-- A file is still to come, and what comes decides what the request sends. -/
def Pending (fields todo : List Field) : Prop :=
  todo.any (·.filename?.isSome) = true ∧ ∃ sent, todo.foldl bodyAfter sent = sentBody fields

/-- The temporary file has what the request has sent so far, or is replaced by a later one. -/
def Owned (env : ServerEnv) (fields : List Field) (w : World) (u : Upload) : Prop :=
  match u.phase with
  | .receiving todo | .writing _ _ _ todo => Pending fields todo ∨ Holds env fields w u
  | .opening _ _ _ | .storing _ => Holds env fields w u
  | _ => True

section Owned

variable {env : ServerEnv} {touched : Set (Location Name)} {fields todo : List Field}
  {w w' : World} {u u' : Upload} {log : List Event} {loc : Located}

theorem filename?_accepted {field : Field} (h : field.accepted env = true) :
    field.filename? = none := by
  cases field with
  | file => cases h
  | _ => rfl

theorem Step.owned (hstep : Step env w u w' u') (h : Owned env fields w u) :
    Owned env fields w' u' := by
  cases hstep with
  | read hphase haccepted =>
    simp only [Owned, hphase] at h
    rcases h with ⟨hlater, sent, hsent⟩ | hholds
    · rw [List.any_cons, filename?_accepted haccepted] at hlater
      rw [List.foldl_cons, bodyAfter_accepted _ haccepted] at hsent
      exact .inl ⟨hlater, sent, hsent⟩
    · exact .inr ((Step.read hphase haccepted).holds hholds)
  | @makeTemp filename chunks todo fs hphase hmake =>
    -- From here on the new file counts, whatever the one before it has.
    simp only [Owned, hphase] at h
    rcases h with ⟨-, sent, hsent⟩ | hholds
    · cases filename with
      | none => trivial
      | some filename => exact hsent
    · exact (Step.makeTemp hphase hmake).holds hholds
  | openTemp hphase hopen =>
    simp only [Owned, hphase] at h
    exact .inr ((Step.openTemp hphase hopen).holds h)
  | writeChunk hphase hcontent hwrite =>
    simp only [Owned, hphase] at h
    exact h.imp_right (Step.writeChunk hphase hcontent hwrite).holds
  | closeTemp hphase =>
    simp only [Owned, hphase] at h
    exact h.imp_right (Step.closeTemp hphase).holds
  | prepare hphase hloc hparent =>
    simp only [Owned, hphase] at h
    rcases h with ⟨hnone, -⟩ | hholds
    · cases hnone
    · exact (Step.prepare hphase hloc hparent).holds hholds
  | store | register | registerLost | fault => trivial

theorem Move.owned (hmove : Move env w u w' u') (h : Owned env fields w u) :
    Owned env fields w' u' := by
  cases hmove with
  | step hstep => exact hstep.owned h
  | @create loc hphase response _ =>
    obtain hok | ⟨e, herror⟩ := afterCreate_cases loc response
    · rw [hok]
      trivial
    · rw [herror]
      trivial

theorem fileTempPath_of_none_later (vars : Vars)
    (h : todo.any (·.filename?.isSome) = false) :
    (todo.foldl (Vars.after env) vars).fileTempPath = vars.fileTempPath := by
  induction todo generalizing vars with
  | nil => rfl
  | cons field todo ih =>
    rw [List.any_cons, Bool.or_eq_false_iff] at h
    rw [List.foldl_cons, ih _ h.2]
    cases field with
    | file filename chunks =>
      cases filename with
      | none => rfl
      | some filename => cases h.1
    | storePath | other => rfl
    | domainData json =>
      simp only [Vars.after]
      split <;> rfl

theorem Pending.or_of_holds {P : Prop} (hsent : ∃ sent, todo.foldl bodyAfter sent = sentBody fields)
    (h : todo.any (·.filename?.isSome) = false → P) : Pending fields todo ∨ P := by
  cases hlater : todo.any (·.filename?.isSome) with
  | true => exact .inl ⟨hlater, hsent⟩
  | false => exact .inr (h hlater)

/-- Others that do not write to the last temporary file of the request. -/
theorem Owned.frame (h : Owned env fields w u) (hfollows : Follows env fields u)
    (hloc : locate env (varsOf env fields) = .ok loc)
    (hsame : w'.fs.fileAt (env.resolve loc.tempPath) = w.fs.fileAt (env.resolve loc.tempPath)) :
    Owned env fields w' u := by
  have hlast := (locate_spec hloc).1
  obtain ⟨vars, phase⟩ := u
  -- If no file follows, the one that the upload relies on is the last one.
  cases phase with
  | receiving todo =>
    rcases h with hpending | hholds
    · exact .inl hpending
    · refine Pending.or_of_holds ⟨_, hholds⟩ fun hnone => hholds.frame ?_
      have hpath : vars.fileTempPath = some loc.tempPath := by
        rw [← hlast, ← show _ = varsOf env fields from hfollows,
          fileTempPath_of_none_later vars hnone]
      rintro p hp
      simp only [Upload.relies, hpath, Option.map_some, Option.mem_some_iff] at hp
      exact hp ▸ hsame
  | writing path mode chunks todo =>
    rcases h with hpending | hholds
    · exact .inl hpending
    · obtain ⟨_, _, _, hsent⟩ := id hholds
      refine Pending.or_of_holds ⟨_, hsent⟩ fun hnone => hholds.frame ?_
      have hpath : path = loc.tempPath := by
        rw [← show _ = varsOf env fields from hfollows, fileTempPath_of_none_later _ hnone] at hlast
        exact Option.some.inj hlast
      rintro p hp
      obtain rfl := Option.some.inj hp
      exact hpath ▸ hsame
  | opening filename chunks todo => exact Holds.frame h (by rintro p ⟨⟩)
  | storing loc' =>
    obtain rfl : loc = loc' := Except.ok.inj (hloc.symm.trans hfollows)
    have hholds : Holds env fields w ⟨vars, .storing loc⟩ := h
    refine hholds.frame ?_
    rintro p hp
    obtain rfl := Option.some.inj hp
    exact hsame
  | registering | answered | failed => trivial

theorem Handling.owned (h : Handling env (Touching touched) fields w u log)
    (hloc : locate env (varsOf env fields) = .ok loc)
    (hfree : env.resolve loc.tempPath ∉ touched) : Owned env fields w u := by
  induction h with
  | start => exact .inr holds_start
  | own _ hmove ih => exact hmove.owned ih
  | others hbefore hothers ih => exact ih.frame hbefore.follows hloc (hothers.2 _ hfree)

/-- What is copied then are the bytes of the request. -/
theorem Handling.copies_sent (h : Handling env (Touching touched) fields w u log)
    (hloc : locate env (varsOf env fields) = .ok loc)
    (hfree : env.resolve loc.tempPath ∉ touched) {temp dest : Location Name} {content : Bytes}
    (hcopied : .copied temp dest content ∈ log) : sentBody fields = some content := by
  induction h with
  | start => cases hcopied
  | others _ _ ih => exact ih hcopied
  | own hbefore hmove ih =>
    obtain hcopied | hcopied := List.mem_append.mp hcopied
    · exact ih hcopied
    · obtain ⟨loc, hphase, rfl, rfl, hcontent⟩ := hmove.copies hcopied
      have howned := hbefore.owned hloc hfree
      simp only [Owned, Holds, hphase] at howned
      exact howned.symm.trans hcontent

end Owned

/-! ## Runs to an answer -/

/-- A stage before the copy, in a world with room for what follows. -/
structure Stage (env : ServerEnv) (fields : List Field) (w : World) (u : Upload) : Prop where
  run : Handling env alone fields w u []
  room : Room env fields w.fs

section Runs

variable {env : ServerEnv} {others others' : Interference} {fields todo : List Field}
  {w w' : World} {u u' : Upload} {vars : Vars} {log : List Event} {loc : Located}

theorem Stage.step (h : Stage env fields w u) (hstep : Step env w u w' u')
    (hsilent : eventsOf env w u u' = []) : Stage env fields w' u' where
  run := by
    have hrun := h.run.own (.step hstep)
    rw [hsilent] at hrun
    exact hrun
  room := by
    have hkept : w.fs.KindsKept w'.fs := hstep.on.kindsKept
    refine ⟨hkept.dir h.room.temp, fun p hp => ?_⟩
    obtain ⟨content, hfile⟩ := h.room.files p hp
    exact hkept.file hfile

theorem Stage.written {path : Bytes} {mode : Mode} {chunks : List Bytes}
    (h : Stage env fields w ⟨vars, .writing path mode chunks todo⟩)
    (hpath : env.resolve path ∈ filesOf env fields) :
    ∃ w', Stage env fields w' ⟨{ vars with fileTempPath := some path }, .receiving todo⟩ := by
  induction chunks generalizing mode w with
  | nil => exact ⟨w, h.step (.closeTemp rfl) rfl⟩
  | cons chunk chunks ih =>
    obtain ⟨content, hfile⟩ := h.room.files _ hpath
    obtain ⟨fs, hwrite⟩ :=
      FileTree.exists_writeFile_of_file hfile (mode.write content chunk).1
    exact ih (h.step (.writeChunk rfl (FileTree.fileAt_eq_some.mpr hfile) hwrite) rfl)

theorem Stage.pass {field : Field} (h : Stage env fields w ⟨vars, .receiving (field :: todo)⟩)
    (hpasses : field.passes env = true)
    (htemps : tempLocations env (field :: todo) ⊆ filesOf env fields) :
    ∃ w', Stage env fields w' ⟨vars.after env field, .receiving todo⟩ := by
  cases field with
  | file filename chunks =>
    cases filename with
    | none => cases hpasses
    | some filename =>
      have hmem : env.resolve (tempPath filename) ∈ filesOf env fields :=
        htemps (List.mem_cons_self ..)
      obtain ⟨made, hmake⟩ := FileTree.exists_createDirectories_of_dir h.room.temp
      have hopening := h.step (.makeTemp rfl hmake) rfl
      obtain ⟨content, hfile⟩ := hopening.room.files _ hmem
      obtain ⟨opened, hopen⟩ := FileTree.exists_writeFile_of_file hfile []
      exact (hopening.step (.openTemp rfl hopen) rfl).written hmem
  | _ => exact ⟨w, h.step (.read rfl hpasses) rfl⟩

theorem Stage.received (h : Stage env fields w ⟨vars, .receiving todo⟩)
    (hall : todo.all (Field.passes env) = true)
    (htemps : tempLocations env todo ⊆ filesOf env fields) :
    ∃ w', Stage env fields w' ⟨todo.foldl (Vars.after env) vars, .receiving []⟩ := by
  induction todo generalizing vars w with
  | nil => exact ⟨w, h⟩
  | cons field todo ih =>
    rw [List.all_cons, Bool.and_eq_true] at hall
    obtain ⟨w', hnext⟩ := h.pass hall.1 htemps
    exact ih hnext hall.2 (List.Subset.trans tempLocations_tail htemps)

/-- A request that can come to store its file does, if nobody else does anything. -/
theorem Completable.stage (h : Completable env fields loc) :
    ∃ w, Stage env fields w ⟨varsOf env fields, .storing loc⟩ := by
  obtain ⟨⟨hpasses, hloc⟩, fs, hroom⟩ := h
  have hstart : Stage env fields ⟨fs, []⟩ (Upload.start fields) := ⟨.start _, hroom⟩
  obtain ⟨w, hreceived⟩ := hstart.received hpasses (List.subset_append_left _ _)
  obtain ⟨content, hfile⟩ := hreceived.room.files (env.resolve loc.destPath)
    (by simp [filesOf, destination_of_ok hloc])
  exact ⟨_, hreceived.step (.prepare rfl hloc (FileTree.ensureParent_of_file hfile)) rfl⟩

theorem Handling.mono (h : Handling env others fields w u log)
    (hmono : ∀ w u w', others w u w' → others' w u w') :
    Handling env others' fields w u log := by
  induction h with
  | start => exact .start _
  | own _ hmove ih => exact ih.own hmove
  | others _ hothers ih => exact ih.others (hmono _ _ _ hothers)

/-- Once the file is stored the mesh may accept the record. -/
theorem Handling.answered {content content' : Bytes}
    (h : Handling env others fields w ⟨vars, .storing loc⟩ [])
    (htemp : w.fs.fileAt (env.resolve loc.tempPath) = some content)
    (hdest : w.fs.node (env.resolve loc.destPath) = some (.file content')) :
    ∃ w', Handling env others fields w' ⟨vars, .answered loc⟩
      [.copied (env.resolve loc.tempPath) (env.resolve loc.destPath) content,
        .created loc.params.id] := by
  obtain ⟨fs, hwrite⟩ := FileTree.exists_writeFile_of_file hdest
    (copied (env.resolve loc.tempPath) (env.resolve loc.destPath) content)
  have hstored := h.own (.step (.store rfl htemp hwrite))
  simp only [eventsOf, Upload.goto, htemp, Option.getD_some, List.nil_append] at hstored
  exact ⟨_, hstored.own (.create rfl ⟨some ⟨0, []⟩, some []⟩ [])⟩

end Runs

/-! ## The truth of the status -/

section Truth

variable {env : ServiceEnv} {touched : Set (Location Name)} {q : HttpRequest}
  {fields : List Field} {w : World} {u : Upload} {log : List Event} {loc : Located}
  {response : HttpResponse} {content : Bytes}

/-- With one copy in the log, an upload was done exactly if the bytes were those of the request. -/
theorem uploadDone_iff (hmultipart : env.tryFromRequest q = some fields)
    (hloc : locate env.toServerEnv (varsOf env.toServerEnv fields) = .ok loc) :
    UploadDone env q [.copied (env.resolve loc.tempPath) (env.resolve loc.destPath) content,
        .created loc.params.id] ↔
      sentBody fields =
        some (copied (env.resolve loc.tempPath) (env.resolve loc.destPath) content) := by
  constructor
  · rintro ⟨fields', loc', content', hfields, hloc', hcopied, hsent, -⟩
    obtain rfl := Option.some.inj (hmultipart.symm.trans hfields)
    simp only [List.mem_cons, Event.copied.injEq, reduceCtorEq, List.not_mem_nil, or_false]
      at hcopied
    rw [hsent, hcopied.1, hcopied.2.1, hcopied.2.2]
  · intro hsent
    exact ⟨fields, loc, content, hmultipart, hloc, by simp, hsent, by simp⟩

theorem CopiesOwnFile.status (h : CopiesOwnFile env.toServerEnv touched fields)
    (hmultipart : env.tryFromRequest q = some fields)
    (hrun : Handling env.toServerEnv (Touching touched) fields w u log)
    (hresponse : uploadResponse env u.phase = some response) :
    response.status = 200 ↔ UploadDone env q log := by
  have hrecorded := hrun.recorded
  cases hphase : u.phase with
  | answered loc =>
    simp only [Recorded, hphase] at hrecorded
    obtain ⟨content, rfl⟩ := hrecorded
    have hloc := hrun.follows.locate_of_answered hphase
    have hown := h loc (hrun.completable hphase)
    rw [hphase] at hresponse
    cases hresponse
    refine ⟨fun _ => (uploadDone_iff hmultipart hloc).mpr ?_, fun _ => rfl⟩
    rw [copied]
    split at hown
    next heq => rw [if_pos heq, hown]
    next hne => rw [if_neg hne, hrun.copies_sent hloc hown (List.mem_cons_self ..)]
  | failed e =>
    have hnot : ∀ id, .created id ∉ log := hrecorded.not_created (by simp [hphase])
    rw [hphase] at hresponse
    cases hresponse
    constructor
    · intro hstatus
      cases hstatus
    · rintro ⟨_, _, _, -, -, -, -, hcreated⟩
      exact absurd hcreated (hnot _)
  | _ =>
    rw [hphase] at hresponse
    cases hresponse

/-- A request that can come to its end can be answered with 200 for any content that the others
    may leave in its temporary file. -/
theorem Completable.serveReq (h : Completable env.toServerEnv fields loc)
    (hroute : route q = .upload) (hmultipart : env.tryFromRequest q = some fields) :
    (∃ content, ServeReq env (Touching touched) q ⟨200, str "successful request!"⟩
      [.copied (env.resolve loc.tempPath) (env.resolve loc.destPath) content,
        .created loc.params.id]) ∧
    (env.resolve loc.tempPath ∈ touched → ∀ content,
      ServeReq env (Touching touched) q ⟨200, str "successful request!"⟩
        [.copied (env.resolve loc.tempPath) (env.resolve loc.destPath) content,
          .created loc.params.id]) := by
  have hloc := h.storesAt.2
  obtain ⟨w, hrun, hroom⟩ := h.stage
  have hrun' : Handling env.toServerEnv (Touching touched) fields w _ [] :=
    hrun.mono (by rintro _ _ _ ⟨⟩)
  obtain ⟨old, htemp⟩ := hroom.files (env.resolve loc.tempPath)
    (List.mem_append_left _ ((fileTempPath_mem (locate_spec hloc).1).resolve_left (by simp)))
  obtain ⟨old', hdest⟩ := hroom.files (env.resolve loc.destPath)
    (by simp [filesOf, destination_of_ok hloc])
  constructor
  · obtain ⟨w', hanswered⟩ := hrun'.answered (FileTree.fileAt_eq_some.mpr htemp) hdest
    exact ⟨old, .upload hroute hmultipart hanswered rfl⟩
  · intro htouched content
    obtain ⟨fs, hwrite⟩ := FileTree.exists_writeFile_of_file htemp content
    have hothers : Touching touched w ⟨varsOf env.toServerEnv fields, .storing loc⟩
        { w with fs := fs } := by
      refine ⟨.writeFile hwrite, fun p hp => ?_⟩
      rw [FileTree.fileAt_writeFile hwrite, if_neg]
      rintro rfl
      exact hp htouched
    obtain ⟨old'', hdest'⟩ := FileTree.KindsKept.file hothers.1 hdest
    have hfile : fs.fileAt (env.resolve loc.tempPath) = some content := by
      rw [FileTree.fileAt_writeFile hwrite, if_pos rfl]
    obtain ⟨w', hanswered⟩ := (hrun'.others hothers).answered hfile hdest'
    exact .upload hroute hmultipart hanswered rfl

/-- The request has a multipart body, and the file that it comes to copy is its own, if and only
    if in every run the status is 200 exactly if the upload was done. -/
theorem status_truthful_iff (env : ServiceEnv) (touched : Set (Location Name)) (q : HttpRequest)
    (hroute : route q = .upload) :
    (∀ response log, ServeReq env (Touching touched) q response log →
        (response.status = 200 ↔ UploadDone env q log)) ↔
      ∃ fields, env.tryFromRequest q = some fields ∧
        CopiesOwnFile env.toServerEnv touched fields := by
  constructor
  · intro htruthful
    cases hmultipart : env.tryFromRequest q with
    | none =>
      -- The response says 200, and nothing was done.
      obtain ⟨fields, _, _, hfields, -⟩ :=
        (htruthful _ _ (.notMultipart hroute hmultipart)).mp rfl
      rw [hmultipart] at hfields
      cases hfields
    | some fields =>
      refine ⟨fields, rfl, fun loc hcompletable => ?_⟩
      have hloc := hcompletable.storesAt.2
      obtain ⟨⟨content, hserve⟩, hany⟩ := hcompletable.serveReq hroute hmultipart
      have hsent := (uploadDone_iff hmultipart hloc).mp ((htruthful _ _ hserve).mp rfl)
      split
      next heq => rw [hsent, copied, if_pos heq]
      next hne =>
        -- Others that may write to the file replace its content by a longer one.
        intro htouched
        have hother := (uploadDone_iff hmultipart hloc).mp
          ((htruthful _ _ (hany htouched (content ++ [0]))).mp rfl)
        rw [hsent, copied, copied, if_neg hne, if_neg hne] at hother
        simpa using Option.some.inj hother
  · rintro ⟨fields, hmultipart, hown⟩ response log hserve
    obtain ⟨fields', w, u, hfields, hrun, hresponse⟩ | ⟨hnone, -⟩ := hserve.of_upload hroute
    · obtain rfl := Option.some.inj (hmultipart.symm.trans hfields)
      exact hown.status hmultipart hrun hresponse
    · rw [hmultipart] at hnone
      cases hnone

end Truth

/-! ## Two uploads and a request that is none -/

def formPart (disposition content : Bytes) : Bytes :=
  str "--b\r\nContent-Disposition: form-data; " ++ disposition ++ str "\r\n\r\n" ++ content ++
    str "\r\n"

/-- The multipart body of an upload of the bytes `secret` under the name `f`. -/
def formBody (storePath : Bytes) : Bytes :=
  formPart (str "name=\"file\"; filename=\"f\"\r\nContent-Type: application/octet-stream")
      (str "secret") ++
    formPart (str "name=\"store_path\"") storePath ++
    formPart (str "name=\"domain_data\"") sampleJson ++ str "--b--\r\n"

def postUpload (contentType body : Bytes) : HttpRequest :=
  ⟨.post, str "/upload", [(str "content-type", contentType)], body⟩

def samplePost (name : Bytes) : HttpRequest :=
  postUpload (str "multipart/form-data; boundary=b") (formBody (sampleUri name))

/-- The content type decides whether a request is an upload.  Of the uploads, the service knows
    the one to the place `a` and the one to the temporary file of the upload. -/
def sampleService : ServiceEnv where
  toServerEnv := sampleEnv
  queryDomainData _ := ⟨some ⟨1, str "not found"⟩, none⟩
  urlPath text := text
  parseRequestParams := plainParams
  parseInputQuery := plainInputQuery
  tryFromRequest q :=
    [str "a", str "/temp/f"].findSome? fun name =>
      if q = samplePost name then some (sampleFields (str "f") [str "sec", str "ret"] name)
      else none
  libraryText _ := str "library error"
  domainDataJson data := data.name

theorem samplePost_ne {name name' : Bytes} (h : name.length ≠ name'.length) :
    samplePost name ≠ samplePost name' := by
  intro heq
  have hlength := congrArg (fun q : HttpRequest => q.body.length) heq
  simp only [samplePost, postUpload, formBody, formPart, sampleUri, List.length_append] at hlength
  omega

theorem tryFromRequest_samplePost {name : Bytes} (h : name = str "a" ∨ name = str "/temp/f") :
    sampleService.tryFromRequest (samplePost name) =
      some (sampleFields (str "f") [str "sec", str "ret"] name) := by
  rcases h with rfl | rfl
  · simp [sampleService]
  · have hne : samplePost (str "/temp/f") ≠ samplePost (str "a") := samplePost_ne (by decide)
    simp [sampleService, hne]

theorem tryFromRequest_json :
    sampleService.tryFromRequest (postUpload (str "application/json") sampleJson) = none := by
  have hne : str "application/json" ≠ str "multipart/form-data; boundary=b" := by decide
  simp [sampleService, samplePost, postUpload, hne]

/-- The handler alone, with its log. -/
def nextLogged (env : ServerEnv) (a : (World × Upload) × List Event) :
    (World × Upload) × List Event :=
  let b := next env a.1.1 a.1.2
  (b, a.2 ++ eventsOf env a.1.1 a.1.2 b.2)

theorem handling_nextLogged (env : ServerEnv) (others : Interference) (fields : List Field)
    (w : World) (n : Nat) :
    let a := (nextLogged env)^[n] ((w, Upload.start fields), [])
    Handling env others fields a.1.1 a.1.2 a.2 := by
  induction n with
  | zero => exact .start w
  | succ n ih =>
    rw [Function.iterate_succ_apply']
    set a := (nextLogged env)^[n] ((w, Upload.start fields), []) with ha
    by_cases hfinished : a.1.2.phase.finished = true
    · -- A finished upload stays as it is and does nothing.
      have hevents : eventsOf env a.1.1 a.1.2 a.1.2 = [] := by
        rw [eventsOf]
        cases hphase : a.1.2.phase <;> simp_all [Phase.finished]
      simp only [nextLogged, next_of_finished hfinished, hevents, List.append_nil]
      exact ih
    · exact ih.own (.step (step_next (Bool.not_eq_true _ ▸ hfinished)))

def sampleServed (name : Bytes) : (World × Upload) × List Event :=
  (nextLogged sampleEnv)^[10]
    ((emptyWorld, Upload.start (sampleFields (str "f") [str "sec", str "ret"] name)), [])

theorem serveReq_sampleServed (others : Interference) {name : Bytes}
    (hname : name = str "a" ∨ name = str "/temp/f")
    (hanswered : (sampleServed name).1.2.phase = .answered (sampleLocated (str "f") name)) :
    ServeReq sampleService others (samplePost name) ⟨200, str "successful request!"⟩
      (sampleServed name).2 := by
  have hrun : Handling sampleEnv others (sampleFields (str "f") [str "sec", str "ret"] name)
      (sampleServed name).1.1 (sampleServed name).1.2 (sampleServed name).2 :=
    handling_nextLogged sampleEnv others _ emptyWorld 10
  refine .upload rfl (tryFromRequest_samplePost hname) hrun ?_
  rw [hanswered]
  rfl

/-- The destination of the upload and the temporary file of another one. -/
def otherFiles : Set (Location Name) := {[str "data", str "a"], [str "temp", str "g"]}

/-- While others write to another temporary file and to the destination, the status of an upload
    is true in every run, and there is one in which it is done. -/
theorem status_truthful_sample :
    (∀ response log, ServeReq sampleService (Touching otherFiles) (samplePost (str "a"))
        response log →
      (response.status = 200 ↔ UploadDone sampleService (samplePost (str "a")) log)) ∧
    ∃ log, ServeReq sampleService (Touching otherFiles) (samplePost (str "a"))
        ⟨200, str "successful request!"⟩ log ∧
      UploadDone sampleService (samplePost (str "a")) log := by
  have hown : CopiesOwnFile sampleEnv otherFiles
      (sampleFields (str "f") [str "sec", str "ret"] (str "a")) := by
    intro loc hcompletable
    obtain rfl : sampleLocated (str "f") (str "a") = loc := Except.ok.inj
      ((by decide : locate sampleEnv (varsOf sampleEnv
        (sampleFields (str "f") [str "sec", str "ret"] (str "a"))) =
          .ok (sampleLocated (str "f") (str "a"))).symm.trans hcompletable.storesAt.2)
    rw [if_neg (by decide)]
    simp only [otherFiles, Set.mem_insert_iff, Set.mem_singleton_iff]
    decide
  have htruthful := (status_truthful_iff sampleService otherFiles (samplePost (str "a")) rfl).mpr
    ⟨_, tryFromRequest_samplePost (.inl rfl), hown⟩
  have hserve := serveReq_sampleServed (Touching otherFiles) (.inl rfl)
    (by decide : (sampleServed (str "a")).1.2.phase = .answered (sampleLocated (str "f") (str "a")))
  exact ⟨htruthful, _, hserve, (htruthful _ _ hserve).mp rfl⟩

/-- A request without a multipart body is answered with 200 though nothing was done, and so is an
    upload to its own temporary file, which loses its content. -/
theorem status_untrue :
    (ServeReq sampleService alone (postUpload (str "application/json") sampleJson)
        ⟨200, str "expecting multipart/form-data"⟩ [] ∧
      ¬ UploadDone sampleService (postUpload (str "application/json") sampleJson) []) ∧
    ∃ log, ServeReq sampleService alone (samplePost (str "/temp/f"))
        ⟨200, str "successful request!"⟩ log ∧
      ¬ UploadDone sampleService (samplePost (str "/temp/f")) log := by
  constructor
  · refine ⟨.notMultipart rfl tryFromRequest_json, ?_⟩
    rintro ⟨_, _, _, -, -, hcopied, -, -⟩
    cases hcopied
  · refine ⟨_, serveReq_sampleServed alone (.inr rfl) (by decide), ?_⟩
    have hlog : (sampleServed (str "/temp/f")).2 =
        [.copied [str "temp", str "f"] [str "temp", str "f"] (str "secret"),
          .created (str "/temp/f")] := by
      decide
    rintro ⟨fields, loc, content, hfields, -, hcopied, hsent, -⟩
    obtain rfl := Option.some.inj ((tryFromRequest_samplePost (.inr rfl)).symm.trans hfields)
    simp only [hlog, List.mem_cons, Event.copied.injEq, reduceCtorEq, List.not_mem_nil, or_false]
      at hcopied
    rw [hcopied.1, hcopied.2.1, hcopied.2.2] at hsent
    exact absurd hsent (by decide)

end TrustFlow.Dm
