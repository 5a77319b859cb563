import TrustFlow.FreeGround
import TrustFlow.Proxy.DirectoryCrypto
import TrustFlow.Proxy.LinkedDirectory

/-! # Where the outputs of a directory go

`EncryptToDir` and `DecryptToDir` place the file for an entry by where the entry really is,
relative to where the source really is.  The path climbs when a link leads out of the source, so
what a call creates lies below `dest_path` as long as no entry leads out that it makes a file of. -/

namespace TrustFlow.Proxy

/-- Every file that was created lies below the destination after normalisation. -/
def DirConfined (destPath : Bytes) (s : DirState) : Prop :=
  ∀ out ∈ s.created, (pathParts destPath).normal.Contains (out.dest destPath).normal

/-- The regular files that a call makes something of: `EncryptFile` refuses an empty file, and a
    name may be that of a directory without its extension. -/
def DirCall.Produces (q : DirCall) (entry : Entry) (p : Location Name) (c : FileContent) : Prop :=
  if q.encrypts then c.bytes ≠ []
  else extension (entry.name q.srcPath) = kEncSuffix → isDots (stem (p.getLastD [])) = false

/-- If the entry leads to a regular file that the call makes something of, then to a place below
    the one that the source leads to. -/
def StaysBelow (q : DirCall) (t : LinkedFs) (entry : Entry) : Prop :=
  ∀ base p c, q.env.find t q.srcPath = .ok base → q.env.find t (entry.path q.srcPath) = .ok p →
    t.node p = some (.file c) → q.Produces entry p c → base <+: p

/-- The entries that the next step can be about: the one at which the loop is, and those of the
    tasks. -/
def DirState.due (s : DirState) : List Entry := s.todo.head?.toList ++ s.tasks.map (·.entry)

/-- A step from a state in which these entries stay below the source. -/
def BelowStep (q : DirCall) (s s' : DirState) : Prop :=
  (∀ entry ∈ s.due, StaysBelow q s.tree entry) ∧ DirStep q s s'

/-! ## What a step does -/

/-- The relative path of an entry that the loop takes for a regular file. -/
structure Placed (q : DirCall) (t : LinkedFs) (entry : Entry) (rel : PathParts Name) : Prop where
  regular : isRegularFile q.env t (entry.path q.srcPath) = .ok true
  relative : relativePathOf q.env t q.srcPath entry = .ok rel

/-- How a task changes the name of its file. -/
def DirCall.rename (q : DirCall) : Name → Name := if q.encrypts then (· ++ kEncSuffix) else stem

/-- What a task is started for. -/
def Planned (q : DirCall) (t : LinkedFs) (out : Output) : Prop :=
  ∃ rel, Placed q t out.entry rel ∧ out.placement = mapFilename q.rename rel ∧
    (q.encrypts = false → extension (out.entry.name q.srcPath) = kEncSuffix)

def CopiedTo (rel : PathParts Name) (out : Output) : Prop :=
  out.placement = rel ∨ ∃ n, out.placement = rel.append ⟨false, [.name n]⟩

def Copied (q : DirCall) (t : LinkedFs) (entry : Entry) (out : Output) : Prop :=
  ∃ rel, Placed q t entry rel ∧ CopiedTo rel out ∧ q.encrypts = false ∧
    extension (entry.name q.srcPath) ≠ kEncSuffix

/-- The operating system lets a file be written for the output. -/
def Writable (q : DirCall) (out : Output) : Prop :=
  ∃ (t t' : LinkedFs) (content : FileContent),
    t.writeTo q.env.maxLinks q.env.cwd (out.dest q.destPath) content = some t'

/-- The tree grows, and every new output has the property. -/
structure Extends (P : Output → Prop) (s s' : DirState) : Prop where
  grows : s.tree.Grows s'.tree
  todo : s'.todo = s.todo
  tasks : s'.tasks = s.tasks
  created : ∀ out ∈ s'.created, out ∈ s.created ∨ P out

section Effects

variable {q : DirCall} {s s' s'' : DirState} {out : Output} {P P' : Output → Prop}

theorem Extends.refl (P : Output → Prop) (s : DirState) : Extends P s s :=
  ⟨.refl _, rfl, rfl, fun _ => .inl⟩

theorem Extends.after_tree {t : LinkedFs} (h : s.tree.Grows t)
    (h' : Extends P { s with tree := t } s') : Extends P s s' :=
  ⟨h.trans h'.grows, h'.todo, h'.tasks, h'.created⟩

theorem Extends.mono (h : Extends P s s') (himp : ∀ out, P out → P' out) : Extends P' s s' :=
  ⟨h.grows, h.todo, h.tasks, fun out hout => (h.created out hout).imp_right (himp out)⟩

theorem extends_write {content : FileContent} (h : s.write q out content = some s') :
    Extends (fun o => o = out ∧ Writable q o) s s' := by
  unfold DirState.write at h
  split at h
  next => cases h
  next t hwrite =>
    cases h
    refine ⟨.writeTo hwrite, rfl, rfl, fun o ho => ?_⟩
    rcases List.mem_append.mp ho with ho | ho
    · exact .inl ho
    · obtain rfl := List.mem_singleton.mp ho
      exact .inr ⟨rfl, _, _, _, hwrite⟩

theorem extends_store {output : Option Bytes} {result result' : Except Exn Unit}
    (h : s.store q out output result = (result', s')) :
    Extends (fun o => o = out ∧ Writable q o) s s' := by
  unfold DirState.store at h
  split at h
  next =>
    cases h
    exact .refl _ s
  next =>
    split at h
    next =>
      split at h
      next hwrite =>
        cases h
        exact extends_write hwrite
      next =>
        cases h
        exact .refl _ s
    next =>
      cases h
      exact .refl _ s

/-- A task that opens its output has got past its first checks. -/
theorem output_cipher {ivs : Nat → Blob kIvBytes} {input bytes : Bytes}
    (h : (FileM.finalState ((q.cipher ivs out).run (FileM.start input))).output = some bytes) :
    out.entry.path q.srcPath ≠ out.destText q.destPath ∧ (q.encrypts = true → input ≠ []) := by
  unfold DirCall.cipher at h
  split at h
  next =>
    rw [encryptFile, FileM.finalState_enforce_bind] at h
    split at h
    next hpath =>
      refine ⟨hpath, fun _ hempty => ?_⟩
      rw [FileM.bind_of_ok (FileM.run_getLength _), FileM.finalState_enforce_bind, if_neg] at h
      · cases h
      · simp [FileM.start, hempty, packetCntOf]
    next => cases h
  next hdecrypts =>
    rw [decryptFile, FileM.finalState_enforce_bind] at h
    split at h
    next hpath => exact ⟨hpath, fun hencrypts => absurd hencrypts hdecrypts⟩
    next => cases h

theorem extends_runTask {ivs : Nat → Blob kIvBytes} {result : Except Exn Unit}
    (h : s.runTask q ivs out = (result, s')) :
    Extends (fun o => o = out ∧ Writable q o ∧ s.OpensOutput q o) s s' := by
  unfold DirState.runTask at h
  split at h
  next =>
    cases h
    exact .refl _ s
  next p hfind =>
    split at h
    next =>
      cases h
      exact .refl _ s
    next c hfile =>
      have hstored : ∀ {result' : Except Exn Unit} {output : Option Bytes},
          (FileM.finalState ((q.cipher ivs out).run (FileM.start c.bytes))).output = output →
          s.store q out output result' = (result, s') →
          Extends (fun o => o = out ∧ Writable q o ∧ s.OpensOutput q o) s s' := by
        intro result' output houtput hstore
        cases output with
        | none =>
          cases hstore
          exact .refl _ s
        | some bytes =>
          obtain ⟨hpath, hinput⟩ := output_cipher houtput
          refine (extends_store hstore).mono ?_
          rintro o ⟨rfl, hwritable⟩
          exact ⟨rfl, hwritable, hpath, p, c, hfind, hfile, hinput⟩
      split at h
      next hrun => exact hstored (by rw [hrun]; rfl) h
      next hrun => exact hstored (by rw [hrun]; rfl) h

theorem copiedTo_of_copyPlacement {t : LinkedFs} {entry : Entry} {rel placement : PathParts Name}
    (h : copyPlacement q t entry rel = .ok placement) : CopiedTo rel ⟨entry, placement⟩ := by
  simp only [copyPlacement, bind_eq_ok] at h
  obtain ⟨node, _, h⟩ := h
  split at h
  next =>
    cases h
    exact .inr ⟨_, rfl⟩
  next =>
    cases h
    exact .inl rfl

theorem extends_copy {entry : Entry} {rel : PathParts Name} {result : Except Exn Unit}
    (h : s.copy q entry rel = (result, s')) :
    Extends (fun o => Writable q o ∧ CopiedTo rel o) s s' := by
  unfold DirState.copy at h
  split at h
  next =>
    cases h
    exact .refl _ s
  next =>
    cases h
    exact .refl _ s
  next placement p hplacement _ =>
    split at h
    next =>
      cases h
      exact .refl _ s
    next =>
      split at h
      next =>
        cases h
        exact .refl _ s
      next =>
        split at h
        next =>
          cases h
          exact .refl _ s
        next hwrite =>
          cases h
          refine (extends_write hwrite).mono ?_
          rintro o ⟨rfl, hwritable⟩
          exact ⟨hwritable, copiedTo_of_copyPlacement hplacement⟩

theorem grows_makeParentDir (env : LinkedEnv) (t : LinkedFs) (dest : PathParts Name) :
    t.Grows (makeParentDir env t dest).2 := by
  unfold makeParentDir
  split
  next => exact .refl t
  next => exact .refl t
  next =>
    have hgrows := LinkedTree.Grows.createDirectories t env.maxLinks env.cwd (parentPath dest)
    split
    next heq => rwa [heq] at hgrows
    next heq => rwa [heq] at hgrows

theorem fileAt_makeParentDir (env : LinkedEnv) (t : LinkedFs) (dest : PathParts Name)
    (p : Location Name) : (makeParentDir env t dest).2.fileAt p = t.fileAt p := by
  unfold makeParentDir
  split
  next => rfl
  next => rfl
  next =>
    have hfiles : (t.createDirectories env.maxLinks env.cwd (parentPath dest)).2.fileAt p =
        t.fileAt p := by
      unfold LinkedTree.createDirectories
      split
      · rfl
      · exact LinkedTree.fileAt_createElems ..
    split
    next heq => rwa [heq] at hfiles
    next heq => rwa [heq] at hfiles

/-- Starting a task only makes directories. -/
structure Started (q : DirCall) (entry : Entry) (out : Output) (s s' : DirState) : Prop where
  entry : out.entry = entry
  planned : Planned q s.tree out
  fileAt : ∀ p, s'.tree.fileAt p = s.tree.fileAt p

theorem visit_spec {entry : Entry} {result : Except Exn (Option Output)}
    (h : s.visit q entry = (result, s')) :
    Extends (fun o => Writable q o ∧ Copied q s.tree entry o) s s' ∧
      ∀ o, result = .ok (some o) → Started q entry o s s' := by
  unfold DirState.visit at h
  split at h
  next =>
    cases h
    exact ⟨.refl _ s, fun o ho => absurd ho (by simp)⟩
  next =>
    cases h
    exact ⟨.refl _ s, fun o ho => absurd ho (by simp)⟩
  next hregular =>
    split at h
    next =>
      cases h
      exact ⟨.refl _ s, fun o ho => absurd ho (by simp)⟩
    next rel hrel =>
      have hplaced : Placed q s.tree entry rel := ⟨hregular, hrel⟩
      have hgrows := grows_makeParentDir q.env s.tree ((pathParts q.destPath).append rel)
      have hfiles := fileAt_makeParentDir q.env s.tree ((pathParts q.destPath).append rel)
      split at h
      next hmake =>
        rw [hmake] at hgrows
        cases h
        exact ⟨.after_tree hgrows (.refl _ _), fun o ho => absurd ho (by simp)⟩
      next hmake =>
        rw [hmake] at hgrows hfiles
        split at h
        next hencrypts =>
          cases h
          refine ⟨.after_tree hgrows (.refl _ _), fun o ho => ?_⟩
          cases ho
          refine ⟨rfl, ⟨rel, hplaced, ?_, fun hdecrypts => ?_⟩, hfiles⟩
          · rw [DirCall.rename, if_pos hencrypts]
          · rw [hencrypts] at hdecrypts
            cases hdecrypts
        next hdecrypts =>
          split at h
          next hext =>
            cases h
            refine ⟨.after_tree hgrows (.refl _ _), fun o ho => ?_⟩
            cases ho
            refine ⟨rfl, ⟨rel, hplaced, ?_, fun _ => hext⟩, hfiles⟩
            rw [DirCall.rename, if_neg hdecrypts]
          next hext =>
            have hcopies : ∀ {r s'}, DirState.copy _ q entry rel = (r, s') →
                Extends (fun o => Writable q o ∧ Copied q s.tree entry o) s s' := fun hcopy =>
              .after_tree hgrows ((extends_copy hcopy).mono fun o ho =>
                ⟨ho.1, rel, hplaced, ho.2, Bool.eq_false_iff.mpr hdecrypts, hext⟩)
            split at h
            next hcopy =>
              cases h
              exact ⟨hcopies hcopy, fun o ho => absurd ho (by simp)⟩
            next hcopy =>
              cases h
              exact ⟨hcopies hcopy, fun o ho => absurd ho (by simp)⟩

/-- Outputs come from entries: those of tasks when they are started, those of copies at once. -/
structure DirEffect (q : DirCall) (s s' : DirState) : Prop where
  grows : s.tree.Grows s'.tree
  tasks : ∀ out ∈ s'.tasks, out ∈ s.tasks ∨ Planned q s.tree out
  created : ∀ out ∈ s'.created, out ∈ s.created ∨ Writable q out ∧
    (out ∈ s.tasks ∧ s.OpensOutput q out ∨
      ∃ entry, s.todo.head? = some entry ∧ Copied q s.tree entry out)

theorem dirEffect_visited {entry : Entry} {todo : List Entry}
    {result : Except Exn (Option Output)} (htodo : s.todo = entry :: todo)
    (h : s.visit q entry = (result, s')) : DirEffect q s (s'.visited todo result) := by
  obtain ⟨hextends, hstarted⟩ := visit_spec h
  have hcreated : ∀ out ∈ s'.created, out ∈ s.created ∨ Writable q out ∧
      (out ∈ s.tasks ∧ s.OpensOutput q out ∨
        ∃ entry, s.todo.head? = some entry ∧ Copied q s.tree entry out) :=
    fun out hout => (hextends.created out hout).imp_right
      fun hcopied => ⟨hcopied.1, .inr ⟨entry, by rw [htodo]; rfl, hcopied.2⟩⟩
  have hkept : ∀ out ∈ s'.tasks, out ∈ s.tasks ∨ Planned q s.tree out := by
    intro out hout
    rw [hextends.tasks] at hout
    exact .inl hout
  cases result with
  | error e => exact ⟨hextends.grows, hkept, hcreated⟩
  | ok started =>
    cases started with
    | none => exact ⟨hextends.grows, hkept, hcreated⟩
    | some out =>
      refine ⟨hextends.grows, fun o ho => ?_, hcreated⟩
      rcases List.mem_append.mp ho with ho | ho
      · exact hkept o ho
      · obtain rfl := List.mem_singleton.mp ho
        exact .inr (hstarted o rfl).planned

theorem dirEffect_finished {before after : List Output} {result : Except Exn Unit}
    (htasks : s.tasks = before ++ out :: after)
    (h : Extends (fun o => o = out ∧ Writable q o ∧ s.OpensOutput q o) s s') :
    DirEffect q s (s'.finished (before ++ after) result) := by
  have hcreated : ∀ o ∈ s'.created, o ∈ s.created ∨ Writable q o ∧
      (o ∈ s.tasks ∧ s.OpensOutput q o ∨
        ∃ entry, s.todo.head? = some entry ∧ Copied q s.tree entry o) := by
    intro o ho
    refine (h.created o ho).imp_right ?_
    rintro ⟨rfl, hwritable, hopens⟩
    exact ⟨hwritable, .inl ⟨by simp [htasks], hopens⟩⟩
  have hrest : ∀ o ∈ before ++ after, o ∈ s.tasks ∨ Planned q s.tree o := by
    intro o ho
    refine .inl ?_
    rw [htasks]
    exact (List.mem_append.mp ho).elim (List.mem_append_left _)
      fun hafter => List.mem_append_right _ (List.mem_cons_of_mem _ hafter)
  cases result with
  | error e => exact ⟨h.grows, hrest, hcreated⟩
  | ok _ => exact ⟨h.grows, hrest, hcreated⟩

theorem DirStep.effect (h : DirStep q s s') : DirEffect q s s' := by
  cases h with
  | visit htodo hvisit => exact dirEffect_visited htodo hvisit
  | task ivs htasks hrun => exact dirEffect_finished htasks (extends_runTask hrun)
  | taskFault e htasks hwrite =>
    rcases hwrite with rfl | ⟨hopens, content, hwrite⟩
    · exact dirEffect_finished htasks (.refl _ _)
    · refine dirEffect_finished htasks ((extends_write hwrite).mono ?_)
      rintro o ⟨rfl, hwritable⟩
      exact ⟨rfl, hwritable, hopens⟩

end Effects

/-! ## Relative paths -/

section Relative

variable {q : DirCall} {t t' : LinkedFs} {entry : Entry} {rel : PathParts Name} {out : Output}

theorem Placed.not_absolute (h : Placed q t entry rel) : rel.absolute = false := by
  have hrel := h.relative
  cases entry with
  | source =>
    cases hrel
    rfl
  | under names =>
    simp only [relativePathOf, Proxy.relative, bind_eq_ok] at hrel
    obtain ⟨p, _, base, _, hrel⟩ := hrel
    cases hrel
    exact PathParts.lexicallyRelative_not_absolute p base

theorem exists_file_of_isRegularFile {env : LinkedEnv} {path : Bytes}
    (h : isRegularFile env t path = .ok true) :
    ∃ p c, env.find t path = .ok p ∧ t.node p = some (.file c) := by
  simp only [isRegularFile, bind_eq_ok] at h
  obtain ⟨node, hstatus, h⟩ := h
  split at h
  next c =>
    unfold LinkedEnv.status LinkedTree.status at hstatus
    cases hfind : t.find env.maxLinks env.cwd (pathParts path) with
    | ok p =>
      simp only [hfind, Except.ok.injEq] at hstatus
      exact ⟨p, c, hfind, hstatus⟩
    | error e => cases e <;> simp [hfind] at hstatus
  next => cases h

/-- A path whose file name is that of the parent directory is not the path of a file. -/
theorem filename_ne_dotdot {env : LinkedEnv} {path : Bytes}
    (h : isRegularFile env t path = .ok true) : filename path ≠ str ".." := by
  intro hname
  obtain ⟨p, c, hfind, hnode⟩ := exists_file_of_isRegularFile h
  have hparent : pathElem (str "..") = .dotdot := by decide
  have hlast := @getLast?_pathParts path (by rw [hname]; decide)
  rw [hname, hparent, List.getLast?_eq_some_iff] at hlast
  obtain ⟨front, helems⟩ := hlast
  simp only [LinkedEnv.find, LinkedTree.find] at hfind
  split at hfind
  next => cases hfind
  next =>
    rw [helems] at hfind
    have hdir := LinkedTree.node_of_walk (by simp) hfind
    rw [hnode] at hdir
    cases hdir

theorem isRegularFile_of_find {env : LinkedEnv} {path : Bytes} {p : Location Name}
    {c : FileContent} (hfind : env.find t path = .ok p) (hnode : t.node p = some (.file c)) :
    isRegularFile env t path = .ok true := by
  have hstatus : env.status t (pathParts path) = .ok (some (.file c)) := by
    have hfind : t.find env.maxLinks env.cwd (pathParts path) = .ok p := hfind
    simp [LinkedEnv.status, LinkedTree.status, hfind, hnode]
  simp only [isRegularFile, hstatus, ok_bind]
  rfl

theorem relativePathOf_under {names : Location Name} {base p : Location Name}
    (hbase : q.env.find t q.srcPath = .ok base)
    (hp : q.env.find t (Entry.path q.srcPath (.under names)) = .ok p) :
    relativePathOf q.env t q.srcPath (.under names) =
      .ok ((⟨true, p.map .name⟩ : PathParts Name).lexicallyRelative ⟨true, base.map .name⟩) := by
  simp only [relativePathOf, Proxy.relative, weaklyCanonical, hbase, hp, ok_bind]
  rfl

theorem Placed.exists_base (h : Placed q t entry rel) :
    ∃ base, q.env.find t q.srcPath = .ok base := by
  cases entry with
  | source =>
    obtain ⟨p, _, hfind, _⟩ := exists_file_of_isRegularFile h.regular
    exact ⟨p, hfind⟩
  | under names =>
    have hrel := h.relative
    simp only [relativePathOf, Proxy.relative, weaklyCanonical, bind_eq_ok] at hrel
    obtain ⟨_, _, _, hbase, _⟩ := hrel
    split at hbase
    next base hfindBase => exact ⟨base, hfindBase⟩
    next => cases hbase

/-- The tree can grow between a visit and the task that it has started. -/
theorem Placed.mono (h : Placed q t entry rel) (hgrows : t.Grows t') : Placed q t' entry rel := by
  obtain ⟨p, c, hfind, hnode⟩ := exists_file_of_isRegularFile h.regular
  obtain ⟨c', hnode'⟩ := hgrows.kept.file hnode
  refine ⟨isRegularFile_of_find (hgrows.find hfind) hnode', ?_⟩
  have hrel := h.relative
  cases entry with
  | source => exact hrel
  | under names =>
    obtain ⟨base, hbase⟩ := h.exists_base
    rw [relativePathOf_under hbase hfind] at hrel
    rwa [relativePathOf_under (hgrows.find hbase) (hgrows.find hfind)]

/-- Some levels up, and down by names to a last element. -/
def climbing (k : Nat) (names : List Name) (e : PathElem Name) : PathParts Name :=
  ⟨false, List.replicate (k + 1) .dotdot ++ (names.map .name ++ [e])⟩

/-- The way to a regular file that is not below the source. -/
def LeadsOut (q : DirCall) (t : LinkedFs) (entry : Entry) (rel : PathParts Name) : Prop :=
  ∃ base p c, q.env.find t q.srcPath = .ok base ∧
    q.env.find t (entry.path q.srcPath) = .ok p ∧ t.node p = some (.file c) ∧ ¬ base <+: p ∧
    ∃ k names n, n = p.getLastD [] ∧ names ++ [n] ⊆ p ∧ rel = climbing k names (.name n)

theorem lexicallyRelative_leadsOut {base p : Location Name} {c : FileContent}
    (hbase : q.env.find t q.srcPath = .ok base) (hnode : t.node p = some (.file c))
    (hout : ¬ base <+: p) :
    ∃ k names n, n = p.getLastD [] ∧ names ++ [n] ⊆ p ∧
      (⟨true, p.map .name⟩ : PathParts Name).lexicallyRelative ⟨true, base.map .name⟩ =
        climbing k names (.name n) := by
  -- A file is not above the source either.
  have habove : ¬ p <+: base := fun habove =>
    hout (LinkedTree.eq_of_file_above hbase hnode habove ▸ List.prefix_rfl)
  obtain ⟨front, x, a, y, b, hne, rfl, rfl⟩ := PathParts.exists_apart hout habove
  obtain ⟨names, n, hnames⟩ := (List.eq_nil_or_concat' (x :: a)).resolve_left (by simp)
  refine ⟨b.length, names, n, ?_, ?_, ?_⟩
  · rw [hnames, ← List.append_assoc]
    simp
  · rw [← hnames]
    exact List.subset_append_right front (x :: a)
  · rw [PathParts.lexicallyRelative_of_apart hne, hnames, climbing, List.map_append]
    rfl

/-- The relative path of an entry climbs only if the entry leads out of the source. -/
theorem Placed.noClimb_or_leadsOut (h : Placed q t entry rel) :
    .dotdot ∉ rel.elems ∨ LeadsOut q t entry rel := by
  have hrel := h.relative
  obtain ⟨p, c, hfind, hnode⟩ := exists_file_of_isRegularFile h.regular
  cases entry with
  | source =>
    cases hrel
    have hname := filename_ne_dotdot h.regular
    simp only [Entry.path] at hname
    left
    by_cases hdot : filename q.srcPath = str "."
    · simp [pathElem, hdot]
    · simp [pathElem, hdot, hname]
  | under names =>
    obtain ⟨base, hbase⟩ := h.exists_base
    rw [relativePathOf_under hbase hfind] at hrel
    cases hrel
    by_cases hbelow : base <+: p
    · obtain ⟨rest, rfl⟩ := hbelow
      exact .inl (PathParts.lexicallyRelative_noClimb base rest)
    · exact .inr ⟨base, p, c, hbase, hfind, hnode, hbelow,
        lexicallyRelative_leadsOut hbase hnode hbelow⟩

theorem mem_dropLast_mapFilename {f : Name → Name} {e : PathElem Name}
    (h : e ∈ (mapFilename f rel).elems.dropLast) : e ∈ rel.elems := by
  simp only [mapFilename] at h
  cases hlast : rel.elems.getLast? with
  | none =>
    rw [hlast] at h
    simp only [Option.map_none, Option.toList_none, List.append_nil] at h
    exact List.mem_of_mem_dropLast (List.mem_of_mem_dropLast h)
  | some last =>
    rw [hlast] at h
    simp only [Option.map_some, Option.toList_some, List.dropLast_concat] at h
    exact List.mem_of_mem_dropLast h

theorem not_absolute_of_copiedTo (hrel : rel.absolute = false) (h : CopiedTo rel out) :
    out.placement.absolute = false := by
  rcases h with h | ⟨n, h⟩
  · rw [h, hrel]
  · rw [h]
    exact hrel

theorem noClimb_of_copiedTo (hrel : .dotdot ∉ rel.elems) (h : CopiedTo rel out) :
    .dotdot ∉ out.placement.elems := by
  rcases h with h | ⟨n, h⟩
  · rwa [h]
  · rw [h]
    obtain ⟨tail, htail, _⟩ := PathParts.dropSlash_append rel.elems
    have hdrop : .dotdot ∉ PathParts.dropSlash rel.elems := fun hmem =>
      hrel (htail ▸ List.mem_append_left _ hmem)
    simpa [PathParts.append] using hdrop

theorem mapFilename_climbing (f : Name → Name) (k : Nat) (names : List Name) (n : Name) :
    mapFilename f (climbing k names (.name n)) = climbing k names (pathElem (f n)) := by
  simp only [mapFilename, climbing, ← List.append_assoc, List.dropLast_concat,
    List.getLast?_concat]
  rfl

/-- What can be written to ends in a name. -/
theorem Writable.exists_name {front : List (PathElem Name)} {e : PathElem Name}
    (h : Writable q out) (habsolute : out.placement.absolute = false)
    (helems : out.placement.elems = front ++ [e]) : ∃ n, e = .name n := by
  obtain ⟨t, t', content, hwrite⟩ := h
  have hdest : (out.dest q.destPath).elems =
      PathParts.dropSlash (pathParts q.destPath).elems ++ front ++ [e] := by
    simp [Output.dest, PathParts.append, habsolute, helems]
  obtain ⟨front', n, hname⟩ := LinkedTree.exists_name_of_writeTo hwrite (by simp [hdest])
  rw [hdest] at hname
  exact ⟨n, by simpa using (List.append_inj' hname rfl).2⟩

/-- Only what comes before the name of a file can climb. -/
theorem Writable.noClimb (h : Writable q out) (habsolute : out.placement.absolute = false)
    (hfront : .dotdot ∉ out.placement.elems.dropLast) : .dotdot ∉ out.placement.elems := by
  rcases List.eq_nil_or_concat' out.placement.elems with hnil | ⟨front, e, helems⟩
  · simp [hnil]
  · obtain ⟨n, rfl⟩ := h.exists_name habsolute helems
    rw [helems, List.dropLast_concat] at hfront
    simp [helems, hfront]

end Relative

/-! ## Runs -/

section Runs

variable {q : DirCall} {t : LinkedFs} {entry : Entry} {out : Output} {s s' : DirState}

theorem isDots_of_pathElem {name n : Name} (h : pathElem name = .name n) :
    isDots name = false := by
  unfold pathElem at h
  split at h
  next => cases h
  next hdot =>
    split at h
    next => cases h
    next hdotdot => simp [isDots, hdot, hdotdot]

theorem Planned.not_absolute (h : Planned q t out) : out.placement.absolute = false := by
  obtain ⟨rel, hplaced, hout, _⟩ := h
  rw [hout]
  exact hplaced.not_absolute

theorem Copied.not_absolute (h : Copied q t entry out) : out.placement.absolute = false := by
  obtain ⟨rel, hplaced, hout, _⟩ := h
  exact not_absolute_of_copiedTo hplaced.not_absolute hout

/-- A task whose file was created has an entry that leads out, or does not climb. -/
theorem Planned.noClimb (h : Planned q s.tree out) (hwritable : Writable q out)
    (hopens : s.OpensOutput q out) (hbelow : StaysBelow q s.tree out.entry) :
    .dotdot ∉ out.placement.elems := by
  have habsolute := h.not_absolute
  obtain ⟨rel, hplaced, hout, hext⟩ := h
  rcases hplaced.noClimb_or_leadsOut with hrel | hrel
  · refine hwritable.noClimb habsolute ?_
    rw [hout]
    exact fun hmem => hrel (mem_dropLast_mapFilename hmem)
  · -- The file is one that the call makes something of, or it would not have been created.
    obtain ⟨base, p, c, hbase, hp, hnode, houtside, k, names, n, rfl, _, rfl⟩ := hrel
    refine absurd (hbelow base p c hbase hp hnode ?_) houtside
    rw [DirCall.Produces]
    split
    next hencrypts =>
      obtain ⟨_, p', c', hp', hfile, hinput⟩ := hopens
      cases hp.symm.trans hp'
      cases hnode.symm.trans (FileTree.fileAt_eq_some.mp hfile)
      exact hinput hencrypts
    next hdecrypts =>
      intro _
      rw [mapFilename_climbing, DirCall.rename, if_neg hdecrypts] at hout
      have helems := congrArg PathParts.elems hout
      rw [climbing, ← List.append_assoc] at helems
      obtain ⟨m, hm⟩ := hwritable.exists_name habsolute helems
      exact isDots_of_pathElem hm

theorem Copied.noClimb (h : Copied q t entry out) (hbelow : StaysBelow q t entry) :
    .dotdot ∉ out.placement.elems := by
  obtain ⟨rel, hplaced, hout, hdecrypts, hext⟩ := h
  rcases hplaced.noClimb_or_leadsOut with hrel | hrel
  · exact noClimb_of_copiedTo hrel hout
  · obtain ⟨base, p, c, hbase, hp, hnode, houtside, _⟩ := hrel
    refine absurd (hbelow base p c hbase hp hnode ?_) houtside
    rw [DirCall.Produces, if_neg (by simp [hdecrypts])]
    exact fun heq => absurd heq hext

/-- What a run keeps up whose entries stay below the source. -/
structure NoClimb (q : DirCall) (s : DirState) : Prop where
  tasks : ∀ out ∈ s.tasks, Planned q s.tree out
  created : ∀ out ∈ s.created, out.placement.absolute = false ∧ .dotdot ∉ out.placement.elems

theorem Planned.mono {t' : LinkedFs} (h : Planned q t out) (hgrows : t.Grows t') :
    Planned q t' out := by
  obtain ⟨rel, hplaced, hout⟩ := h
  exact ⟨rel, hplaced.mono hgrows, hout⟩

theorem NoClimb.step (h : NoClimb q s) (hstep : BelowStep q s s') : NoClimb q s' := by
  obtain ⟨hbelow, hstep⟩ := hstep
  have heffect := hstep.effect
  constructor
  · intro out hout
    rcases heffect.tasks out hout with hout | hplanned
    · exact (h.tasks out hout).mono heffect.grows
    · exact hplanned.mono heffect.grows
  · intro out hout
    rcases heffect.created out hout with hout | ⟨hwritable, ⟨htask, hopens⟩ | ⟨entry, hentry, hout⟩⟩
    · exact h.created out hout
    · -- Written by a task, or copied by the loop.
      have hdue : out.entry ∈ s.due := List.mem_append_right _ (List.mem_map_of_mem htask)
      have hplanned := h.tasks out htask
      exact ⟨hplanned.not_absolute, hplanned.noClimb hwritable hopens (hbelow _ hdue)⟩
    · have hdue : entry ∈ s.due := List.mem_append_left _ (by simp [hentry])
      exact ⟨hout.not_absolute, hout.noClimb (hbelow _ hdue)⟩

theorem leadsBackTo_of_noClimb (dir : NormalPath Name) {rel : PathParts Name}
    (habsolute : rel.absolute = false) (h : .dotdot ∉ rel.elems) : LeadsBackTo dir rel.normal := by
  refine ⟨0, ?_, .inr (Nat.zero_le _), by simp⟩
  rw [PathParts.normal, NormalPath.foldl_push_of_noClimb h, start_of_relative habsolute]
  rfl

theorem contains_dest_iff {destPath : Bytes} (h : out.placement.absolute = false) :
    (pathParts destPath).normal.Contains (out.dest destPath).normal ↔
      LeadsBackTo (pathParts destPath).normal out.placement.normal := by
  rw [Output.dest, PathParts.normal_append _ h, contains_append_iff_leadsBackTo _ h]

/-- A run stays below the destination as long as every step is about entries that stay below the
    source. -/
theorem confined_of_below {todo : List Entry}
    (h : Relation.ReflTransGen (BelowStep q) (.start t todo) s) : DirConfined q.destPath s := by
  have hall : NoClimb q s := by
    induction h with
    | refl => exact ⟨by simp [DirState.start], by simp [DirState.start]⟩
    | tail _ hstep ih => exact ih.step hstep
  intro out hout
  obtain ⟨habsolute, hnoClimb⟩ := hall.created out hout
  exact (contains_dest_iff habsolute).mpr (leadsBackTo_of_noClimb _ habsolute hnoClimb)

/-! ## One entry -/

/-- What a call can come to that visits one entry: it may have started a task, and then it has
    made directories only. -/
inductive OneEntry (q : DirCall) (t : LinkedFs) (entry : Entry) : DirState → Prop where
  | start : OneEntry q t entry (.start t [entry])
  | started {s : DirState} {out : Output} : s.todo = [] → s.tasks = [out] → out.entry = entry →
      Planned q t out →
      t.Grows s.tree → (∀ p, s.tree.fileAt p = t.fileAt p) → OneEntry q t entry s
  | done {s : DirState} : s.todo = [] → s.tasks = [] → OneEntry q t entry s

theorem OneEntry.visited {result : Except Exn (Option Output)}
    (h : (DirState.start t [entry]).visit q entry = (result, s)) :
    OneEntry q t entry (s.visited [] result) := by
  obtain ⟨hextends, hstarted⟩ := visit_spec h
  have htasks : s.tasks = [] := hextends.tasks
  cases result with
  | error e => exact .done rfl htasks
  | ok started =>
    cases started with
    | none => exact .done rfl htasks
    | some out =>
      obtain ⟨hentry, hplanned, hfiles⟩ := hstarted out rfl
      refine .started rfl ?_ hentry hplanned hextends.grows hfiles
      simp [DirState.visited, htasks]

theorem OneEntry.finished {before after : List Output} {result : Except Exn Unit}
    {P : Output → Prop} (h : OneEntry q t entry s) (htasks : s.tasks = before ++ out :: after)
    (hextends : Extends P s s') : OneEntry q t entry (s'.finished (before ++ after) result) := by
  cases h with
  | start => simp [DirState.start] at htasks
  | done _ htasks' => simp [htasks'] at htasks
  | started htodo htasks' =>
    rw [htasks', eq_comm, List.append_eq_singleton_iff] at htasks
    obtain ⟨rfl, _, hafter⟩ := by simpa using htasks
    have htodo' : s'.todo = [] := hextends.todo.trans htodo
    cases result <;> exact .done htodo' (by simp [DirState.finished, hafter])

theorem OneEntry.step (h : OneEntry q t entry s) (hstep : DirStep q s s') :
    OneEntry q t entry s' := by
  cases hstep with
  | visit htodo hvisit =>
    cases h with
    | start =>
      cases htodo
      exact .visited hvisit
    | started htodo' => simp [htodo'] at htodo
    | done htodo' => simp [htodo'] at htodo
  | task ivs htasks hrun => exact h.finished htasks (extends_runTask hrun)
  | taskFault e htasks hwrite =>
    rcases hwrite with rfl | ⟨_, content, hwrite⟩
    · exact h.finished htasks (.refl (fun _ => False) _)
    · exact h.finished htasks (extends_write hwrite)

/-- Making directories does not change where an entry leads. -/
theorem StaysBelow.started (h : StaysBelow q t out.entry) (hplanned : Planned q t out)
    {t' : LinkedFs} (hgrows : t.Grows t') (hfiles : ∀ p, t'.fileAt p = t.fileAt p) :
    StaysBelow q t' out.entry := by
  intro base p c hbase hp hnode hproduces
  obtain ⟨rel, hplaced, _⟩ := hplanned
  obtain ⟨p₀, c₀, hp₀, hnode₀⟩ := exists_file_of_isRegularFile hplaced.regular
  cases (hgrows.find hp₀).symm.trans hp
  have hfile := FileTree.fileAt_eq_some.mpr hnode
  rw [hfiles, FileTree.fileAt_eq_some.mpr hnode₀] at hfile
  cases hfile
  obtain ⟨base₀, hbase₀⟩ := hplaced.exists_base
  cases (hgrows.find hbase₀).symm.trans hbase
  exact h _ _ _ hbase₀ hp₀ hnode₀ hproduces

theorem confined_of_staysBelow (hbelow : StaysBelow q t entry) (h : DirRuns q t [entry] s) :
    DirConfined q.destPath s := by
  have hall : OneEntry q t entry s ∧
      Relation.ReflTransGen (BelowStep q) (.start t [entry]) s := by
    induction h with
    | refl => exact ⟨.start, .refl⟩
    | tail _ hstep ih =>
      obtain ⟨hone, hruns⟩ := ih
      refine ⟨hone.step hstep, hruns.tail ⟨fun e he => ?_, hstep⟩⟩
      -- The entry is judged again at each step, by the tree of that step.
      cases hone with
      | start =>
        obtain rfl : e = entry := by simpa [DirState.due, DirState.start] using he
        exact hbelow
      | started htodo htasks hentry hplanned hgrows hfiles =>
        subst hentry
        obtain rfl : e = _ := by simpa [DirState.due, htodo, htasks] using he
        exact hbelow.started hplanned hgrows hfiles
      | done htodo htasks => simp [DirState.due, htodo, htasks] at he
  exact confined_of_below hall.2

end Runs

end TrustFlow.Proxy
