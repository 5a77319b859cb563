import Mathlib.Algebra.Order.BigOperators.Group.List
import Mathlib.Algebra.Order.Group.Nat
import TrustFlow.Proxy.LinkedConfinement

/-! # Entries that lead out of the source

An entry that leads out of the source is placed above `dest_path`.  For a destination of new
names nothing is in the way there, so for every such entry there is a `dest_path` outside of which
the call creates a file. -/

namespace TrustFlow.Proxy

open LinkedTree (step Straight StepsBelow Made)

def DirCall.to (q : DirCall) (destPath : Bytes) : DirCall := { q with destPath := destPath }

/-! ## A destination of new names -/

/-- A path of `k` times the same name. -/
def freshDest (f : Name) (k : Nat) : Bytes := pathAppend [slash] (relText (List.replicate k f))

/-- Down into the destination, up again but for the first name, and down to other names. -/
def detour (f : Name) (k : Nat) (names : List Name) : List (PathElem Name) :=
  (List.replicate (k + 2) f).map .name ++ (List.replicate (k + 1) .dotdot ++ names.map .name)

section Fresh

variable {f n : Name} {k : Nat} {names : List Name} {t t' : LinkedFs} {e : PathElem Name}

theorem pathParts_freshDest (hf : ValidName f) (hk : 0 < k) :
    pathParts (freshDest f k) = ⟨true, (List.replicate k f).map .name⟩ := by
  have hvalid : ∀ n ∈ List.replicate k f, ValidName n := by
    intro n hn
    rwa [List.eq_of_mem_replicate hn]
  have hne : List.replicate k f ≠ [] := by simp; omega
  have hroot : pathParts [slash] = ⟨true, []⟩ := by decide
  rw [freshDest, pathParts_pathAppend _ (relText_head_ne hvalid) (relText_ne_nil hvalid hne),
    hroot, pathParts_relText hvalid]
  simp [PathParts.append, PathParts.dropSlash]

theorem foldl_step_detour (f : Name) (k : Nat) (names : List Name) :
    (detour f k names).foldl step [] = f :: names := by
  rw [detour, List.foldl_append, List.foldl_append, LinkedTree.foldl_step_names,
    LinkedTree.foldl_step_ups, LinkedTree.foldl_step_names]
  simp [List.take_replicate]

theorem stepsBelow_detour (f : Name) (k : Nat) (names : List Name) :
    StepsBelow [f] [] (detour f k names) := by
  have hdown : StepsBelow [f] [] ((List.replicate (k + 2) f).map .name) := by
    refine ⟨fun m hm => ?_, LinkedTree.stepsBelow_names (List.prefix_rfl)⟩
    cases hm
    exact List.prefix_rfl
  rw [detour, LinkedTree.stepsBelow_append, LinkedTree.stepsBelow_append,
    LinkedTree.foldl_step_names, LinkedTree.foldl_step_ups]
  refine ⟨hdown, LinkedTree.stepsBelow_ups _ _ _, LinkedTree.stepsBelow_names ?_⟩
  simp [List.take_replicate]

/-- The way there does not touch a place with another name. -/
theorem foldl_step_front (hn : n ≠ f) {front : List (PathElem Name)}
    (h : front <+: detour f k names) : front.foldl step [] ≠ f :: (names ++ [n]) := by
  obtain ⟨j, rfl⟩ : ∃ j, front = (detour f k names).take j :=
    ⟨front.length, List.prefix_iff_eq_take.mp h⟩
  simp only [detour, List.take_append, List.foldl_append, List.length_map, List.length_replicate,
    ← List.map_take, List.take_replicate, LinkedTree.foldl_step_names, LinkedTree.foldl_step_ups,
    List.nil_append]
  by_cases hj : j ≤ k + 2 + (k + 1)
  · -- Only the name of the destination has been met.
    intro heq
    have hnone : j - (k + 2) - (k + 1) = 0 := by omega
    rw [hnone, List.take_zero, List.append_nil] at heq
    have hmem : n ∈ f :: (names ++ [n]) := by simp
    rw [← heq] at hmem
    exact hn (List.eq_of_mem_replicate hmem)
  · -- Past the levels that are climbed, the way is not yet long enough.
    intro heq
    have hlength := congrArg List.length heq
    have hfirst : min j (k + 2) = k + 2 := by omega
    have hups : min (j - (k + 2)) (k + 1) = k + 1 := by omega
    simp only [hfirst, hups, List.length_append, List.length_take, List.length_replicate,
      List.length_cons, List.length_nil] at hlength
    omega

/-- A place above the destination where a file can be written, once its directories are made. -/
structure Room (env : LinkedEnv) (t t' : LinkedFs) (f n : Name) (k : Nat) (names : List Name) :
    Prop where
  made : Made [f] [] (detour f k names) t t'
  find : t'.find env.maxLinks env.cwd ⟨true, detour f k names ++ [.name n]⟩ =
    .ok (f :: (names ++ [n]))
  free : t'.node (f :: (names ++ [n])) = none

theorem exists_room (env : LinkedEnv) (hfree : t.node [f] = none) (hn : n ≠ f) (k : Nat)
    (names : List Name) :
    ∃ t', t.createDirectories env.maxLinks env.cwd ⟨true, detour f k names⟩ = (true, t') ∧
      Room env t t' f n k names := by
  have hclear : t.Clear [f] := fun p hp => .inl (LinkedTree.node_of_free hfree hp)
  have hcreate : ∃ t', LinkedTree.createElems env.maxLinks [] [] (detour f k names) t = (true, t') ∧
      Made [f] [] (detour f k names) t t' :=
    LinkedTree.createElems_clear hclear trivial t.root (stepsBelow_detour f k names)
  obtain ⟨t', hmake, hmade⟩ := hcreate
  have hbelow : [f] <+: f :: (names ++ [n]) := by simp
  refine ⟨t', ?_, hmade, ?_, ?_⟩
  · simp only [LinkedTree.createDirectories]
    rw [if_neg (by simp [PathParts.nil])]
    exact hmake
  · -- No link is on the way: what was made below the fresh name are directories.
    have hlast : t'.Straight ((detour f k names).foldl step []) [.name n] := by
      refine ⟨hmade.last, fun m hm => ?_, trivial⟩
      cases hm
      rw [foldl_step_detour]
      exact hmade.clear.link hbelow
    have hstraight := LinkedTree.straight_append.mpr ⟨hmade.straight, hlast⟩
    rw [LinkedTree.find, if_neg (by simp [PathParts.nil])]
    refine hstraight.walk.trans ?_
    rw [List.foldl_append, foldl_step_detour]
    rfl
  · by_contra hnode
    rcases hmade.made _ hnode with hnode | ⟨front, hfront, heq⟩
    · exact hnode (LinkedTree.node_of_free hfree hbelow)
    · exact foldl_step_front hn hfront heq.symm

theorem makeParentDir_detour {env : LinkedEnv} (hfree : t.node [f] = none)
    (hmake : t.createDirectories env.maxLinks env.cwd ⟨true, detour f k names⟩ = (true, t')) :
    makeParentDir env t ⟨true, detour f k names ++ [e]⟩ = (.ok (), t') := by
  have hparent : parentPath ⟨true, detour f k names ++ [e]⟩ = ⟨true, detour f k names⟩ := by
    simp [parentPath]
  have hfind : t.find env.maxLinks env.cwd ⟨true, detour f k names⟩ = .error .notFound := by
    rw [LinkedTree.find, if_neg (by simp [PathParts.nil])]
    exact LinkedTree.walk_of_free t.root hfree
  have hstatus : env.status t ⟨true, detour f k names⟩ = .ok none := by
    simp only [LinkedEnv.status, LinkedTree.status, hfind]
  simp only [makeParentDir, hparent, hstatus, hmake]

theorem append_climbing (hf : ValidName f) (k : Nat) (names : List Name) (e : PathElem Name) :
    (pathParts (freshDest f (k + 2))).append (climbing k names e) =
      ⟨true, detour f k names ++ [e]⟩ := by
  have hdrop : PathParts.dropSlash (List.replicate (k + 2) (PathElem.name f)) =
      List.replicate (k + 2) (.name f) := by
    rw [PathParts.dropSlash, if_neg]
    simp [List.getLast?_replicate]
  rw [pathParts_freshDest hf (by omega)]
  simp [PathParts.append, climbing, hdrop, detour]

theorem normal_climbing (k : Nat) (names : List Name) (n : Name) :
    (climbing k names (.name n)).normal = ⟨.up (k + 1), names ++ [n]⟩ := by
  have hmap : names.map .name ++ [.name n] = (names ++ [n]).map PathElem.name := by simp
  rw [PathParts.normal, climbing, hmap, List.foldl_append, NormalPath.foldl_push_ups,
    NormalPath.foldl_push_names]
  simp [PathParts.start, NormalPath.climb, PathOrigin.climb]

theorem length_le_pathAppend (a : Bytes) {b : Bytes} (hb : b.head? ≠ some slash) :
    a.length ≤ (pathAppend a b).length ∧ b.length ≤ (pathAppend a b).length := by
  rw [pathAppend, if_neg hb]
  split <;> simp only [List.length_append] <;> omega

theorem length_le_freshDest (hf : ValidName f) (k : Nat) :
    f.length ≤ (freshDest f (k + 1)).length := by
  have hvalid : ∀ n ∈ List.replicate (k + 1) f, ValidName n := by
    intro n hn
    rwa [List.eq_of_mem_replicate hn]
  refine le_trans ?_ (length_le_pathAppend [slash] (relText_head_ne hvalid)).2
  cases k with
  | zero => exact le_refl _
  | succ k => simp [List.replicate_succ, relText]

theorem length_le_destText (destPath : Bytes) (entry : Entry) (k : Nat) (names : List Name)
    (e : PathElem Name) :
    destPath.length ≤ (Output.destText destPath ⟨entry, climbing k names e⟩).length := by
  refine (length_le_pathAppend destPath ?_).1
  have hhead : ∀ l, (relText (str ".." :: l)).head? ≠ some slash := by
    intro l
    cases l with
    | nil => decide
    | cons n l =>
      simp only [relText, List.append_assoc]
      rw [List.head?_append_of_ne_nil _ (by decide)]
      decide
  simp only [climbing, List.replicate_succ, List.cons_append, List.map_cons]
  exact hhead _

/-- What is placed above the destination under other names lies outside. -/
theorem not_contains_climbing (hf : ValidName f) (hnames : f ∉ names ++ [n]) (entry : Entry) :
    ¬ (pathParts (freshDest f (k + 2))).normal.Contains
      (Output.dest (freshDest f (k + 2)) ⟨entry, climbing k names (.name n)⟩).normal := by
  rw [contains_dest_iff rfl, normal_climbing, pathParts_freshDest hf (by omega)]
  rintro ⟨levels, hlevels, _, hback⟩
  cases hlevels
  simp only [PathParts.normal, NormalPath.foldl_push_names, PathParts.start, List.nil_append,
    List.drop_replicate, List.length_replicate] at hback
  have hcount : k + 2 - (k + 2 - (k + 1)) = k + 1 := by omega
  rw [hcount] at hback
  exact hnames (hback.subset (by simp))

/-- There are always new names, as long as need be. -/
theorem exists_fresh (t : LinkedFs) (len : Nat) :
    ∃ f, ValidName f ∧ len < f.length ∧ ∀ p, t.node p ≠ none → f ∉ p := by
  let total := (t.listed.flatten.map List.length).sum
  refine ⟨List.replicate (len + total + 1) 97, ⟨by simp, ?_, ?_⟩,
    by rw [List.length_replicate]; omega, ?_⟩
  · intro hslash
    exact absurd (List.eq_of_mem_replicate hslash) (by decide)
  · have hhead : ∀ dots : Name, dots.head? ≠ some 97 →
        List.replicate (len + total + 1) 97 ≠ dots := by
      rintro dots hdots rfl
      simp [List.replicate_succ] at hdots
    simp [isDots, hhead (str ".") (by decide), hhead (str "..") (by decide)]
  · intro p hp hmem
    have hlisted := List.mem_flatten_of_mem (t.mem_listed p hp) hmem
    have hle := List.le_sum_of_mem (List.mem_map_of_mem (f := List.length) hlisted)
    simp only [List.length_replicate] at hle
    omega

end Fresh

/-! ## The file that is created outside -/

/-- An entry that leads out of the source, and a destination of a new name. -/
structure Escape (q : DirCall) (t : LinkedFs) (entry : Entry) (f : Name) (k : Nat)
    (names : List Name) (n : Name) (p : Location Name) (c : FileContent) : Prop where
  dest : q.destPath = freshDest f (k + 2)
  find : q.env.find t (entry.path q.srcPath) = .ok p
  node : t.node p = some (.file c)
  relative : relativePathOf q.env t q.srcPath entry = .ok (climbing k names (.name n))
  valid : ValidName f
  free : t.node [f] = none
  apart : f ∉ names
  long : (entry.path q.srcPath).length + n.length + 4 < f.length

section Outside

variable {q : DirCall} {t t' : LinkedFs} {entry : Entry} {f n m : Name} {k : Nat}
  {names : List Name} {p : Location Name} {c : FileContent} {todo : List Entry} {s : DirState}

theorem exists_escape {base : Location Name} (hbase : q.env.find t q.srcPath = .ok base)
    (hp : q.env.find t (entry.path q.srcPath) = .ok p) (hnode : t.node p = some (.file c))
    (hout : ¬ base <+: p) :
    ∃ f k names n, n = p.getLastD [] ∧
      Escape (q.to (freshDest f (k + 2))) t entry f k names n p c := by
  obtain ⟨k, names, n, hn, hmem, hrel⟩ := lexicallyRelative_leadsOut hbase hnode hout
  obtain ⟨f, hvalid, hlong, hfresh⟩ := exists_fresh t ((entry.path q.srcPath).length + n.length + 4)
  refine ⟨f, k, names, n, hn, rfl, hp, hnode, ?_, hvalid, ?_, ?_, hlong⟩
  · cases entry with
    | source =>
      cases hbase.symm.trans hp
      exact absurd List.prefix_rfl hout
    | under rel =>
      rw [← hrel]
      exact relativePathOf_under hbase hp
  · by_contra hfree
    exact hfresh [f] hfree (by simp)
  · intro hf
    exact hfresh p (by rw [hnode]; exact Option.some_ne_none _)
      (hmem (List.mem_append_left _ hf))

theorem Escape.name_ne (h : Escape q t entry f k names n p c) (hm : m.length ≤ n.length + 4) :
    m ≠ f := by
  rintro rfl
  have hlong := h.long
  omega

theorem Escape.append (h : Escape q t entry f k names n p c) (e : PathElem Name) :
    (pathParts q.destPath).append (climbing k names e) = ⟨true, detour f k names ++ [e]⟩ := by
  rw [h.dest, append_climbing h.valid]

/-- The directories above the output are made. -/
theorem Escape.makeParentDir (h : Escape q t entry f k names n p c)
    (hmake : t.createDirectories q.env.maxLinks q.env.cwd ⟨true, detour f k names⟩ = (true, t')) :
    makeParentDir q.env t ((pathParts q.destPath).append (climbing k names (.name n))) =
      (.ok (), t') := by
  rw [h.append]
  exact makeParentDir_detour h.free hmake

theorem Escape.visit_task (h : Escape q t entry f k names n p c)
    (hmake : t.createDirectories q.env.maxLinks q.env.cwd ⟨true, detour f k names⟩ = (true, t'))
    (htask : q.encrypts = true ∨ extension (entry.name q.srcPath) = kEncSuffix)
    (todo : List Entry) :
    (DirState.start t todo).visit q entry =
      (.ok (some ⟨entry, climbing k names (pathElem (q.rename n))⟩), .start t' todo) := by
  have hregular := isRegularFile_of_find h.find h.node
  simp only [DirState.visit, DirState.start, hregular, h.relative, h.makeParentDir hmake,
    ← mapFilename_climbing]
  by_cases hencrypts : q.encrypts = true
  · rw [if_pos hencrypts, DirCall.rename, if_pos hencrypts]
  · rw [if_neg hencrypts, if_pos (htask.resolve_left hencrypts), DirCall.rename, if_neg hencrypts]

theorem Escape.visit_copy (h : Escape q t entry f k names n p c)
    (hmake : t.createDirectories q.env.maxLinks q.env.cwd ⟨true, detour f k names⟩ = (true, t'))
    (hdecrypts : ¬ q.encrypts = true) (hext : extension (entry.name q.srcPath) ≠ kEncSuffix)
    (hcopy : DirState.copy (.start t' todo) q entry (climbing k names (.name n)) = (.ok (), s)) :
    (DirState.start t todo).visit q entry = (.ok none, s) := by
  have hregular := isRegularFile_of_find h.find h.node
  rw [DirState.start] at hcopy
  simp only [DirState.visit, DirState.start, hregular, h.relative, h.makeParentDir hmake,
    if_neg hdecrypts, if_neg hext, hcopy]

/-- A file can be written there. -/
theorem Escape.write (h : Escape q t entry f k names n p c)
    (hroom : Room q.env t s.tree f m k names) (c : FileContent) :
    ∃ s', s.write q ⟨entry, climbing k names (.name m)⟩ c = some s' ∧
      s'.created = s.created ++ [⟨entry, climbing k names (.name m)⟩] := by
  have hdir : s.tree.node (f :: (names ++ [m])).dropLast = some .dir := by
    rw [← List.cons_append, List.dropLast_concat, ← foldl_step_detour f k names]
    exact hroom.made.last
  obtain ⟨t', hwrite⟩ : ∃ t', s.tree.writeFile (f :: (names ++ [m])) c = some t' :=
    LinkedTree.exists_writeFile hdir (.inl hroom.free)
  have hwriteTo : s.tree.writeTo q.env.maxLinks q.env.cwd
      (Output.dest q.destPath ⟨entry, climbing k names (.name m)⟩) c = some t' := by
    rw [Output.dest, h.append, LinkedTree.writeTo, hroom.find]
    exact hwrite
  refine ⟨{ s with
    tree := t', created := s.created ++ [⟨entry, climbing k names (.name m)⟩] }, ?_, rfl⟩
  simp only [DirState.write, hwriteTo]

theorem Escape.copy (h : Escape q t entry f k names n p c)
    (hroom : Room q.env t t' f n k names) (todo : List Entry) :
    ∃ s, DirState.copy (.start t' todo) q entry (climbing k names (.name n)) = (.ok (), s) ∧
      s.created = [⟨entry, climbing k names (.name n)⟩] := by
  have hfind : q.env.find t' (entry.path q.srcPath) = .ok p := hroom.made.grows.find h.find
  have hfile : t'.fileAt p = some c := by
    rw [hroom.made.fileAt, FileTree.fileAt_eq_some.mpr h.node]
  have hdest : t'.find q.env.maxLinks q.env.cwd
      ((pathParts q.destPath).append (climbing k names (.name n))) =
        .ok (f :: (names ++ [n])) := by
    rw [h.append]
    exact hroom.find
  have hplacement : copyPlacement q t' entry (climbing k names (.name n)) =
      .ok (climbing k names (.name n)) := by
    simp only [copyPlacement, LinkedEnv.status, LinkedTree.status, hdest, hroom.free, ok_bind]
    rfl
  -- The copy is not refused as one to the file itself, which is there already.
  have hself : f :: (names ++ [n]) ≠ p := by
    rintro rfl
    rw [FileTree.fileAt, hroom.free] at hfile
    cases hfile
  obtain ⟨s, hwrite, hcreated⟩ := h.write (s := .start t' todo) hroom c
  refine ⟨s, ?_, hcreated⟩
  rw [DirState.start] at hwrite
  simp only [DirState.copy, DirState.start, hplacement, hfind, hfile, Output.dest, hdest]
  rw [if_neg (by simpa using hself)]
  simp only [hwrite]

theorem Escape.opensOutput (h : Escape q t entry f k names n p c)
    (hroom : Room q.env t s.tree f m k names) (hinput : q.encrypts = true → c.bytes ≠ []) :
    s.OpensOutput q ⟨entry, climbing k names (.name m)⟩ := by
  refine ⟨fun heq => ?_, p, c, hroom.made.grows.find h.find, ?_, hinput⟩
  · -- The name of the destination alone is longer.
    have hlong := h.long
    have hdest := length_le_destText q.destPath entry k names (.name m)
    have hfresh : f.length ≤ (freshDest f (k + 2)).length := length_le_freshDest h.valid (k + 1)
    rw [← heq, h.dest] at hdest
    dsimp only at hdest
    omega
  · rw [hroom.made.fileAt, FileTree.fileAt_eq_some.mpr h.node]

/-- What is created there lies outside. -/
theorem Escape.not_confined (h : Escape q t entry f k names n p c) (hm : m.length ≤ n.length + 4)
    (hs : ⟨entry, climbing k names (.name m)⟩ ∈ s.created) : ¬ DirConfined q.destPath s := by
  intro hconfined
  have hcontains := hconfined _ hs
  rw [h.dest] at hcontains
  refine not_contains_climbing h.valid ?_ entry hcontains
  simp [h.apart, (h.name_ne hm).symm]

/-- The file of a task is created outside, even if the task then fails. -/
theorem Escape.task (h : Escape q t entry f k names n p c) (hproduces : q.Produces entry p c)
    (hn : n = p.getLastD [])
    (htask : q.encrypts = true ∨ extension (entry.name q.srcPath) = kEncSuffix)
    (rest : List Entry) :
    ∃ s, DirRuns q t (entry :: rest) s ∧ ¬ DirConfined q.destPath s := by
  rw [DirCall.Produces] at hproduces
  have hname : isDots (q.rename n) = false ∧ (q.rename n).length ≤ n.length + 4 := by
    by_cases hencrypts : q.encrypts = true
    · rw [DirCall.rename, if_pos hencrypts]
      exact ⟨isDots_append_enc n, by simp [kEncSuffix]; decide⟩
    · rw [if_neg hencrypts, ← hn] at hproduces
      rw [DirCall.rename, if_neg hencrypts]
      exact ⟨hproduces (htask.resolve_left hencrypts), by simp [stem]; omega⟩
  obtain ⟨t', hmake, hroom⟩ := exists_room q.env h.free (h.name_ne hname.2) k names
  have hvisit := h.visit_task hmake htask (entry :: rest)
  rw [pathElem_of_notDots hname.1] at hvisit
  have hinput : q.encrypts = true → c.bytes ≠ [] := fun hencrypts => by
    rwa [if_pos hencrypts] at hproduces
  let s₁ := (DirState.start t' (entry :: rest)).visited rest
    (.ok (some ⟨entry, climbing k names (.name (q.rename n))⟩))
  have hroom' : Room q.env t s₁.tree f (q.rename n) k names := hroom
  have htasks : s₁.tasks = [] ++ ⟨entry, climbing k names (.name (q.rename n))⟩ :: [] := rfl
  -- The task fails when its output is open: that needs nothing of the key or the cipher.
  obtain ⟨s, hwrite, hcreated⟩ := h.write hroom' c
  have hfault := DirStep.taskFault (ioError "cannot write") htasks
    (.inr ⟨h.opensOutput hroom' hinput, c, hwrite⟩)
  refine ⟨_, .tail (.single (.visit rfl hvisit)) hfault, h.not_confined hname.2 ?_⟩
  simp [DirState.finished, hcreated]

theorem Escape.copied (h : Escape q t entry f k names n p c) (hdecrypts : ¬ q.encrypts = true)
    (hext : extension (entry.name q.srcPath) ≠ kEncSuffix) (rest : List Entry) :
    ∃ s, DirRuns q t (entry :: rest) s ∧ ¬ DirConfined q.destPath s := by
  obtain ⟨t', hmake, hroom⟩ :=
    exists_room q.env h.free (h.name_ne (Nat.le_add_right n.length 4)) k names
  obtain ⟨s, hcopy, hcreated⟩ := h.copy hroom (entry :: rest)
  refine ⟨_, .single (.visit rfl (h.visit_copy hmake hdecrypts hext hcopy)),
    h.not_confined (Nat.le_add_right n.length 4) ?_⟩
  simp [DirState.visited, hcreated]

end Outside

/-- An entry that leads out of the source escapes from some destination. -/
theorem exists_not_confined {q : DirCall} {t : LinkedFs} {entry : Entry}
    (hout : ¬ StaysBelow q t entry) (rest : List Entry) :
    ∃ destPath s, DirRuns (q.to destPath) t (entry :: rest) s ∧ ¬ DirConfined destPath s := by
  simp only [StaysBelow, not_forall] at hout
  obtain ⟨base, p, c, hbase, hp, hnode, hproduces, hout⟩ := hout
  obtain ⟨f, k, names, n, hn, h⟩ := exists_escape hbase hp hnode hout
  refine ⟨freshDest f (k + 2), ?_⟩
  by_cases htask : q.encrypts = true ∨ extension (entry.name q.srcPath) = kEncSuffix
  · exact h.task hproduces hn htask rest
  · rw [not_or] at htask
    exact h.copied htask.1 htask.2 rest

/-- Every run stays below the destination whose steps are about entries that stay below the
    source.  An entry has to: a call for it alone stays below every destination exactly if it does,
    and a call that comes to it first does not stay below every one otherwise. -/
theorem directoryConfined_iff (q : DirCall) (t : LinkedFs) :
    (∀ todo s, Relation.ReflTransGen (BelowStep q) (.start t todo) s →
      DirConfined q.destPath s) ∧
    ∀ entry,
      ((∀ destPath s, DirRuns (q.to destPath) t [entry] s → DirConfined destPath s) ↔
        StaysBelow q t entry) ∧
      ∀ rest, (∀ destPath s, DirRuns (q.to destPath) t (entry :: rest) s →
        DirConfined destPath s) → StaysBelow q t entry := by
  have hconverse : ∀ entry rest, (∀ destPath s, DirRuns (q.to destPath) t (entry :: rest) s →
      DirConfined destPath s) → StaysBelow q t entry := by
    intro entry rest hconfined
    by_contra hout
    obtain ⟨destPath, s, hruns, hnot⟩ := exists_not_confined hout rest
    exact hnot (hconfined destPath s hruns)
  refine ⟨fun todo s => confined_of_below, fun entry => ⟨⟨hconverse entry [], ?_⟩,
    hconverse entry⟩⟩
  intro hbelow destPath s hruns
  exact confined_of_staysBelow (q := q.to destPath) hbelow hruns

/-! ## A link that leads out of the source -/

/-- A source with a link to a file beside it. -/
def strayTree : LinkedFs :=
  ((((treeOf [([str "etc", str "x"], fileX)]).createDirectories [str "src"]).map
    LinkedTree.ofTree).bind
      (·.createSymlink [str "src", str "l"] (pathParts (str "/etc/x")))).getD (.ofTree .empty)

def strayEntry : Entry := .under [str "l"]

def strayCall (encrypts : Bool) : DirCall where
  env := { gcm := ⟨plainGcm, plainGcm⟩, cwd := [] }
  encrypts := encrypts
  srcPath := str "/src"
  destPath := str "/v/out"
  dataKey := List.replicate 16 1

def strayOutput (name : Name) : Output :=
  ⟨strayEntry, ⟨false, [.dotdot, .name (str "etc"), .name name]⟩⟩

theorem runs_visit (q : DirCall) (t : LinkedFs) (entry : Entry) : DirRuns q t [entry]
    (((DirState.start t [entry]).visit q entry).2.visited []
      ((DirState.start t [entry]).visit q entry).1) :=
  .single (.visit rfl Prod.mk.eta.symm)

def strayVisit (encrypts : Bool) : Except Exn (Option Output) × DirState :=
  (DirState.start strayTree [strayEntry]).visit (strayCall encrypts) strayEntry

def strayStarted : DirState :=
  (strayVisit true).2.visited [] (.ok (some (strayOutput (str "x.enc"))))

def strayTask : Except Exn Unit × DirState :=
  strayStarted.runTask (strayCall true) (fun _ => zeroIv) (strayOutput (str "x.enc"))

/-- The file is found in the source and created outside of the destination, encrypted or copied. -/
theorem link_escapes :
    linkedEntries (strayCall true).env strayTree (str "/src") = .ok [strayEntry] ∧
    (∃ s, DirRuns (strayCall true) strayTree [strayEntry] s ∧ s.error = none ∧
      (s.tree.fileAt [str "v", str "etc", str "x.enc"]).isSome = true ∧
      ¬ DirConfined (str "/v/out") s) ∧
    ∃ s, DirRuns (strayCall false) strayTree [strayEntry] s ∧ s.error = none ∧
      s.tree.fileAt [str "v", str "etc", str "x"] = some fileX ∧
      ¬ DirConfined (str "/v/out") s := by
  have hoff : ∀ name ∈ [str "x", str "x.enc"], ¬ (pathParts (str "/v/out")).normal.Contains
      ((strayOutput name).dest (str "/v/out")).normal := by decide
  have hstarted : DirRuns (strayCall true) strayTree [strayEntry] strayStarted := by
    have hvisit : (strayVisit true).1 = .ok (some (strayOutput (str "x.enc"))) := by decide
    have hruns := runs_visit (strayCall true) strayTree strayEntry
    rwa [← strayVisit, hvisit] at hruns
  have hencrypted : DirRuns (strayCall true) strayTree [strayEntry]
      (strayTask.2.finished [] (.ok ())) := by
    have htasks : strayStarted.tasks = [] ++ strayOutput (str "x.enc") :: [] := by decide
    have htask : strayTask = (.ok (), strayTask.2) := Prod.ext (by decide) rfl
    exact .tail hstarted (.task (fun _ => zeroIv) htasks htask)
  have hcopied : DirRuns (strayCall false) strayTree [strayEntry]
      ((strayVisit false).2.visited [] (.ok none)) := by
    have hvisit : (strayVisit false).1 = .ok none := by decide
    have hruns := runs_visit (strayCall false) strayTree strayEntry
    rwa [← strayVisit, hvisit] at hruns
  constructor
  · decide
  constructor
  · refine ⟨_, hencrypted, ?_, ?_, ?_⟩
    · decide
    · decide
    · intro h
      exact hoff _ (by simp) (h (strayOutput (str "x.enc")) (by decide))
  · refine ⟨_, hcopied, ?_, ?_, ?_⟩
    · decide
    · decide
    · intro h
      exact hoff _ (by simp) (h (strayOutput (str "x")) (by decide))

/-- A source with a link to a file of its own. -/
def innerTree : LinkedFs :=
  ((LinkedTree.ofTree (treeOf [([str "src", str "x"], fileX)])).createSymlink
    [str "src", str "l"] (pathParts (str "x"))).getD (.ofTree .empty)

example : StaysBelow (strayCall true) innerTree strayEntry := by
  intro base p c hbase hp _ _
  have hbase' : (strayCall true).env.find innerTree (strayCall true).srcPath =
      .ok [str "src"] := by decide
  have hp' : (strayCall true).env.find innerTree (strayEntry.path (strayCall true).srcPath) =
      .ok [str "src", str "x"] := by decide
  cases hbase'.symm.trans hbase
  cases hp'.symm.trans hp
  decide

end TrustFlow.Proxy
