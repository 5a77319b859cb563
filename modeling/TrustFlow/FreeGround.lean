import TrustFlow.LinkedTree

/-! # Paths over free ground

Where nothing is in the way, making the directories of a path succeeds, and the path then leads
where its elements say.

* `Straight` — elements that meet directories only, and no links;
* `Clear` — below a location there are at most directories;
* `createElems_clear` — what is made of the elements of a path on clear ground. -/

namespace TrustFlow.LinkedTree

variable {ν γ : Type} {t t' : LinkedTree ν γ} {dir z : Location ν} {e : PathElem ν}
  {es es' : List (PathElem ν)} {limit : Nat}

/-- Where an element leads if it is no link. -/
def step (dir : Location ν) : PathElem ν → Location ν
  | .empty => dir
  | .dot => dir
  | .dotdot => dir.dropLast
  | .name n => dir ++ [n]

theorem foldl_step_names (dir : Location ν) (names : List ν) :
    (names.map PathElem.name).foldl step dir = dir ++ names := by
  induction names generalizing dir with
  | nil => simp
  | cons n names ih => simp [step, ih]

theorem foldl_step_ups (dir : Location ν) (k : Nat) :
    (List.replicate k PathElem.dotdot).foldl step dir = dir.take (dir.length - k) := by
  induction k generalizing dir with
  | zero => simp
  | succ k ih =>
    rw [List.replicate_succ, List.foldl_cons, ih, step, List.dropLast_eq_take, List.take_take,
      List.length_take]
    congr 1
    omega

/-! ## Straight paths -/

def Straight (t : LinkedTree ν γ) : Location ν → List (PathElem ν) → Prop
  | _, [] => True
  | dir, e :: es =>
    t.node dir = some .dir ∧ (∀ n, e = .name n → t.link (dir ++ [n]) = none) ∧
      t.Straight (step dir e) es

theorem straight_append :
    t.Straight dir (es ++ es') ↔ t.Straight dir es ∧ t.Straight (es.foldl step dir) es' := by
  induction es generalizing dir with
  | nil => simp [Straight]
  | cons e es ih => simp [Straight, ih, and_assoc]

theorem Straight.mono (h : t.Straight dir es) (hgrows : Grows t t') : t'.Straight dir es := by
  induction es generalizing dir with
  | nil => trivial
  | cons e es ih => exact ⟨hgrows.kept.dir h.1, by rw [hgrows.link]; exact h.2.1, ih h.2.2⟩

theorem Straight.walkWith {follow : Location ν → List (PathElem ν) → Except WalkError (Location ν)}
    (h : t.Straight dir es) : t.walkWith follow dir es = .ok (es.foldl step dir) := by
  induction es generalizing dir with
  | nil => rfl
  | cons e es ih =>
    simp only [LinkedTree.walkWith, if_pos (FileTree.isDirectory_iff.mpr h.1)]
    cases e with
    | empty | dot | dotdot => exact ih h.2.2
    | name n =>
      simp only [h.2.1 n rfl]
      exact ih h.2.2

theorem Straight.walk (h : t.Straight dir es) :
    t.walk limit dir es = .ok (es.foldl step dir) := by
  cases limit with
  | zero => exact h.walkWith
  | succ limit => exact h.walkWith

/-! ## Clear ground -/

/-- Below a location there are at most directories. -/
def Clear (t : LinkedTree ν γ) (z : Location ν) : Prop :=
  ∀ p, z <+: p → t.node p = none ∨ t.node p = some .dir

theorem Clear.link (h : t.Clear z) {p : Location ν} (hp : z <+: p) : t.link p = none := by
  cases hlink : t.link p with
  | none => rfl
  | some target =>
    have hother := t.link_other p target hlink
    rcases h p hp with hnode | hnode <;> simp [hother] at hnode

/-- A location that is free has clear ground below it. -/
theorem node_of_free {p : Location ν} (h : t.node z = none) (hp : z <+: p) : t.node p = none := by
  obtain ⟨rest, rfl⟩ := hp
  by_cases hrest : rest = []
  · rwa [hrest, List.append_nil]
  · by_contra hnode
    have hdir := FileTree.node_of_under hrest hnode
    rw [h] at hdir
    cases hdir

/-- The names among the elements lead to locations below `z`. -/
def StepsBelow (z : Location ν) : Location ν → List (PathElem ν) → Prop
  | _, [] => True
  | dir, e :: es => (∀ n, e = .name n → z <+: dir ++ [n]) ∧ StepsBelow z (step dir e) es

theorem stepsBelow_append :
    StepsBelow z dir (es ++ es') ↔ StepsBelow z dir es ∧ StepsBelow z (es.foldl step dir) es' := by
  induction es generalizing dir with
  | nil => simp [StepsBelow]
  | cons e es ih => simp [StepsBelow, ih, and_assoc]

theorem stepsBelow_names {names : List ν} (h : z <+: dir) :
    StepsBelow z dir (names.map .name) := by
  induction names generalizing dir with
  | nil => trivial
  | cons n names ih =>
    have hnext := h.trans (List.prefix_append dir [n])
    refine ⟨fun m hm => ?_, ih hnext⟩
    cases hm
    exact hnext

theorem stepsBelow_ups (z dir : Location ν) (k : Nat) :
    StepsBelow z dir (List.replicate k .dotdot) := by
  induction k generalizing dir with
  | zero => trivial
  | succ k ih => exact ⟨fun _ hn => (by cases hn), ih _⟩

/-! ## Where a path can lead -/

/-- What a path leads to lies in a directory. -/
theorem node_dropLast_of_walkWith
    {follow : Location ν → List (PathElem ν) → Except WalkError (Location ν)} {p : Location ν}
    (hfollow : ∀ dir es, t.node dir = some .dir → follow dir es = .ok p →
      t.node p.dropLast = some .dir)
    (hdir : t.node dir.dropLast = some .dir) (h : t.walkWith follow dir es = .ok p) :
    t.node p.dropLast = some .dir := by
  induction es generalizing dir with
  | nil =>
    cases h
    exact hdir
  | cons e es ih =>
    simp only [walkWith] at h
    split at h
    next hthere =>
      rw [FileTree.isDirectory_iff] at hthere
      cases e with
      | empty | dot => exact ih hdir h
      | dotdot => exact ih (node_dropLast hdir) h
      | name n =>
        cases htarget : t.link (dir ++ [n]) with
        | none =>
          simp only [htarget] at h
          exact ih (by rwa [List.dropLast_concat]) h
        | some target =>
          simp only [htarget] at h
          refine hfollow _ _ ?_ h
          split
          · exact t.root
          · exact hthere
    next => cases h

theorem node_dropLast_of_walk {p : Location ν} (hdir : t.node dir.dropLast = some .dir)
    (h : t.walk limit dir es = .ok p) : t.node p.dropLast = some .dir := by
  induction limit generalizing dir es with
  | zero =>
    refine node_dropLast_of_walkWith ?_ hdir h
    intro dir es _ hfollow
    cases hfollow
  | succ limit ih =>
    exact node_dropLast_of_walkWith (fun dir es hdir => ih (node_dropLast hdir)) hdir h

theorem walk_cons_of_not_dir (h : t.node dir ≠ some .dir) :
    t.walk limit dir (e :: es) = .error .notFound := by
  have hdir : ¬ t.isDirectory dir = true := fun hdir => h (FileTree.isDirectory_iff.mp hdir)
  cases limit with
  | zero => exact if_neg hdir
  | succ limit => exact if_neg hdir

/-- A path does not lead on from a free location. -/
theorem walk_of_free {n : ν} (hdir : t.node dir = some .dir) (hfree : t.node (dir ++ [n]) = none) :
    t.walk limit dir (.name n :: e :: es) = .error .notFound := by
  have hthere : t.isDirectory dir = true := FileTree.isDirectory_iff.mpr hdir
  have hnext : ¬ t.isDirectory (dir ++ [n]) = true := fun hnext => by
    rw [FileTree.isDirectory_iff, hfree] at hnext
    cases hnext
  have hlink : t.link (dir ++ [n]) = none := by
    cases hlink : t.link (dir ++ [n]) with
    | none => rfl
    | some target =>
      have hother := t.link_other _ target hlink
      rw [hfree] at hother
      cases hother
  cases limit <;> simp only [walk, walkWith, if_pos hthere, hlink, if_neg hnext]

theorem node_dropLast_of_find [DecidableEq ν] {cwd p : Location ν} {path : PathParts ν}
    (h : t.find limit cwd path = .ok p) : t.node p.dropLast = some .dir := by
  unfold find at h
  split at h
  next => cases h
  next hne =>
    obtain ⟨absolute, elems⟩ := path
    cases elems with
    | nil =>
      cases absolute with
      | true => exact node_dropLast_of_walk (node_dropLast t.root) h
      | false => exact absurd rfl hne
    | cons e es =>
      by_cases hdir : t.node (origin cwd ⟨absolute, e :: es⟩) = some .dir
      · exact node_dropLast_of_walk (node_dropLast hdir) h
      · rw [walk_cons_of_not_dir hdir] at h
        cases h

/-- A file is not above what a path leads to. -/
theorem eq_of_file_above [DecidableEq ν] {cwd p base : Location ν} {path : PathParts ν} {c : γ}
    (hbase : t.find limit cwd path = .ok base) (hp : t.node p = some (.file c))
    (habove : p <+: base) : p = base := by
  rcases List.eq_nil_or_concat' base with rfl | ⟨front, n, rfl⟩
  · exact List.prefix_nil.mp habove
  · refine (List.prefix_concat_iff.mp habove).resolve_right ?_
    rintro ⟨rest, rfl⟩
    have hdir := node_dropLast_of_find hbase
    rw [List.dropLast_concat] at hdir
    -- Everything above a place that a path leads to is a directory.
    by_cases hrest : rest = []
    · rw [hrest, List.append_nil, hp] at hdir
      cases hdir
    · have habove := FileTree.node_of_under hrest (by rw [hdir]; exact Option.some_ne_none _)
      rw [hp] at habove
      cases habove

/-! ## Making directories -/

/-- What is made of the elements of a path from a directory on. -/
structure Made (z dir : Location ν) (es : List (PathElem ν)) (t t' : LinkedTree ν γ) : Prop where
  grows : Grows t t'
  clear : t'.Clear z
  fileAt : ∀ p, t'.fileAt p = t.fileAt p
  straight : t'.Straight dir es
  last : t'.node (es.foldl step dir) = some .dir
  made : ∀ p, t'.node p ≠ none → t.node p ≠ none ∨
    ∃ front, front <+: es ∧ p = front.foldl step dir

theorem Made.append {t'' : LinkedTree ν γ} (h : Made z dir es t t')
    (h' : Made z (es.foldl step dir) es' t' t'') : Made z dir (es ++ es') t t'' where
  grows := h.grows.trans h'.grows
  clear := h'.clear
  fileAt p := (h'.fileAt p).trans (h.fileAt p)
  straight := straight_append.mpr ⟨h.straight.mono h'.grows, h'.straight⟩
  last := by
    rw [List.foldl_append]
    exact h'.last
  made p hp := by
    rcases h'.made p hp with hp | ⟨front, hfront, rfl⟩
    · rcases h.made p hp with hp | ⟨front, hfront, rfl⟩
      · exact .inl hp
      · exact .inr ⟨front, hfront.trans (List.prefix_append es es'), rfl⟩
    · exact .inr ⟨es ++ front, (List.prefix_append_right_inj es).mpr hfront, by simp⟩

variable [DecidableEq ν]

theorem node_makeDir {p q : Location ν} (h : t.makeDir p = some t') :
    t'.node q = if q <+: p then some .dir else t.node q := by
  unfold makeDir at h
  split at h
  next => cases h
  next hmade =>
    cases h
    exact FileTree.node_createDirectories hmade

theorem fileAt_makeDir {p q : Location ν} (h : t.makeDir p = some t') :
    t'.fileAt q = t.fileAt q := by
  unfold makeDir at h
  split at h
  next => cases h
  next hmade =>
    cases h
    exact FileTree.fileAt_createDirectories hmade

/-- Making directories leaves the files as they are. -/
theorem fileAt_createElems (limit : Nat) (start : Location ν) (done es : List (PathElem ν))
    (t : LinkedTree ν γ) (p : Location ν) :
    (createElems limit start done es t).2.fileAt p = t.fileAt p := by
  induction es generalizing done t with
  | nil => rfl
  | cons e rest ih =>
    unfold createElems
    split
    next => rfl
    next =>
      split
      next => exact ih _ t
      next => rfl
      next =>
        split
        next =>
          split
          next => rfl
          next =>
            split
            next => rfl
            next made hmade => exact (ih _ made).trans (fileAt_makeDir hmade)
        next => rfl

theorem exists_makeDir {n : ν} (hdir : t.node dir = some .dir)
    (hfree : t.node (dir ++ [n]) = none) :
    ∃ t', t.makeDir (dir ++ [n]) = some t' := by
  have hroom : ∀ q, q <+: dir ++ [n] → t.node q = none ∨ t.node q = some .dir := by
    intro q hq
    rcases List.prefix_concat_iff.mp hq with rfl | ⟨rest, rfl⟩
    · exact .inl hfree
    · right
      by_cases hrest : rest = []
      · rwa [hrest, List.append_nil] at hdir
      · exact FileTree.node_of_under hrest (by rw [hdir]; exact Option.some_ne_none _)
  obtain ⟨made, hmade⟩ := FileTree.exists_createDirectories hroom
  unfold makeDir
  split
  next hnone => rw [hmade] at hnone; cases hnone
  next => exact ⟨_, rfl⟩

/-- A directory that is made where its parent is one. -/
theorem Made.makeDir {n : ν} (hclear : t.Clear z) (hz : z <+: dir ++ [n])
    (hdir : t.node dir = some .dir) (h : t.makeDir (dir ++ [n]) = some t') :
    Made z dir [.name n] t t' where
  grows := .makeDir h
  clear p hp := by
    rw [node_makeDir h]
    split
    · exact .inr rfl
    · exact hclear p hp
  fileAt p := fileAt_makeDir h
  straight := by
    refine ⟨(Grows.makeDir h).kept.dir hdir, ?_, trivial⟩
    rintro m heq
    cases heq
    rw [(Grows.makeDir h).link]
    exact hclear.link hz
  last := by
    rw [node_makeDir h]
    exact if_pos List.prefix_rfl
  made p hp := by
    rw [node_makeDir h] at hp
    split at hp
    next hprefix =>
      rcases List.prefix_concat_iff.mp hprefix with rfl | ⟨rest, rfl⟩
      · exact .inr ⟨[.name n], List.prefix_rfl, rfl⟩
      · left
        by_cases hrest : rest = []
        · simp [hrest] at hdir
          simp [hdir]
        · rw [FileTree.node_of_under hrest (by rw [hdir]; exact Option.some_ne_none _)]
          exact Option.some_ne_none _
    next => exact .inl hp

/-- On clear ground all directories of a path can be made. -/
theorem createElems_clear {start : Location ν} {done : List (PathElem ν)} (hclear : t.Clear z)
    (hdone : t.Straight start done) (hdir : t.node (done.foldl step start) = some .dir)
    (hsteps : StepsBelow z (done.foldl step start) es) :
    ∃ t', createElems limit start done es t = (true, t') ∧
      Made z (done.foldl step start) es t t' := by
  induction es generalizing done t with
  | nil =>
    exact ⟨t, rfl, .refl t, hclear, fun _ => rfl, trivial, hdir, fun _ => .inl⟩
  | cons e es ih =>
    have hlink : ∀ n, e = .name n → t.link (done.foldl step start ++ [n]) = none := fun n hn =>
      hclear.link (hsteps.1 n hn)
    have hone : t.Straight (done.foldl step start) [e] := ⟨hdir, hlink, trivial⟩
    have hnext : (done ++ [e]).foldl step start = step (done.foldl step start) e := by simp
    have hwalk : t.walk limit start (done ++ [e]) = .ok (step (done.foldl step start) e) := by
      rw [(straight_append.mpr ⟨hdone, hone⟩).walk, hnext]
    have hrest : StepsBelow z ((done ++ [e]).foldl step start) es := hnext ▸ hsteps.2
    -- What is there already is a directory; otherwise the element is a name, and free.
    by_cases hthere : t.node (step (done.foldl step start) e) = some .dir
    · obtain ⟨t', hmake, hmade⟩ := ih hclear (straight_append.mpr ⟨hdone, hone⟩)
        (hnext.symm ▸ hthere) hrest
      have hfirst : Made z (done.foldl step start) [e] t t :=
        ⟨.refl t, hclear, fun _ => rfl, hone, hthere, fun _ => .inl⟩
      rw [hnext] at hmade
      refine ⟨t', ?_, hfirst.append hmade⟩
      simp only [createElems, hwalk, hthere]
      exact hmake
    · obtain ⟨n, rfl⟩ : ∃ n, e = .name n := by
        cases e with
        | empty | dot => exact absurd hdir hthere
        | dotdot => exact absurd (node_dropLast hdir) hthere
        | name n => exact ⟨n, rfl⟩
      have hfree := (hclear _ (hsteps.1 n rfl)).resolve_right hthere
      obtain ⟨t₁, hmakeDir⟩ := exists_makeDir hdir hfree
      have hfirst := Made.makeDir hclear (hsteps.1 n rfl) hdir hmakeDir
      obtain ⟨t', hmake, hmade⟩ := ih hfirst.clear
        (straight_append.mpr ⟨hdone.mono hfirst.grows, hfirst.straight⟩)
        (hnext.symm ▸ hfirst.last) hrest
      rw [hnext] at hmade
      refine ⟨t', ?_, hfirst.append hmade⟩
      simp only [step] at hwalk hfree
      simp only [createElems, hwalk, hfree, hdone.walk, hlink n rfl, hmakeDir]
      exact hmake

end TrustFlow.LinkedTree
