import TrustFlow.FilePlacement
import TrustFlow.LexicalPath

/-! # File trees with symbolic links

A file tree some of whose nodes are symbolic links, and what an operating system makes of
a path in it.  Making directories and files leaves the links alone, so where a path leads
stays the same while the tree grows.

* `walk` — the location that the elements of a path lead to, which may itself be free;
* `createDirectories` — the missing directories of a path;
* `writeTo` — a file at a path;
* `Grows.walk` — a path that leads somewhere goes on leading there. -/

namespace TrustFlow

structure LinkedTree (ν γ : Type) extends FileTree ν γ where
  link : Location ν → Option (PathParts ν)
  link_other : ∀ p target, link p = some target → node p = some .other

/-- Why a path leads nowhere: something on the way is missing or no directory, or there are more
    links than the operating system follows. -/
inductive WalkError where
  | notFound
  | tooManyLinks
deriving DecidableEq

namespace LinkedTree

variable {ν γ : Type}

/-! ## Walking -/

/-- Takes the elements one by one; `follow` takes over at a link. -/
def walkWith (t : LinkedTree ν γ)
    (follow : Location ν → List (PathElem ν) → Except WalkError (Location ν)) :
    Location ν → List (PathElem ν) → Except WalkError (Location ν)
  | dir, [] => .ok dir
  | dir, e :: es =>
    if t.isDirectory dir then
      match e with
      | .empty => walkWith t follow dir es
      | .dot => walkWith t follow dir es
      | .dotdot => walkWith t follow dir.dropLast es
      | .name n =>
        match t.link (dir ++ [n]) with
        | none => walkWith t follow (dir ++ [n]) es
        | some target => follow (if target.absolute then [] else dir) (target.elems ++ es)
    else .error .notFound

/-- The location that elements lead to from a directory, through at most `limit` links. -/
def walk (t : LinkedTree ν γ) : Nat → Location ν → List (PathElem ν) →
    Except WalkError (Location ν)
  | 0 => t.walkWith fun _ _ => .error .tooManyLinks
  | limit + 1 => t.walkWith (t.walk limit)

def origin (cwd : Location ν) (path : PathParts ν) : Location ν :=
  if path.absolute then [] else cwd

/-- Nothing is removed, and nothing changes between file, directory, link and other. -/
structure Grows (t t' : LinkedTree ν γ) : Prop where
  kept : t.toFileTree.KindsKept t'.toFileTree
  link : t'.link = t.link

section Walk

variable {t t' t'' : LinkedTree ν γ} {p dir : Location ν} {limit : Nat} {es : List (PathElem ν)}
  {e : PathElem ν}

theorem Grows.refl (t : LinkedTree ν γ) : Grows t t := ⟨.refl _, rfl⟩

theorem Grows.trans (h : Grows t t') (h' : Grows t' t'') : Grows t t'' :=
  ⟨h.kept.trans h'.kept, h'.link.trans h.link⟩

theorem Grows.isDirectory (h : Grows t t') (hdir : t.isDirectory dir = true) :
    t'.isDirectory dir = true := by
  rw [FileTree.isDirectory_iff] at hdir ⊢
  obtain ⟨n, hn, hkind⟩ := h.kept dir .dir hdir
  cases n with
  | dir => exact hn
  | file | other => cases hkind

theorem Grows.walkWith (h : Grows t t')
    {follow follow' : Location ν → List (PathElem ν) → Except WalkError (Location ν)}
    (hfollow : ∀ dir es p, follow dir es = .ok p → follow' dir es = .ok p)
    (hwalk : t.walkWith follow dir es = .ok p) : t'.walkWith follow' dir es = .ok p := by
  induction es generalizing dir with
  | nil => exact hwalk
  | cons e es ih =>
    simp only [LinkedTree.walkWith] at hwalk ⊢
    split at hwalk
    next hdir =>
      rw [if_pos (h.isDirectory hdir)]
      cases e with
      | empty | dot | dotdot => exact ih hwalk
      | name n =>
        simp only [h.link] at hwalk ⊢
        cases htarget : t.link (dir ++ [n]) with
        | none =>
          simp only [htarget] at hwalk ⊢
          exact ih hwalk
        | some target =>
          simp only [htarget] at hwalk ⊢
          exact hfollow _ _ p hwalk
    next => cases hwalk

theorem Grows.walk (h : Grows t t') (hwalk : t.walk limit dir es = .ok p) :
    t'.walk limit dir es = .ok p := by
  induction limit generalizing dir es p with
  | zero =>
    refine h.walkWith ?_ hwalk
    intro dir es p hfollow
    cases hfollow
  | succ limit ih => exact h.walkWith (fun dir es p => ih) hwalk

theorem node_dropLast (h : t.node dir = some .dir) : t.node dir.dropLast = some .dir := by
  rcases List.eq_nil_or_concat' dir with rfl | ⟨front, n, rfl⟩
  · exact h
  · rw [List.dropLast_concat]
    apply t.parent front n
    rw [h]
    exact Option.some_ne_none _

/-- A path that does not end in a name leads to a directory. -/
theorem node_of_walkWith
    {follow : Location ν → List (PathElem ν) → Except WalkError (Location ν)}
    (he : ∀ n, e ≠ .name n)
    (hfollow : ∀ dir es p, follow dir (es ++ [e]) = .ok p → t.node p = some .dir)
    (h : t.walkWith follow dir (es ++ [e]) = .ok p) : t.node p = some .dir := by
  induction es generalizing dir with
  | nil =>
    simp only [List.nil_append, walkWith] at h
    split at h
    next hdir =>
      rw [FileTree.isDirectory_iff] at hdir
      cases e with
      | empty | dot =>
        cases h
        exact hdir
      | dotdot =>
        cases h
        exact node_dropLast hdir
      | name n => exact absurd rfl (he n)
    next => cases h
  | cons e' es ih =>
    simp only [List.cons_append, walkWith] at h
    split at h
    next =>
      cases e' with
      | empty | dot | dotdot => exact ih h
      | name n =>
        cases htarget : t.link (dir ++ [n]) with
        | none =>
          simp only [htarget] at h
          exact ih h
        | some target =>
          simp only [htarget, ← List.append_assoc] at h
          exact hfollow _ _ p h
    next => cases h

theorem node_of_walk (he : ∀ n, e ≠ .name n) (h : t.walk limit dir (es ++ [e]) = .ok p) :
    t.node p = some .dir := by
  induction limit generalizing dir es p with
  | zero =>
    refine node_of_walkWith he ?_ h
    intro dir es p hfollow
    cases hfollow
  | succ limit ih => exact node_of_walkWith he (fun dir es p => ih) h

end Walk

/-! ## Looking -/

variable [DecidableEq ν]

def find (t : LinkedTree ν γ) (limit : Nat) (cwd : Location ν) (path : PathParts ν) :
    Except WalkError (Location ν) :=
  -- The empty path leads nowhere.
  if path = .nil then .error .notFound else t.walk limit (origin cwd path) path.elems

/-- `std::filesystem::status`: what a path leads to, if there is anything. -/
def status (t : LinkedTree ν γ) (limit : Nat) (cwd : Location ν) (path : PathParts ν) :
    Except WalkError (Option (Node γ)) :=
  match t.find limit cwd path with
  | .ok p => .ok (t.node p)
  | .error .notFound => .ok none
  | .error .tooManyLinks => .error .tooManyLinks

/-! ## Changing -/

/-- The same links in a tree that keeps all kinds of nodes. -/
def grown (t : LinkedTree ν γ) (t' : FileTree ν γ) (h : t.toFileTree.KindsKept t') :
    LinkedTree ν γ :=
  { t' with
    link := t.link
    link_other := by
      intro p target hlink
      obtain ⟨n, hn, hkind⟩ := h p .other (t.link_other p target hlink)
      cases n with
      | other => exact hn
      | file | dir => cases hkind }

def makeDir (t : LinkedTree ν γ) (p : Location ν) : Option (LinkedTree ν γ) :=
  match h : t.toFileTree.createDirectories p with
  | none => none
  | some t' => some (t.grown t' (.createDirectories h))

def writeFile (t : LinkedTree ν γ) (p : Location ν) (c : γ) : Option (LinkedTree ν γ) :=
  match h : t.toFileTree.writeFile p c with
  | none => none
  | some t' => some (t.grown t' (.writeFile h))

/-- A tree without links. -/
def ofTree (t : FileTree ν γ) : LinkedTree ν γ :=
  { t with
    link := fun _ => none
    link_other := by
      intro _ _ h
      cases h }

/-- `std::filesystem::create_symlink`. -/
def createSymlink (t : LinkedTree ν γ) (p : Location ν) (target : PathParts ν) :
    Option (LinkedTree ν γ) :=
  if h : t.isDirectory p.dropLast ∧ t.node p = none then
    some {
      node := fun q => if q = p then some .other else t.node q
      listed := (p :: t.listed).dedup
      listed_nodup := List.nodup_dedup _
      mem_listed := by
        intro q hq
        rw [List.mem_dedup, List.mem_cons]
        split at hq
        next heq => exact .inl heq
        next => exact .inr (t.mem_listed q hq)
      root := by
        rw [if_neg, t.root]
        rintro rfl
        simp [t.root] at h
      parent := by
        intro q x hq
        have hdir : t.node q = some .dir := by
          split at hq
          next heq =>
            have hparent := h.1
            rw [← heq, List.dropLast_concat] at hparent
            exact FileTree.isDirectory_iff.mp hparent
          next => exact t.parent q x hq
        rw [if_neg, hdir]
        rintro rfl
        simp [hdir] at h
      link := fun q => if q = p then some target else t.link q
      link_other := by
        intro q target' hlink
        split at hlink
        next heq => rw [if_pos heq]
        next hne => rw [if_neg hne, t.link_other q target' hlink] }
  else none

/-- A file at a path, which takes the place of a file that is there. -/
def writeTo (t : LinkedTree ν γ) (limit : Nat) (cwd : Location ν) (path : PathParts ν) (c : γ) :
    Option (LinkedTree ν γ) :=
  match t.find limit cwd path with
  | .ok p => t.writeFile p c
  | .error _ => none

/-- Goes through the elements and makes what is missing, until something is in the way. -/
def createElems (limit : Nat) (start : Location ν) :
    List (PathElem ν) → List (PathElem ν) → LinkedTree ν γ → Bool × LinkedTree ν γ
  | _, [], t => (true, t)
  | done, e :: rest, t =>
    match t.walk limit start (done ++ [e]) with
    | .error _ => (false, t)
    | .ok p =>
      match t.node p with
      | some .dir => createElems limit start (done ++ [e]) rest t
      | some _ => (false, t)
      | none =>
        match t.walk limit start done, e with
        | .ok dir, .name n =>
          -- A link without a target is in the way of a directory.
          if (t.link (dir ++ [n])).isSome then (false, t)
          else
            match t.makeDir p with
            | none => (false, t)
            | some t' => createElems limit start (done ++ [e]) rest t'
        | _, _ => (false, t)

/-- `std::filesystem::create_directories`, with what it leaves when it fails. -/
def createDirectories (t : LinkedTree ν γ) (limit : Nat) (cwd : Location ν) (path : PathParts ν) :
    Bool × LinkedTree ν γ :=
  if path = .nil then (false, t) else createElems limit (origin cwd path) [] path.elems t

section Changes

variable {t t' : LinkedTree ν γ} {p : Location ν} {c : γ} {limit : Nat} {cwd : Location ν}
  {path : PathParts ν}

theorem Grows.find (h : Grows t t') (hfind : t.find limit cwd path = .ok p) :
    t'.find limit cwd path = .ok p := by
  unfold LinkedTree.find at hfind ⊢
  split at hfind
  next => cases hfind
  next hne =>
    rw [if_neg hne]
    exact h.walk hfind

theorem Grows.makeDir (h : t.makeDir p = some t') : Grows t t' := by
  unfold LinkedTree.makeDir at h
  split at h
  next => cases h
  next made hmade =>
    cases h
    exact ⟨.createDirectories hmade, rfl⟩

theorem Grows.writeFile (h : t.writeFile p c = some t') : Grows t t' := by
  unfold LinkedTree.writeFile at h
  split at h
  next => cases h
  next written hwritten =>
    cases h
    exact ⟨.writeFile hwritten, rfl⟩

theorem Grows.writeTo (h : t.writeTo limit cwd path c = some t') : Grows t t' := by
  unfold LinkedTree.writeTo at h
  split at h
  next => exact .writeFile h
  next => cases h

theorem Grows.createElems (limit : Nat) (start : Location ν) (done es : List (PathElem ν))
    (t : LinkedTree ν γ) : Grows t (createElems limit start done es t).2 := by
  induction es generalizing done t with
  | nil => exact .refl t
  | cons e rest ih =>
    unfold LinkedTree.createElems
    split
    next => exact .refl t
    next =>
      split
      next => exact ih _ t
      next => exact .refl t
      next =>
        split
        next =>
          split
          next => exact .refl t
          next =>
            split
            next => exact .refl t
            next made hmade => exact (Grows.makeDir hmade).trans (ih _ made)
        next => exact .refl t

theorem Grows.createDirectories (t : LinkedTree ν γ) (limit : Nat) (cwd : Location ν)
    (path : PathParts ν) : Grows t (t.createDirectories limit cwd path).2 := by
  unfold LinkedTree.createDirectories
  split
  · exact .refl t
  · exact .createElems limit _ [] _ t

theorem writeFile_dir (h : t.node p = some .dir) : t.writeFile p c = none := by
  unfold LinkedTree.writeFile
  split
  next => rfl
  next hwritten =>
    have hroom := FileTree.writeFile_room hwritten
    simp [h] at hroom

theorem exists_writeFile (hdir : t.node p.dropLast = some .dir)
    (h : t.node p = none ∨ ∃ c', t.node p = some (.file c')) : ∃ t', t.writeFile p c = some t' := by
  obtain ⟨written, hwritten⟩ := FileTree.exists_writeFile c hdir h
  unfold LinkedTree.writeFile
  split
  next hnone =>
    rw [hwritten] at hnone
    cases hnone
  next => exact ⟨_, rfl⟩

/-- What is written to has a name at its end. -/
theorem exists_name_of_writeTo (h : t.writeTo limit cwd path c = some t') (hne : path.elems ≠ []) :
    ∃ front n, path.elems = front ++ [.name n] := by
  obtain ⟨front, e, helems⟩ := (List.eq_nil_or_concat' path.elems).resolve_left hne
  by_cases hname : ∃ n, e = .name n
  · obtain ⟨n, rfl⟩ := hname
    exact ⟨front, n, helems⟩
  · have he : ∀ n, e ≠ .name n := fun n heq => hname ⟨n, heq⟩
    unfold LinkedTree.writeTo at h
    split at h
    next p hfind =>
      unfold LinkedTree.find at hfind
      split at hfind
      next => cases hfind
      next =>
        rw [helems] at hfind
        rw [writeFile_dir (node_of_walk he hfind)] at h
        cases h
    next => cases h

end Changes

end LinkedTree

end TrustFlow
