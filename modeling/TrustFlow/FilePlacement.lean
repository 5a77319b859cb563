import TrustFlow.FileTree

/-! # Placing files in a tree

A set of items, each with a location where a file for it is to be placed.  The
directories on the way are made and the files are written in any order; the
results here say when that cannot fail, and what the tree has at every location
while it is done. -/

namespace TrustFlow

/-- A node without the content of a file. -/
def Node.kind {γ : Type} : Node γ → Node Unit
  | .file _ => .file ()
  | .dir => .dir
  | .other => .other

namespace FileTree

variable {ν γ : Type}

/-- A file can be written at `p` once the missing directories on the way are made. -/
structure RoomFor (t : FileTree ν γ) (p : Location ν) : Prop where
  above : ∀ q, q <+: p.dropLast → t.node q = none ∨ t.node q = some .dir
  last : t.node p = none ∨ ∃ c, t.node p = some (.file c)

instance [DecidableEq ν] [DecidableEq γ] (t : FileTree ν γ) (p : Location ν) :
    Decidable (t.RoomFor p) :=
  decidable_of_iff ((∀ q ∈ p.dropLast.inits, t.node q = none ∨ t.isDirectory q = true) ∧
    (t.node p = none ∨ (t.fileAt p).isSome = true)) <| by
    simp only [List.mem_inits, isDirectory_iff, Option.isSome_iff_exists, fileAt_eq_some]
    exact ⟨fun h => ⟨h.1, h.2⟩, fun h => ⟨h.above, h.last⟩⟩

/-- Nothing is removed, and nothing changes between file, directory and other. -/
def KindsKept (t t' : FileTree ν γ) : Prop :=
  ∀ p n, t.node p = some n → ∃ n', t'.node p = some n' ∧ n'.kind = n.kind

section Kinds

variable {t t' t'' : FileTree ν γ} {p q : Location ν} {c : γ}

theorem KindsKept.refl (t : FileTree ν γ) : KindsKept t t :=
  fun _ n h => ⟨n, h, rfl⟩

theorem KindsKept.trans (h : KindsKept t t') (h' : KindsKept t' t'') : KindsKept t t'' := by
  intro p n hp
  obtain ⟨n', hp', hkind⟩ := h p n hp
  obtain ⟨n'', hp'', hkind'⟩ := h' p n' hp'
  exact ⟨n'', hp'', hkind'.trans hkind⟩

theorem KindsKept.file (h : KindsKept t t') (hp : t.node p = some (.file c)) :
    ∃ c', t'.node p = some (.file c') := by
  obtain ⟨n, hn, hkind⟩ := h p _ hp
  cases n with
  | file c' => exact ⟨c', hn⟩
  | dir | other => cases hkind

theorem KindsKept.dir (h : KindsKept t t') (hp : t.node p = some .dir) :
    t'.node p = some .dir := by
  obtain ⟨n, hn, hkind⟩ := h p _ hp
  cases n with
  | dir => exact hn
  | file _ | other => cases hkind

theorem KindsKept.createDirectories [DecidableEq ν] (h : t.createDirectories p = some t') :
    KindsKept t t' := by
  intro q n hq
  rw [node_createDirectories h]
  split
  next hpre =>
    rcases createDirectories_room h hpre with hnone | hdir
    · simp [hq] at hnone
    · rw [hq] at hdir
      cases hdir
      exact ⟨.dir, rfl, rfl⟩
  next => exact ⟨n, hq, rfl⟩

theorem KindsKept.writeFile [DecidableEq ν] (h : t.writeFile p c = some t') :
    KindsKept t t' := by
  intro q n hq
  rw [node_writeFile h]
  split
  next heq =>
    -- Only a file is overwritten.
    rcases writeFile_room h with hnone | ⟨c', hfile⟩
    · simp [← heq, hq] at hnone
    · rw [← heq, hq] at hfile
      cases hfile
      exact ⟨.file c, rfl, rfl⟩
  next => exact ⟨n, hq, rfl⟩

/-- The parent of `p`, made if it is missing. -/
def ensureParent [DecidableEq ν] (t : FileTree ν γ) (p : Location ν) : Option (FileTree ν γ) :=
  if t.node p.dropLast = none then t.createDirectories p.dropLast else some t

theorem KindsKept.ensureParent [DecidableEq ν] (h : t.ensureParent p = some t') :
    KindsKept t t' := by
  rw [FileTree.ensureParent] at h
  split at h
  · exact .createDirectories h
  · cases h
    exact .refl _

theorem fileAt_ensureParent [DecidableEq ν] (h : t.ensureParent p = some t') :
    t'.fileAt q = t.fileAt q := by
  rw [ensureParent] at h
  split at h
  · exact fileAt_createDirectories h
  · cases h
    rfl

theorem node_above_file (h : t.node p = some (.file c)) (hq : q <+: p.dropLast) :
    t.node q = some .dir := by
  have hne : p ≠ [] := by
    rintro rfl
    simp [t.root] at h
  obtain ⟨rest, hrest⟩ := hq
  have hp : q ++ (rest ++ [p.getLast hne]) = p := by
    rw [← List.append_assoc, hrest, List.dropLast_append_getLast hne]
  apply node_of_under (List.append_ne_nil_of_right_ne_nil rest (List.cons_ne_nil _ []))
  rw [hp, h]
  exact Option.some_ne_none _

/-! A file that is there can be written again, and its directories are there as well. -/

theorem exists_writeFile_of_file [DecidableEq ν] (h : t.node p = some (.file c)) (c' : γ) :
    ∃ t', t.writeFile p c' = some t' :=
  exists_writeFile c' (node_above_file h List.prefix_rfl) (.inr ⟨c, h⟩)

theorem ensureParent_of_file [DecidableEq ν] (h : t.node p = some (.file c)) :
    t.ensureParent p = some t := by
  rw [ensureParent, if_neg]
  simp [node_above_file h List.prefix_rfl]

theorem exists_createDirectories_of_dir [DecidableEq ν] (h : t.node p = some .dir) :
    ∃ t', t.createDirectories p = some t' := by
  apply exists_createDirectories
  rintro q ⟨rest, rfl⟩
  right
  by_cases hrest : rest = []
  · rw [hrest, List.append_nil] at h
    exact h
  · apply node_of_under hrest
    rw [h]
    exact Option.some_ne_none _

theorem RoomFor.of_kindsKept (h : KindsKept t t') (hfile : t'.node p = some (.file c)) :
    t.RoomFor p := by
  constructor
  · intro q hq
    have hdir := node_above_file hfile hq
    cases hnode : t.node q with
    | none => exact .inl rfl
    | some n =>
      obtain ⟨n', hn', hkind⟩ := h q n hnode
      rw [hdir] at hn'
      cases hn'
      cases n with
      | dir => exact .inr rfl
      | file _ | other => cases hkind
  · cases hnode : t.node p with
    | none => exact .inl rfl
    | some n =>
      obtain ⟨n', hn', hkind⟩ := h p n hnode
      rw [hfile] at hn'
      cases hn'
      cases n with
      | file c' => exact .inr ⟨c', rfl⟩
      | dir | other => cases hkind

end Kinds

end FileTree

/-! ## Placements -/

/-- The tree before anything is placed, where each item goes, and what may be placed for it. -/
structure Placement (ι ν γ : Type) where
  start : FileTree ν γ
  items : List ι
  target : ι → Location ν
  Good : ι → γ → Prop

namespace Placement

variable {ι ν γ : Type}

/-- Nothing is in the way: neither the tree nor another item. -/
structure Free (P : Placement ι ν γ) : Prop where
  room : ∀ i ∈ P.items, P.start.RoomFor (P.target i)
  apart : ∀ i ∈ P.items, ∀ j ∈ P.items, P.target i <+: P.target j → i = j

instance [DecidableEq ι] [DecidableEq ν] [DecidableEq γ] (P : Placement ι ν γ) :
    Decidable P.Free :=
  decidable_of_iff ((∀ i ∈ P.items, P.start.RoomFor (P.target i)) ∧
    ∀ i ∈ P.items, ∀ j ∈ P.items, P.target i <+: P.target j → i = j)
    ⟨fun h => ⟨h.1, h.2⟩, fun h => ⟨h.room, h.apart⟩⟩

def Placed (P : Placement ι ν γ) (i : ι) (t : FileTree ν γ) : Prop :=
  ∃ c, P.Good i c ∧ t.node (P.target i) = some (.file c)

/-- The tree is the one of the start but for directories on the way and placed files. -/
def Between (P : Placement ι ν γ) (t : FileTree ν γ) : Prop :=
  ∀ p, t.node p = P.start.node p ∨
    (P.start.node p = none ∧ t.node p = some .dir ∧ ∃ i ∈ P.items, p <+: (P.target i).dropLast) ∨
    ∃ i ∈ P.items, p = P.target i ∧ P.Placed i t

/-- A step from `t` to `t'` keeps to the placement, and no directory and no placed file is lost. -/
structure Advances (P : Placement ι ν γ) (t t' : FileTree ν γ) : Prop where
  between : P.Between t'
  dir : ∀ p, t.node p = some .dir → t'.node p = some .dir
  placed : ∀ i ∈ P.items, P.Placed i t → P.Placed i t'

variable {P : Placement ι ν γ} {t t' : FileTree ν γ} {i j : ι} {p q : Location ν} {c : γ}

theorem between_start (P : Placement ι ν γ) : P.Between P.start := fun _ => .inl rfl

theorem Between.advances (h : P.Between t) : P.Advances t t :=
  ⟨h, fun _ hp => hp, fun _ _ hi => hi⟩

theorem Advances.trans {t'' : FileTree ν γ} (h : P.Advances t t') (h' : P.Advances t' t'') :
    P.Advances t t'' where
  between := h'.between
  dir p hp := h'.dir p (h.dir p hp)
  placed i hi hplaced := h'.placed i hi (h.placed i hi hplaced)

theorem Free.target_ne_nil (hP : P.Free) (hi : i ∈ P.items) : P.target i ≠ [] := by
  intro hnil
  have hlast := (hP.room i hi).last
  simp [hnil, P.start.root] at hlast

theorem Free.target_inj (hP : P.Free) (hi : i ∈ P.items) (hj : j ∈ P.items)
    (heq : P.target i = P.target j) : i = j :=
  hP.apart i hi j hj (heq ▸ List.prefix_rfl)

theorem Free.not_above (hP : P.Free) (hi : i ∈ P.items) (hj : j ∈ P.items) :
    ¬ P.target i <+: (P.target j).dropLast := by
  intro hpre
  obtain rfl := hP.apart i hi j hj (hpre.trans (List.dropLast_prefix _))
  have hlen := hpre.length_le
  have hpos := List.length_pos_of_ne_nil (hP.target_ne_nil hi)
  rw [List.length_dropLast] at hlen
  omega

theorem Between.above (hP : P.Free) (h : P.Between t) (hi : i ∈ P.items)
    (hq : q <+: (P.target i).dropLast) : t.node q = none ∨ t.node q = some .dir := by
  rcases h q with hsame | ⟨_, hdir, _⟩ | ⟨j, hj, rfl, _⟩
  · rw [hsame]
    exact (hP.room i hi).above q hq
  · exact .inr hdir
  · exact absurd hq (hP.not_above hj hi)

theorem Between.last (hP : P.Free) (h : P.Between t) (hi : i ∈ P.items) :
    t.node (P.target i) = none ∨ ∃ c, t.node (P.target i) = some (.file c) := by
  rcases h (P.target i) with hsame | ⟨_, _, j, hj, hpre⟩ | ⟨j, hj, heq, c, _, hc⟩
  · rw [hsame]
    exact (hP.room i hi).last
  · exact absurd hpre (hP.not_above hi hj)
  · exact .inr ⟨c, heq ▸ hc⟩

theorem Between.dir_of_start (hP : P.Free) (h : P.Between t) (hp : P.start.node p = some .dir) :
    t.node p = some .dir := by
  rcases h p with hsame | ⟨hnone, _⟩ | ⟨i, hi, rfl, _⟩
  · rw [hsame, hp]
  · simp [hp] at hnone
  · have hlast := (hP.room i hi).last
    simp [hp] at hlast

theorem Between.node_eq (h : P.Between t) (hp : ∀ i ∈ P.items, ¬ p <+: P.target i) :
    t.node p = P.start.node p := by
  rcases h p with hsame | ⟨_, _, i, hi, hpre⟩ | ⟨i, hi, heq, _⟩
  · exact hsame
  · exact absurd (hpre.trans (List.dropLast_prefix _)) (hp i hi)
  · exact absurd (heq ▸ List.prefix_rfl) (hp i hi)

theorem Between.fileAt_eq (h : P.Between t) (hp : ∀ i ∈ P.items, p ≠ P.target i) :
    t.fileAt p = P.start.fileAt p := by
  rcases h p with hsame | ⟨hnone, hdir, _⟩ | ⟨i, hi, heq, _⟩
  · simp only [FileTree.fileAt, hsame]
  · simp only [FileTree.fileAt, hnone, hdir]
  · exact absurd heq (hp i hi)

/-- The files of the finished tree are determined by what may be placed. -/
theorem fileAt_unique (hgood : ∀ i c c', P.Good i c → P.Good i c' → c = c') (h : P.Between t)
    (h' : P.Between t') (hplaced : ∀ i ∈ P.items, P.Placed i t)
    (hplaced' : ∀ i ∈ P.items, P.Placed i t') (p : Location ν) : t.fileAt p = t'.fileAt p := by
  by_cases hp : ∃ i ∈ P.items, p = P.target i
  · obtain ⟨i, hi, rfl⟩ := hp
    obtain ⟨c, hc, hnode⟩ := hplaced i hi
    obtain ⟨c', hc', hnode'⟩ := hplaced' i hi
    rw [FileTree.fileAt_eq_some.mpr hnode, FileTree.fileAt_eq_some.mpr hnode', hgood i c c' hc hc']
  · have hnot : ∀ i ∈ P.items, p ≠ P.target i := fun i hi heq => hp ⟨i, hi, heq⟩
    rw [h.fileAt_eq hnot, h'.fileAt_eq hnot]

section Change

variable [DecidableEq ν]

theorem Between.createDirectories (hP : P.Free) (h : P.Between t) (hi : i ∈ P.items)
    (hq : q <+: (P.target i).dropLast) :
    ∃ t', t.createDirectories q = some t' ∧ P.Advances t t' ∧ t'.node q = some .dir := by
  obtain ⟨t', ht'⟩ := FileTree.exists_createDirectories fun r hr =>
    h.above hP hi (hr.trans hq)
  have hnode : ∀ r, t'.node r = if r <+: q then some .dir else t.node r :=
    fun r => FileTree.node_createDirectories ht'
  have hplaced : ∀ j ∈ P.items, P.Placed j t → P.Placed j t' := by
    rintro j hj ⟨c, hgood, hc⟩
    refine ⟨c, hgood, ?_⟩
    rw [hnode, if_neg fun hpre => hP.not_above hj hi (hpre.trans hq), hc]
  refine ⟨t', ht', ⟨fun r => ?_, fun r hr => ?_, hplaced⟩, by rw [hnode, if_pos List.prefix_rfl]⟩
  · by_cases hr : r <+: q
    · rcases h.above hP hi (hr.trans hq) with hnone | hdir
      · rcases h r with hsame | ⟨hstart, _⟩ | ⟨j, hj, rfl, _⟩
        · exact .inr (.inl ⟨hsame ▸ hnone, by rw [hnode, if_pos hr], i, hi, hr.trans hq⟩)
        · exact .inr (.inl ⟨hstart, by rw [hnode, if_pos hr], i, hi, hr.trans hq⟩)
        · exact absurd (hr.trans hq) (hP.not_above hj hi)
      · rw [show t'.node r = t.node r by rw [hnode, if_pos hr, hdir]]
        exact (h r).imp_right (.imp_right fun ⟨j, hj, heq, hj'⟩ => ⟨j, hj, heq, hplaced j hj hj'⟩)
    · rw [show t'.node r = t.node r by rw [hnode, if_neg hr]]
      exact (h r).imp_right (.imp_right fun ⟨j, hj, heq, hj'⟩ => ⟨j, hj, heq, hplaced j hj hj'⟩)
  · rw [hnode]
    split
    · rfl
    · exact hr

theorem Between.ensureParent (hP : P.Free) (h : P.Between t) (hi : i ∈ P.items)
    (hp : p.dropLast <+: (P.target i).dropLast) :
    ∃ t', t.ensureParent p = some t' ∧ P.Advances t t' ∧ t'.node p.dropLast = some .dir := by
  by_cases hnone : t.node p.dropLast = none
  · obtain ⟨t', ht', hadv, hdir⟩ := h.createDirectories hP hi hp
    exact ⟨t', by rw [FileTree.ensureParent, if_pos hnone, ht'], hadv, hdir⟩
  · have hdir := (h.above hP hi hp).resolve_left hnone
    exact ⟨t, by rw [FileTree.ensureParent, if_neg hnone], h.advances, hdir⟩

theorem Between.writeFile (hP : P.Free) (h : P.Between t) (hi : i ∈ P.items) (hgood : P.Good i c)
    (hdir : t.node (P.target i).dropLast = some .dir) :
    ∃ t', t.writeFile (P.target i) c = some t' ∧ P.Advances t t' ∧ P.Placed i t' := by
  obtain ⟨t', ht'⟩ := FileTree.exists_writeFile c hdir (h.last hP hi)
  have hnode : ∀ r, t'.node r = if r = P.target i then some (.file c) else t.node r :=
    fun r => FileTree.node_writeFile ht'
  have hwritten : P.Placed i t' := ⟨c, hgood, by rw [hnode, if_pos rfl]⟩
  have hplaced : ∀ j ∈ P.items, P.Placed j t → P.Placed j t' := by
    rintro j hj ⟨c', hgood', hc'⟩
    by_cases heq : P.target j = P.target i
    · obtain rfl := hP.target_inj hj hi heq
      exact hwritten
    · exact ⟨c', hgood', by rw [hnode, if_neg heq, hc']⟩
  refine ⟨t', ht', ⟨fun r => ?_, fun r hr => ?_, hplaced⟩, hwritten⟩
  · by_cases heq : r = P.target i
    · exact .inr (.inr ⟨i, hi, heq, hwritten⟩)
    · rw [show t'.node r = t.node r by rw [hnode, if_neg heq]]
      exact (h r).imp_right (.imp_right fun ⟨j, hj, heq, hj'⟩ => ⟨j, hj, heq, hplaced j hj hj'⟩)
  · rw [hnode, if_neg, hr]
    rintro rfl
    have hlast := h.last hP hi
    simp [hr] at hlast

end Change

/-- When every item has its own file in the end, nothing was in the way. -/
theorem free_of_placed (hkinds : P.start.KindsKept t) (hplaced : ∀ i ∈ P.items, P.Placed i t)
    (hinj : ∀ i ∈ P.items, ∀ j ∈ P.items, P.target i = P.target j → i = j) : P.Free := by
  constructor
  · intro i hi
    obtain ⟨c, _, hc⟩ := hplaced i hi
    exact .of_kindsKept hkinds hc
  · intro i hi j hj hpre
    obtain ⟨ci, _, hci⟩ := hplaced i hi
    obtain ⟨cj, _, hcj⟩ := hplaced j hj
    obtain ⟨rest, hrest⟩ := hpre
    cases rest with
    | nil => exact hinj i hi j hj (by rw [← hrest, List.append_nil])
    | cons x xs =>
      -- A file with something under it would be a directory.
      have hdir := t.node_of_under (List.cons_ne_nil x xs) (by rw [hrest, hcj]; simp)
      simp [hci] at hdir

end Placement

end TrustFlow
