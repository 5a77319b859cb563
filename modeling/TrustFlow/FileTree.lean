import Mathlib.Data.List.Infix
import Mathlib.Data.List.Nodup
import Mathlib.Data.List.Dedup

/-! # File trees

A file system as a finite map from locations to nodes.  A location is the list of
names from the root on; whatever exists lies in an existing directory, by a field
of the structure.  The operations are those of `std::filesystem` that create and
remove nodes; they return `none` where the library throws. -/

namespace TrustFlow

inductive Node (γ : Type) where
  | file (content : γ)
  | dir
  | other
deriving DecidableEq

abbrev Location (ν : Type) := List ν

structure FileTree (ν γ : Type) where
  node : Location ν → Option (Node γ)
  /-- The locations that may be occupied, in the order in which they are listed. -/
  listed : List (Location ν)
  listed_nodup : listed.Nodup
  mem_listed : ∀ p, node p ≠ none → p ∈ listed
  root : node [] = some .dir
  parent : ∀ p x, node (p ++ [x]) ≠ none → node p = some .dir

namespace FileTree

variable {ν γ : Type} [DecidableEq ν]

def empty : FileTree ν γ where
  node p := if p = [] then some .dir else none
  listed := [[]]
  listed_nodup := List.nodup_singleton _
  mem_listed := by
    intro p hp
    split at hp
    next h => exact List.mem_singleton.mpr h
    next => exact absurd rfl hp
  root := if_pos rfl
  parent := by
    intro p x hp
    rw [if_neg (by simp)] at hp
    exact absurd rfl hp

/-! ## Looking -/

def fileAt (t : FileTree ν γ) (p : Location ν) : Option γ :=
  match t.node p with
  | some (.file c) => some c
  | _ => none

omit [DecidableEq ν] in
theorem fileAt_eq_some {t : FileTree ν γ} {p : Location ν} {c : γ} :
    t.fileAt p = some c ↔ t.node p = some (.file c) := by
  unfold fileAt
  split
  next c' h =>
    rw [h]
    simp
  next h =>
    constructor
    · intro hc
      cases hc
    · intro hc
      exact absurd hc (h c)

def isDirectory (t : FileTree ν γ) (p : Location ν) : Bool :=
  match t.node p with
  | some .dir => true
  | _ => false

omit [DecidableEq ν] in
theorem isDirectory_iff {t : FileTree ν γ} {p : Location ν} :
    t.isDirectory p = true ↔ t.node p = some .dir := by
  unfold isDirectory
  split
  next h => simp [h]
  next h => simpa using h

omit [DecidableEq ν] in
theorem node_of_under {t : FileTree ν γ} {p rest : Location ν} (hrest : rest ≠ [])
    (h : t.node (p ++ rest) ≠ none) : t.node p = some .dir := by
  -- Climb from the occupied location to `p`, one parent at a time.
  induction rest using List.reverseRecOn with
  | nil => exact absurd rfl hrest
  | append_singleton rest x ih =>
    rw [← List.append_assoc] at h
    have hdir := t.parent _ x h
    cases rest with
    | nil => rwa [List.append_nil] at hdir
    | cons y ys =>
      apply ih (List.cons_ne_nil y ys)
      rw [hdir]
      exact Option.some_ne_none _

/-- The regular files at or under a location, relative to it. -/
def regularFiles (t : FileTree ν γ) (root : Location ν) : List (Location ν) :=
  (t.listed.filter fun p => decide (root <+: p) && (t.fileAt p).isSome).map
    fun p => p.drop root.length

theorem mem_regularFiles {t : FileTree ν γ} {root rel : Location ν} :
    rel ∈ t.regularFiles root ↔ ∃ c, t.fileAt (root ++ rel) = some c := by
  simp only [regularFiles, List.mem_map, List.mem_filter, Bool.and_eq_true, decide_eq_true_eq,
    Option.isSome_iff_exists]
  constructor
  · rintro ⟨p, ⟨_, ⟨rest, rfl⟩, c, hc⟩, rfl⟩
    rw [List.drop_left]
    exact ⟨c, hc⟩
  · rintro ⟨c, hc⟩
    have hnode : t.node (root ++ rel) ≠ none := by
      rw [fileAt_eq_some.mp hc]
      exact Option.some_ne_none _
    exact ⟨root ++ rel, ⟨t.mem_listed _ hnode, List.prefix_append _ _, c, hc⟩, List.drop_left⟩

theorem regularFiles_nodup (t : FileTree ν γ) (root : Location ν) :
    (t.regularFiles root).Nodup := by
  apply List.Nodup.map_on _ (t.listed_nodup.filter _)
  intro p hp q hq h
  simp only [List.mem_filter, Bool.and_eq_true, decide_eq_true_eq] at hp hq
  obtain ⟨restP, rfl⟩ := hp.2.1
  obtain ⟨restQ, rfl⟩ := hq.2.1
  rw [List.drop_left, List.drop_left] at h
  rw [h]

/-! ## Changing -/

def roomForDir (t : FileTree ν γ) (p : Location ν) : Bool :=
  match t.node p with
  | none => true
  | some .dir => true
  | _ => false

/-- `std::filesystem::create_directories`: every missing directory on the way. -/
def createDirectories (t : FileTree ν γ) (p : Location ν) : Option (FileTree ν γ) :=
  if p.inits.all t.roomForDir then
    some {
      node := fun q => if q <+: p then some .dir else t.node q
      listed := (t.listed ++ p.inits).dedup
      listed_nodup := List.nodup_dedup _
      mem_listed := by
        intro q hq
        rw [List.mem_dedup, List.mem_append, List.mem_inits]
        split at hq
        next hpre => exact .inr hpre
        next => exact .inl (t.mem_listed q hq)
      root := if_pos List.nil_prefix
      parent := by
        intro q x hq
        split at hq
        next hpre => exact if_pos ((List.prefix_append q [x]).trans hpre)
        next =>
          split
          · rfl
          · exact t.parent q x hq }
  else none

def roomForFile (t : FileTree ν γ) (p : Location ν) : Bool :=
  match t.node p with
  | none => true
  | some (.file _) => true
  | _ => false

def writeFile (t : FileTree ν γ) (p : Location ν) (c : γ) : Option (FileTree ν γ) :=
  if h : p ≠ [] ∧ t.isDirectory p.dropLast ∧ t.roomForFile p then
    some {
      node := fun q => if q = p then some (.file c) else t.node q
      listed := (p :: t.listed).dedup
      listed_nodup := List.nodup_dedup _
      mem_listed := by
        intro q hq
        rw [List.mem_dedup, List.mem_cons]
        split at hq
        next heq => exact .inl heq
        next => exact .inr (t.mem_listed q hq)
      root := by rw [if_neg h.1.symm, t.root]
      parent := by
        intro q x hq
        have hdir : t.node q = some .dir := by
          split at hq
          next heq =>
            have hroom := h.2.1
            rw [← heq, List.dropLast_concat] at hroom
            exact isDirectory_iff.mp hroom
          next => exact t.parent q x hq
        -- The new file takes no directory's place.
        rw [if_neg, hdir]
        rintro rfl
        have hroom := h.2.2
        rw [roomForFile, hdir] at hroom
        cases hroom }
  else none

/-- `std::filesystem::remove_all`; the root cannot be removed. -/
def removeAll (t : FileTree ν γ) (p : Location ν) : Option (FileTree ν γ) :=
  if h : p ≠ [] then
    some {
      node := fun q => if p <+: q then none else t.node q
      listed := t.listed
      listed_nodup := t.listed_nodup
      mem_listed := by
        intro q hq
        split at hq
        · exact absurd rfl hq
        · exact t.mem_listed q hq
      root := by rw [if_neg fun hpre => h (List.prefix_nil.mp hpre), t.root]
      parent := by
        intro q x hq
        split at hq
        next => exact absurd rfl hq
        next hpre =>
          rw [if_neg fun hq' => hpre (hq'.trans (List.prefix_append q [x]))]
          exact t.parent q x hq }
  else none

/-! ## What a change does to the files -/

variable {t t' : FileTree ν γ} {p q : Location ν} {c : γ}

theorem node_createDirectories (h : t.createDirectories p = some t') :
    t'.node q = if q <+: p then some .dir else t.node q := by
  unfold createDirectories at h
  split at h
  · cases h
    rfl
  · cases h

theorem createDirectories_room (h : t.createDirectories p = some t') (hq : q <+: p) :
    t.node q = none ∨ t.node q = some .dir := by
  unfold createDirectories at h
  split at h
  next hroom =>
    have hq := List.all_eq_true.mp hroom q ((List.mem_inits q p).mpr hq)
    unfold roomForDir at hq
    split at hq
    next hnone => exact .inl hnone
    next hdir => exact .inr hdir
    next => cases hq
  next => cases h

theorem exists_createDirectories (h : ∀ q, q <+: p → t.node q = none ∨ t.node q = some .dir) :
    ∃ t', t.createDirectories p = some t' := by
  have hroom : p.inits.all t.roomForDir = true := by
    apply List.all_eq_true.mpr
    intro q hq
    rcases h q ((List.mem_inits q p).mp hq) with hnode | hnode
    · simp [roomForDir, hnode]
    · simp [roomForDir, hnode]
  rw [createDirectories, if_pos hroom]
  exact ⟨_, rfl⟩

theorem exists_createDirectories_empty (p : Location ν) :
    ∃ t', (empty : FileTree ν γ).createDirectories p = some t' := by
  apply exists_createDirectories
  intro q _
  by_cases hq : q = []
  · exact .inr (if_pos hq)
  · exact .inl (if_neg hq)

theorem fileAt_createDirectories (h : t.createDirectories p = some t') :
    t'.fileAt q = t.fileAt q := by
  have hnode := node_createDirectories (q := q) h
  by_cases hpre : q <+: p
  · rw [if_pos hpre] at hnode
    rcases createDirectories_room h hpre with hnone | hdir
    · simp only [fileAt, hnode, hnone]
    · simp only [fileAt, hnode, hdir]
  · rw [if_neg hpre] at hnode
    simp only [fileAt, hnode]

theorem node_writeFile (h : t.writeFile p c = some t') :
    t'.node q = if q = p then some (.file c) else t.node q := by
  unfold writeFile at h
  split at h
  · cases h
    rfl
  · cases h

theorem writeFile_room (h : t.writeFile p c = some t') :
    t.node p = none ∨ ∃ c', t.node p = some (.file c') := by
  unfold writeFile at h
  split at h
  next hroom =>
    have hfile := hroom.2.2
    unfold roomForFile at hfile
    split at hfile
    next hnone => exact .inl hnone
    next c' hnode => exact .inr ⟨c', hnode⟩
    next => cases hfile
  next => cases h

theorem writeFile_parent (h : t.writeFile p c = some t') : t.node p.dropLast = some .dir := by
  unfold writeFile at h
  split at h
  next hroom => exact isDirectory_iff.mp hroom.2.1
  next => cases h

theorem exists_writeFile (c : γ) (hdir : t.node p.dropLast = some .dir)
    (h : t.node p = none ∨ ∃ c', t.node p = some (.file c')) :
    ∃ t', t.writeFile p c = some t' := by
  have hne : p ≠ [] := by
    rintro rfl
    simp [t.root] at h
  have hroom : t.roomForFile p = true := by
    rcases h with hnone | ⟨c', hfile⟩
    · simp [roomForFile, hnone]
    · simp [roomForFile, hfile]
  rw [writeFile, dif_pos ⟨hne, isDirectory_iff.mpr hdir, hroom⟩]
  exact ⟨_, rfl⟩

theorem fileAt_writeFile (h : t.writeFile p c = some t') :
    t'.fileAt q = if q = p then some c else t.fileAt q := by
  by_cases hq : q = p
  · simp only [fileAt, node_writeFile h, if_pos hq]
  · simp only [fileAt, node_writeFile h, if_neg hq]

theorem listed_writeFile (h : t.writeFile p c = some t') :
    t'.listed = (p :: t.listed).dedup := by
  unfold writeFile at h
  split at h
  · cases h
    rfl
  · cases h

/-- Only the last write to a location counts. -/
theorem writeFile_writeFile (h : t.writeFile p c = some t') (c' : γ) :
    t'.writeFile p c' = t.writeFile p c' := by
  have hdir := writeFile_parent h
  have hne : p.dropLast ≠ p := by
    intro heq
    have hroom := writeFile_room h
    rw [← heq, hdir] at hroom
    simp at hroom
  obtain ⟨t₁, ht₁⟩ := exists_writeFile c' hdir (writeFile_room h)
  have hdir' : t'.node p.dropLast = some .dir := by
    rw [node_writeFile h, if_neg hne, hdir]
  have hfile' : t'.node p = some (.file c) := by
    rw [node_writeFile h, if_pos rfl]
  obtain ⟨t₂, ht₂⟩ := exists_writeFile c' hdir' (.inr ⟨c, hfile'⟩)
  have hnode : t₂.node = t₁.node := by
    funext q
    rw [node_writeFile ht₁, node_writeFile ht₂, node_writeFile h]
    split <;> rfl
  have hlisted : t₂.listed = t₁.listed := by
    have hmem : p ∈ (p :: t.listed).dedup := List.mem_dedup.mpr List.mem_cons_self
    rw [listed_writeFile ht₂, listed_writeFile h, listed_writeFile ht₁,
      List.dedup_cons_of_mem hmem, List.dedup_idem]
  rw [ht₁, ht₂]
  cases t₁
  cases t₂
  simp_all

theorem node_removeAll (h : t.removeAll p = some t') :
    t'.node q = if p <+: q then none else t.node q := by
  unfold removeAll at h
  split at h
  · cases h
    rfl
  · cases h

end FileTree

end TrustFlow
