import TrustFlow.FilePlacement

/-! # Footprints of file operations

What an operation leaves alone: every location outside the directories it works in.
The one thing it may do outside is to make missing directories on the way to them.

* `FileTree.KeepsOutside` — nothing outside the given directories was touched;
* `FileTree.AgreeOn` — two trees show the same at the locations around the given
  directories, which is all that work in them can see.
-/

namespace TrustFlow

namespace FileTree

variable {ν γ : Type}

/-- Outside the directories `roots` the tree is as before, but for directories that were made on
    the way to one of them. -/
def KeepsOutside (roots : List (Location ν)) (t t' : FileTree ν γ) : Prop :=
  ∀ p, (∀ root ∈ roots, ¬ root <+: p) → t'.node p = t.node p ∨
    t.node p = none ∧ t'.node p = some .dir ∧ ∃ root ∈ roots, p <+: root

variable {t t' t'' : FileTree ν γ} {roots roots' : List (Location ν)} {root p : Location ν} {c : γ}

theorem KeepsOutside.refl (roots : List (Location ν)) (t : FileTree ν γ) : KeepsOutside roots t t :=
  fun _ _ => .inl rfl

theorem KeepsOutside.trans (h : KeepsOutside roots t t') (h' : KeepsOutside roots t' t'') :
    KeepsOutside roots t t'' := by
  intro p hp
  rcases h' p hp with hsame | ⟨hnone, hdir, habove⟩
  · rw [hsame]
    exact h p hp
  · -- What the second change found missing, the first one left missing.
    rcases h p hp with hsame | ⟨_, hdir', _⟩
    · exact .inr ⟨hsame ▸ hnone, hdir, habove⟩
    · rw [hdir'] at hnone
      cases hnone

theorem KeepsOutside.mono (hsub : roots ⊆ roots') (h : KeepsOutside roots t t') :
    KeepsOutside roots' t t' := by
  intro p hp
  rcases h p fun root hroot => hp root (hsub hroot) with hsame | ⟨hnone, hdir, root, hroot, hpre⟩
  · exact .inl hsame
  · exact .inr ⟨hnone, hdir, root, hsub hroot, hpre⟩

theorem KeepsOutside.fileAt_eq (h : KeepsOutside roots t t')
    (hp : ∀ root ∈ roots, ¬ root <+: p) : t'.fileAt p = t.fileAt p := by
  rcases h p hp with hsame | ⟨hnone, hdir, _⟩
  · simp only [fileAt, hsame]
  · simp only [fileAt, hnone, hdir]

section Operations

variable [DecidableEq ν]

theorem keepsOutside_createDirectories (hroot : root ∈ roots)
    (hp : root <+: p ∨ p <+: root) (h : t.createDirectories p = some t') :
    KeepsOutside roots t t' := by
  intro q hq
  rw [node_createDirectories h]
  split
  next hpre =>
    have habove : q <+: root := by
      rcases hp with hunder | habove
      · rcases List.prefix_or_prefix_of_prefix hpre hunder with hq' | hq'
        · exact hq'
        · exact absurd hq' (hq root hroot)
      · exact hpre.trans habove
    rcases createDirectories_room h hpre with hnone | hdir
    · exact .inr ⟨hnone, rfl, root, hroot, habove⟩
    · exact .inl hdir.symm
  next => exact .inl rfl

theorem keepsOutside_ensureParent (hroot : root ∈ roots) (hp : root <+: p)
    (h : t.ensureParent p = some t') : KeepsOutside roots t t' := by
  rw [ensureParent] at h
  split at h
  · apply keepsOutside_createDirectories hroot _ h
    exact List.prefix_or_prefix_of_prefix hp (List.dropLast_prefix p)
  · cases h
    exact .refl _ _

theorem keepsOutside_writeFile (hroot : root ∈ roots) (hp : root <+: p)
    (h : t.writeFile p c = some t') : KeepsOutside roots t t' := by
  intro q hq
  rw [node_writeFile h, if_neg]
  · exact .inl rfl
  · rintro rfl
    exact hq root hroot hp

theorem keepsOutside_removeAll (hroot : root ∈ roots) (h : t.removeAll root = some t') :
    KeepsOutside roots t t' := by
  intro q hq
  rw [node_removeAll h, if_neg (hq root hroot)]
  exact .inl rfl

end Operations

/-! ## What work in a directory sees -/

section Rel

variable {α β : Type} {R : α → β → Prop} {a : Option α} {b : Option β}

theorem exists_of_rel_some {x : α} (h : Option.Rel R a b) (ha : a = some x) :
    ∃ y, b = some y ∧ R x y := by
  subst ha
  cases h with
  | some hxy => exact ⟨_, rfl, hxy⟩

theorem eq_none_of_rel (h : Option.Rel R a b) (ha : a = none) : b = none := by
  subst ha
  cases h
  rfl

end Rel

/-- At one of the directories, below it or on the way to it. -/
def Around (roots : List (Location ν)) (p : Location ν) : Prop :=
  ∃ root ∈ roots, root <+: p ∨ p <+: root

/-- At and below the directories the two trees are the same; on the way to them the first may have
    directories that the second has not. -/
def AgreeOn (roots : List (Location ν)) (t u : FileTree ν γ) : Prop :=
  ∀ p, Around roots p → t.node p = u.node p ∨
    u.node p = none ∧ t.node p = some .dir ∧ ∀ root ∈ roots, ¬ root <+: p

variable {u : FileTree ν γ} {q : Location ν}

theorem Around.under (hroot : root ∈ roots) (hp : root <+: p) : Around roots p :=
  ⟨root, hroot, .inl hp⟩

theorem Around.above (h : Around roots p) (hq : q <+: p) : Around roots q := by
  obtain ⟨root, hroot, hunder | habove⟩ := h
  · exact ⟨root, hroot, List.prefix_or_prefix_of_prefix hunder hq⟩
  · exact ⟨root, hroot, .inr (hq.trans habove)⟩

namespace AgreeOn

theorem refl (roots : List (Location ν)) (t : FileTree ν γ) : AgreeOn roots t t :=
  fun _ _ => .inl rfl

theorem node_eq (h : AgreeOn roots t u) (hroot : root ∈ roots) (hp : root <+: p) :
    t.node p = u.node p := by
  rcases h p (.under hroot hp) with hsame | ⟨_, _, hnot⟩
  · exact hsame
  · exact absurd hp (hnot root hroot)

theorem fileAt_eq (h : AgreeOn roots t u) (hroot : root ∈ roots) (hp : root <+: p) :
    t.fileAt p = u.fileAt p := by
  simp only [fileAt, h.node_eq hroot hp]

theorem isDirectory_eq (h : AgreeOn roots t u) (hroot : root ∈ roots) (hp : root <+: p) :
    t.isDirectory p = u.isDirectory p := by
  simp only [isDirectory, h.node_eq hroot hp]

/-- A directory can be made in the one tree where it can be made in the other. -/
theorem room_iff (h : AgreeOn roots t u) (hp : Around roots p) :
    (t.node p = none ∨ t.node p = some .dir) ↔ (u.node p = none ∨ u.node p = some .dir) := by
  rcases h p hp with hsame | ⟨hnone, hdir, _⟩
  · rw [hsame]
  · simp [hnone, hdir]

/-- Work elsewhere is not seen. -/
theorem of_keepsOutside {writes : List (Location ν)} (h : AgreeOn roots t u)
    (houtside : KeepsOutside writes t t')
    (hapart : ∀ w ∈ writes, ∀ root ∈ roots, ¬ w <+: root ∧ ¬ root <+: w) :
    AgreeOn roots t' u := by
  intro p hp
  have hnotUnder : ∀ w ∈ writes, ¬ w <+: p := by
    intro w hw hunder
    obtain ⟨root, hroot, hroot' | hroot'⟩ := hp
    · rcases List.prefix_or_prefix_of_prefix hunder hroot' with hpre | hpre
      · exact (hapart w hw root hroot).1 hpre
      · exact (hapart w hw root hroot).2 hpre
    · exact (hapart w hw root hroot).1 (hunder.trans hroot')
  rcases houtside p hnotUnder with hsame | ⟨hnone, hdir, w, hw, habove⟩
  · rw [hsame]
    exact h p hp
  · rcases h p hp with heq | ⟨_, hdir', _⟩
    · refine .inr ⟨heq ▸ hnone, hdir, fun root hroot hunder => ?_⟩
      exact (hapart w hw root hroot).2 (hunder.trans habove)
    · rw [hnone] at hdir'
      cases hdir'

variable [DecidableEq ν]

/-- The two trees list the same files, perhaps in another order. -/
theorem regularFiles_perm (h : AgreeOn roots t u) (hroot : root ∈ roots)
    (hp : root <+: p) : (t.regularFiles p).Perm (u.regularFiles p) := by
  apply (List.perm_ext_iff_of_nodup (t.regularFiles_nodup p) (u.regularFiles_nodup p)).mpr
  intro rel
  rw [mem_regularFiles, mem_regularFiles,
    h.fileAt_eq hroot (hp.trans (List.prefix_append p rel))]

/-! ### The same operation on both trees

Each of the following says that the operation fails on both trees or on none, and that the
results agree again. -/

theorem createDirectories (h : AgreeOn roots t u) (hp : Around roots p) :
    Option.Rel (AgreeOn roots) (t.createDirectories p) (u.createDirectories p) := by
  have hroom : ∀ {t₁ t₂ : FileTree ν γ}, (∀ q, q <+: p →
      (t₁.node q = none ∨ t₁.node q = some .dir) →
        (t₂.node q = none ∨ t₂.node q = some .dir)) →
      t₂.createDirectories p = none → t₁.createDirectories p = none := by
    intro t₁ t₂ himp hnone
    cases hmade : t₁.createDirectories p with
    | none => rfl
    | some t₁' =>
      obtain ⟨t₂', hmade'⟩ := exists_createDirectories fun q hq =>
        himp q hq (createDirectories_room hmade hq)
      rw [hnone] at hmade'
      cases hmade'
  cases ht : t.createDirectories p with
  | none =>
    rw [hroom (fun q hq => (h.room_iff (hp.above hq)).mpr) ht]
    exact .none
  | some t' =>
    cases hu : u.createDirectories p with
    | none =>
      rw [hroom (fun q hq => (h.room_iff (hp.above hq)).mp) hu] at ht
      cases ht
    | some u' =>
      refine .some fun q hq => ?_
      rw [node_createDirectories ht, node_createDirectories hu]
      split
      · exact .inl rfl
      · exact h q hq

theorem ensureParent (h : AgreeOn roots t u) (hp : Around roots p) :
    Option.Rel (AgreeOn roots) (t.ensureParent p) (u.ensureParent p) := by
  have hparent := hp.above (List.dropLast_prefix p)
  rw [FileTree.ensureParent, FileTree.ensureParent]
  rcases h _ hparent with hsame | ⟨hnone, hdir, _⟩
  · rw [hsame]
    split
    · exact h.createDirectories hparent
    · exact .some h
  · -- The first tree has the parent already, the second one makes it.
    rw [if_pos hnone, if_neg (by simp [hdir])]
    have habove : ∀ q, q <+: p.dropLast → t.node q = some .dir := by
      rintro q ⟨rest, hrest⟩
      cases rest with
      | nil =>
        rw [List.append_nil] at hrest
        rw [hrest]
        exact hdir
      | cons x xs => exact t.node_of_under (List.cons_ne_nil x xs) (by rw [hrest, hdir]; simp)
    obtain ⟨u', hu'⟩ := exists_createDirectories (t := u) fun q hq =>
      (h.room_iff (hparent.above hq)).mp (.inr (habove q hq))
    rw [hu']
    refine .some fun q hq => ?_
    rw [node_createDirectories hu']
    split
    next hpre => exact .inl (habove q hpre)
    next => exact h q hq

theorem writeFile (h : AgreeOn roots t u) (hroot : root ∈ roots) (hp : root <+: p.dropLast)
    (c : γ) : Option.Rel (AgreeOn roots) (t.writeFile p c) (u.writeFile p c) := by
  have hunder := hp.trans (List.dropLast_prefix p)
  have hroom : ∀ {t₁ t₂ : FileTree ν γ}, t₁.node p.dropLast = t₂.node p.dropLast →
      t₁.node p = t₂.node p → t₂.writeFile p c = none → t₁.writeFile p c = none := by
    intro t₁ t₂ hparent hnode hnone
    cases hwritten : t₁.writeFile p c with
    | none => rfl
    | some t₁' =>
      obtain ⟨t₂', hwritten'⟩ := exists_writeFile (t := t₂) c
        (hparent ▸ writeFile_parent hwritten) (hnode ▸ writeFile_room hwritten)
      rw [hnone] at hwritten'
      cases hwritten'
  have hsame := h.node_eq hroot hunder
  have hsame' := h.node_eq hroot hp
  cases ht : t.writeFile p c with
  | none =>
    rw [hroom hsame'.symm hsame.symm ht]
    exact .none
  | some t' =>
    cases hu : u.writeFile p c with
    | none =>
      rw [hroom hsame' hsame hu] at ht
      cases ht
    | some u' =>
      refine .some fun q hq => ?_
      rw [node_writeFile ht, node_writeFile hu]
      split
      · exact .inl rfl
      · exact h q hq

theorem removeAll (h : AgreeOn roots t u) (p : Location ν) :
    Option.Rel (AgreeOn roots) (t.removeAll p) (u.removeAll p) := by
  by_cases hp : p = []
  · subst hp
    exact .none
  · have ht : t.removeAll p = some _ := dif_pos hp
    have hu : u.removeAll p = some _ := dif_pos hp
    rw [ht, hu]
    refine .some fun q hq => ?_
    rw [node_removeAll ht, node_removeAll hu]
    split
    · exact .inl rfl
    · exact h q hq

end AgreeOn

/-- The tree `u` with what `t` has at `root` and below it. -/
def graft [DecidableEq ν] (root : Location ν) (t u : FileTree ν γ)
    (h : t.node root ≠ none → u.node root ≠ none) : FileTree ν γ where
  node p := if root <+: p then t.node p else u.node p
  listed := (t.listed ++ u.listed).dedup
  listed_nodup := List.nodup_dedup _
  mem_listed := by
    intro p hp
    rw [List.mem_dedup, List.mem_append]
    split at hp
    · exact .inl (t.mem_listed p hp)
    · exact .inr (u.mem_listed p hp)
  root := by
    split
    · exact t.root
    · exact u.root
  parent := by
    intro p x hp
    split at hp
    next hunder =>
      by_cases habove : root <+: p
      · rw [if_pos habove]
        exact t.parent p x hp
      · -- The location is the root itself, and `u` has something there as well.
        have hroot : root = p ++ [x] := (List.prefix_concat_iff.mp hunder).resolve_right habove
        rw [if_neg habove]
        exact u.parent p x (hroot ▸ h (hroot ▸ hp))
    next hunder =>
      rw [if_neg fun habove => hunder (habove.trans (List.prefix_append p [x]))]
      exact u.parent p x hp

end FileTree

end TrustFlow
