import TrustFlow.Proxy.Paths

/-! # Staging directories

`GenTempDir` appends the base64 text of a digest to `/tmp`.  The alphabet of the
text has the slash in it, and a slash in front makes the text an absolute path.
When the directory is a child of `/tmp`, and when the directories of two requests
stay apart, is decided by the text alone. -/

namespace TrustFlow.Proxy

/-- The staging directory after normalisation. -/
def stagingDir (H : Sha256) (path : Bytes) : NormalPath Name :=
  (pathParts (genTempDir H path)).normal

def IsTempChild (dir : NormalPath Name) : Prop := ∃ name, dir = ⟨.root, [str "tmp", name]⟩

/-- Both staging directories are children of `/tmp`, and for different digests they are apart. -/
def PrivateStaging (H : Sha256) (path path' : Bytes) : Prop :=
  IsTempChild (stagingDir H path) ∧ IsTempChild (stagingDir H path') ∧
    (H.hash path ≠ H.hash path' →
      stagingDir H path ≠ stagingDir H path' ∧
      ¬ (stagingDir H path).Contains (stagingDir H path') ∧
      ¬ (stagingDir H path').Contains (stagingDir H path))

/-- The name of the child of `/tmp` that a text leads to.  A text with a slash leads to one only
    if it is an absolute path that names it. -/
def childName (text : Bytes) : Option Name :=
  if slash ∉ text then some text
  else if text.head? = some slash then
    match pathComponents text with
    | [tmp, name] => if tmp = str "tmp" then some name else none
    | _ => none
  else none

/-! ## The directory of a text -/

section Text

variable {text : Bytes}

theorem childName_of_noSlash (h : slash ∉ text) : childName text = some text := by
  simp [childName, h]

theorem childName_absolute (h : text.head? = some slash) (name : Name) :
    childName text = some name ↔ pathComponents text = [str "tmp", name] := by
  have hmem : slash ∈ text := List.mem_of_mem_head? h
  simp only [childName, hmem, not_true_eq_false, if_false, h, if_true]
  split
  next tmp n hcomps =>
    rw [hcomps]
    split <;> simp_all
  next hother =>
    constructor
    · intro hnone
      cases hnone
    · intro hcomps
      exact absurd hcomps (hother _ _)

theorem pathComponents_temp (h : text.head? ≠ some slash) :
    pathComponents (pathAppend kTempDir text) = str "tmp" :: pathComponents text := by
  have htemp : pathComponents kTempDir = [str "tmp"] := by decide
  have happend : pathAppend kTempDir text = kTempDir ++ slash :: text := by
    rw [pathAppend, if_neg h, if_neg (by decide), List.append_assoc, List.singleton_append]
  rw [happend, pathComponents_append, htemp, List.singleton_append]

/-- A text that neither starts nor ends with a slash but has one is more than one component. -/
theorem pathComponents_ne_singleton (hmem : slash ∈ text) (hhead : text.head? ≠ some slash)
    (hlast : text.getLast? ≠ some slash) (name : Name) : pathComponents text ≠ [name] := by
  obtain ⟨a, b, rfl⟩ := List.append_of_mem hmem
  have ha : pathComponents a ≠ [] := by
    cases a with
    | nil => exact absurd rfl hhead
    | cons c a =>
      exact pathComponents_ne_nil List.mem_cons_self fun hc => hhead (by rw [hc]; rfl)
  have hb : pathComponents b ≠ [] := by
    rcases List.eq_nil_or_concat' b with rfl | ⟨b, c, rfl⟩
    · exact absurd (by simp) hlast
    · refine pathComponents_ne_nil (c := c) (by simp) fun hc => hlast ?_
      rw [hc, ← List.cons_append, ← List.append_assoc, List.getLast?_concat]
  rw [pathComponents_append]
  intro heq
  have hlen := congrArg List.length heq
  have ha' := List.length_pos_of_ne_nil ha
  have hb' := List.length_pos_of_ne_nil hb
  rw [List.length_append, List.length_singleton] at hlen
  omega

theorem pathComponents_temp_eq_iff (hne : text ≠ []) (hlast : text.getLast? ≠ some slash)
    (name : Name) :
    pathComponents (pathAppend kTempDir text) = [str "tmp", name] ↔
      childName text = some name := by
  by_cases hhead : text.head? = some slash
  · rw [childName_absolute hhead, pathAppend, if_pos hhead]
  · rw [pathComponents_temp hhead]
    simp only [List.cons.injEq, true_and]
    by_cases hmem : slash ∈ text
    · have hmany := pathComponents_ne_singleton hmem hhead hlast name
      simp [childName, hmem, hhead, hmany]
    · rw [pathComponents_of_noSlash hmem hne, childName_of_noSlash hmem]
      simp

end Text

/-! ## The directory of a request -/

section Request

variable (H : Sha256) (path : Bytes)

/-- The text that names the staging directory of a path. -/
def stagingText : Bytes := base64Encode (H.hash path)

theorem stagingText_getLast : (stagingText H path).getLast? = some 61 :=
  base64Encode_getLast (by rw [H.hash_length]; decide)

theorem stagingDir_eq :
    stagingDir H path = ⟨.root, pathComponents (pathAppend kTempDir (stagingText H path))⟩ := by
  have hdot : dot ∉ stagingText H path :=
    not_mem_base64Encode (by decide) (by decide) (by decide) _
  have hdot' : dot ∉ genTempDir H path := by
    rw [genTempDir, pathAppend]
    split
    · exact hdot
    · rw [if_neg (by decide)]
      simp only [List.mem_append, not_or]
      exact ⟨⟨by decide, by decide⟩, hdot⟩
  have hroot : (genTempDir H path).head? = some slash := by
    rw [genTempDir, pathAppend]
    split
    next h => exact h
    next =>
      rw [if_neg (by decide)]
      rfl
  rw [stagingDir, normal_pathParts_of_noDot hdot']
  simp only [PathParts.start, pathParts, hroot, decide_true, if_true]
  rfl

theorem stagingDir_eq_iff (name : Name) :
    stagingDir H path = ⟨.root, [str "tmp", name]⟩ ↔
      childName (stagingText H path) = some name := by
  have hlast := stagingText_getLast H path
  have hne : stagingText H path ≠ [] := by
    intro hnil
    rw [hnil] at hlast
    cases hlast
  have hslash : (stagingText H path).getLast? ≠ some slash := by
    rw [hlast]
    decide
  rw [stagingDir_eq, ← pathComponents_temp_eq_iff hne hslash name]
  simp

theorem stagingDir_ne_nil : (stagingDir H path).names ≠ [] := by
  have hmem := List.mem_of_getLast? (stagingText_getLast H path)
  have hin : (61 : UInt8) ∈ pathAppend kTempDir (stagingText H path) := by
    rw [pathAppend]
    split
    · exact hmem
    · split <;> simp [hmem]
  rw [stagingDir_eq]
  exact pathComponents_ne_nil hin (by decide)

end Request

/-- Two children of `/tmp` are apart as soon as their names differ. -/
theorem children_apart_iff {name name' : Name} :
    (let dir : NormalPath Name := ⟨.root, [str "tmp", name]⟩
     let dir' : NormalPath Name := ⟨.root, [str "tmp", name']⟩
     dir ≠ dir' ∧ ¬ dir.Contains dir' ∧ ¬ dir'.Contains dir) ↔ name ≠ name' := by
  simp [NormalPath.Contains, List.cons_prefix_cons, eq_comm]

/-- Removing one of two private staging directories leaves everything outside `/tmp` and the
    other directory as it was. -/
theorem removeAll_private {H : Sha256} {path path' : Bytes} (h : PrivateStaging H path path')
    (hdigest : H.hash path ≠ H.hash path') {γ : Type} {fs fs' : FileTree Name γ}
    (hremove : fs.removeAll (stagingDir H path).names = some fs') {q : Location Name}
    (hq : ¬ [str "tmp"] <+: q ∨ (stagingDir H path').names <+: q) :
    fs'.node q = fs.node q := by
  obtain ⟨⟨name, hname⟩, ⟨name', hname'⟩, hapart⟩ := h
  have hne : name ≠ name' := by
    rw [hname, hname'] at hapart
    exact children_apart_iff.mp (hapart hdigest)
  rw [FileTree.node_removeAll hremove, if_neg]
  intro hunder
  rw [hname] at hunder
  obtain ⟨rest, rfl⟩ := hunder
  rcases hq with houtside | hother
  · exact houtside ⟨name :: rest, rfl⟩
  · rw [hname'] at hother
    simp only [List.cons_append, List.nil_append, List.cons_prefix_cons, true_and] at hother
    exact hne hother.1.symm

/-- Two paths have private staging directories exactly if the texts of both digests lead to a
    child of `/tmp`, and those of different digests to different ones.  A digest whose text has
    no slash always does. -/
theorem privateStaging_iff (H : Sha256) (path path' : Bytes) :
    (PrivateStaging H path path' ↔
      ∃ name name', childName (stagingText H path) = some name ∧
        childName (stagingText H path') = some name' ∧
        (H.hash path ≠ H.hash path' → name ≠ name')) ∧
    (slash ∉ stagingText H path → slash ∉ stagingText H path' → PrivateStaging H path path') := by
  have hiff : PrivateStaging H path path' ↔
      ∃ name name', childName (stagingText H path) = some name ∧
        childName (stagingText H path') = some name' ∧
        (H.hash path ≠ H.hash path' → name ≠ name') := by
    constructor
    · rintro ⟨⟨name, hname⟩, ⟨name', hname'⟩, hapart⟩
      rw [hname, hname'] at hapart
      refine ⟨name, name', (stagingDir_eq_iff H path name).mp hname,
        (stagingDir_eq_iff H path' name').mp hname', ?_⟩
      intro hdigest
      exact children_apart_iff.mp (hapart hdigest)
    · rintro ⟨name, name', hname, hname', hapart⟩
      have hdir := (stagingDir_eq_iff H path name).mpr hname
      have hdir' := (stagingDir_eq_iff H path' name').mpr hname'
      refine ⟨⟨name, hdir⟩, ⟨name', hdir'⟩, ?_⟩
      intro hdigest
      rw [hdir, hdir']
      exact children_apart_iff.mpr (hapart hdigest)
  refine ⟨hiff, ?_⟩
  intro hslash hslash'
  refine hiff.mpr ⟨_, _, childName_of_noSlash hslash, childName_of_noSlash hslash', ?_⟩
  -- Digests have one length, so their texts differ where they do.
  intro hdigest htext
  exact hdigest (base64Encode_inj (by rw [H.hash_length, H.hash_length]) htext)

/-- The digest that starts with 0xfc is written with a slash in front, which makes the staging
    directory a child of the root directory. -/
theorem staging_outside_temp :
    (stagingDir paddingSha256 [0xfc]).names = [List.replicate 42 65 ++ [61]] ∧
      ∀ path, ¬ PrivateStaging paddingSha256 [0xfc] path := by
  have hnames : pathComponents (pathAppend kTempDir (stagingText paddingSha256 [0xfc])) =
      [List.replicate 42 65 ++ [61]] := by decide
  rw [stagingDir_eq]
  refine ⟨hnames, ?_⟩
  rintro path ⟨⟨name, hname⟩, _, _⟩
  rw [stagingDir_eq, hnames] at hname
  cases hname

end TrustFlow.Proxy
