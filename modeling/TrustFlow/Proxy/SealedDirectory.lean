import TrustFlow.Proxy.DirectoryRoundTrip
import TrustFlow.Proxy.OssPlacement

/-! # Directories of encrypted files

A directory that holds the encrypted files of some set of files, however it came
to be: written by `EncryptToDir`, or by a download of what another machine has
uploaded.  Decrypting it gives the files back; a download of objects with their
contents makes it. -/

namespace TrustFlow.Proxy

/-! ## Sets of files -/

/-- Files at relative locations: which contents are where. -/
abbrev FileSet := Location Name → FileContent → Prop

/-- Files that a directory can hold: one content at a location, names that an entry can have,
    and no file below another. -/
structure FileSet.Plain (files : FileSet) : Prop where
  ne_nil : ∀ {rel c}, files rel c → rel ≠ []
  valid : ∀ {rel c}, files rel c → ∀ n ∈ rel, ValidName n
  unique : ∀ {rel c c'}, files rel c → files rel c' → c = c'
  apart : ∀ {rel c rel' c'}, files rel c → files rel' c' → rel <+: rel' → rel = rel'

/-- No encrypted file would be at a directory on the way to another. -/
def FileSet.NoClash (files : FileSet) : Prop :=
  ∀ {rel c rel' c'}, files rel c → files rel' c' → ¬ encLocation rel <+: rel'.dropLast

/-- The directory holds an encrypted file for each of the files, and no other file. -/
structure SealedDir (gcm : GcmLibrary) (dataKey : Bytes) (files : FileSet) (fs : FileSystem)
    (root : Location Name) : Prop where
  dir : fs.node root = some .dir
  names : ValidNamesUnder fs root
  sealed : ∀ rel' c', fs.fileAt (root ++ rel') = some c' → ∃ rel c, rel' = encLocation rel ∧
    files rel c ∧ DecryptsTo gcm dataKey c'.bytes c.bytes
  copied : ∀ {rel c}, files rel c → ∃ c', fs.fileAt (root ++ encLocation rel) = some c'

/-- There is nothing below the location, and no file on the way to it. -/
structure Vacant (fs : FileSystem) (root : Location Name) : Prop where
  above : ∀ p, p <+: root → fs.node p = none ∨ fs.node p = some .dir
  below : ∀ rel, rel ≠ [] → fs.node (root ++ rel) = none

theorem Vacant.roomFor {fs : FileSystem} {root rel : Location Name} (h : Vacant fs root)
    (hrel : rel ≠ []) : fs.RoomFor (root ++ rel) := by
  refine ⟨fun p hp => ?_, .inl (h.below rel hrel)⟩
  have hp' := hp.trans (List.dropLast_prefix _)
  rcases List.prefix_or_prefix_of_prefix hp' (List.prefix_append root rel) with habove | hunder
  · exact h.above p habove
  · obtain ⟨rest, rfl⟩ := hunder
    cases rest with
    | nil => exact h.above _ (by simp)
    | cons x xs => exact .inl (h.below _ (List.cons_ne_nil x xs))

theorem Vacant.fileAt {fs : FileSystem} {root : Location Name} (h : Vacant fs root)
    (rel : Location Name) : fs.fileAt (root ++ rel) = none := by
  cases rel with
  | nil =>
    rcases h.above root List.prefix_rfl with hnode | hnode
    · simp [FileTree.fileAt, hnode]
    · simp [FileTree.fileAt, hnode]
  | cons x xs => simp [FileTree.fileAt, h.below _ (List.cons_ne_nil x xs)]

/-- Locations with a suffix on their last name are apart if the files are. -/
theorem FileSet.Plain.enc_apart {files : FileSet} (h : files.Plain) (hclash : files.NoClash)
    {rel rel' : Location Name} {c c' : FileContent} (hc : files rel c) (hc' : files rel' c')
    (hpre : encLocation rel <+: encLocation rel') : rel = rel' := by
  obtain ⟨rest, hrest⟩ := hpre
  cases rest with
  | nil => exact encLocation_inj ((List.append_nil _).symm.trans hrest)
  | cons x xs =>
    refine absurd ?_ (hclash hc hc')
    rw [← encLocation_dropLast (h.ne_nil hc'), ← hrest,
      List.dropLast_append_of_ne_nil (List.cons_ne_nil x xs)]
    exact List.prefix_append _ _

/-! ## Decrypting a sealed directory -/

section Decrypt

variable {env : ProxyEnv} {fs : FileSystem} {srcPath destPath dataKey : Bytes} {files : FileSet}
  {i : SourceItem} {rel : Location Name} {c : FileContent}

theorem SealedDir.returnsTo (h : SealedDir env.gcm dataKey files fs (env.resolve srcPath))
    (destPath : Bytes) (hfiles : files.Plain) (hc : files rel c) :
    ReturnsTo env fs destPath dataKey (dirItem env srcPath (encLocation rel)) rel c := by
  obtain ⟨c', hc'⟩ := h.copied hc
  obtain ⟨rel', c₁, hrel', hc₁, hdecrypts⟩ := h.sealed _ c' hc'
  obtain rfl := encLocation_inj hrel'
  obtain rfl := hfiles.unique hc hc₁
  exact returnsTo_of_decrypts (hfiles.ne_nil hc) (hfiles.valid hc) hc' hdecrypts

theorem SealedDir.item (h : SealedDir env.gcm dataKey files fs (env.resolve srcPath))
    (destPath : Bytes) (hfiles : files.Plain) (hi : i ∈ dirItems env fs srcPath) :
    ∃ rel c, files rel c ∧ i = dirItem env srcPath (encLocation rel) ∧
      ReturnsTo env fs destPath dataKey i rel c := by
  obtain ⟨rel', c', rfl, hc'⟩ := mem_dirItems.mp hi
  obtain ⟨rel, c, rfl, hc, _⟩ := h.sealed rel' c' hc'
  exact ⟨rel, c, hc, rfl, h.returnsTo destPath hfiles hc⟩

theorem SealedDir.noMeeting (h : SealedDir env.gcm dataKey files fs (env.resolve srcPath))
    (hfiles : files.Plain) (hvacant : Vacant fs (env.resolve destPath)) :
    NoMeeting env fs srcPath destPath dataKey := by
  refine ⟨fun i hi _ => ?_, fun i hi => ?_, fun i hi j hj hpre => ?_⟩
  · obtain ⟨rel, c, _, _, hreturns⟩ := h.item destPath hfiles hi
    exact hreturns.notDots
  · obtain ⟨rel, c, hc, _, hreturns⟩ := h.item destPath hfiles hi
    have hroom := hvacant.roomFor (hfiles.ne_nil hc)
    rwa [← hreturns.target] at hroom
  · obtain ⟨rel, c, hc, rfl, hreturns⟩ := h.item destPath hfiles hi
    obtain ⟨rel', c', hc', rfl, hreturns'⟩ := h.item destPath hfiles hj
    have hpre' : decTarget env fs destPath _ <+: decTarget env fs destPath _ := hpre
    rw [hreturns.target, hreturns'.target] at hpre'
    rw [hfiles.apart hc hc' ((List.prefix_append_right_inj _).mp hpre')]

/-- In every schedule, decrypting a sealed directory to a vacant place gives its files and nothing
    else there. -/
theorem SealedDir.decryptToDir (h : SealedDir env.gcm dataKey files fs (env.resolve srcPath))
    (hresolves : ResolvesNames env.resolve) (hfiles : files.Plain)
    (hvacant : Vacant fs (env.resolve destPath))
    (hapart : Apart (env.resolve srcPath) (env.resolve destPath)) :
    DecryptToDir env fs srcPath destPath dataKey fun fs' error => error = none ∧
      ∀ rel c, fs'.fileAt (env.resolve destPath ++ rel) = some c ↔ files rel c := by
  have hdecryptable : Decryptable env fs srcPath destPath dataKey := by
    refine ⟨hresolves, h.dir, h.names, hapart, fun i hi => ?_⟩
    obtain ⟨rel, c, _, _, hreturns⟩ := h.item destPath hfiles hi
    exact ⟨c, hreturns.restores⟩
  have hplaces := decryptToDir_places hdecryptable (h.noMeeting hfiles hvacant)
  rw [DecryptToDir, sourceItems_of_dir h.dir] at hplaces ⊢
  refine fun todo hperm => (hplaces todo hperm).mono fun fs' error hend => ⟨hend.1, ?_⟩
  obtain ⟨_, hbetween, hplaced⟩ := hend
  -- A file of the set is where its task has put it.
  have hplace : ∀ {rel c}, files rel c →
      fs'.fileAt (env.resolve destPath ++ rel) = some c := by
    intro rel c hc
    obtain ⟨c', hc'⟩ := h.copied hc
    have hreturns := h.returnsTo destPath hfiles hc
    obtain ⟨c₁, hrestores, hnode⟩ :=
      hplaced _ (mem_dirItems.mpr ⟨encLocation rel, c', rfl, hc'⟩)
    have hfile : fs'.node (decTarget env fs destPath _) = some (.file c₁) := hnode
    rw [hreturns.target] at hfile
    rw [FileTree.fileAt_eq_some.mpr hfile, Restores.unique hrestores hreturns.restores]
  intro rel c
  refine ⟨fun hfile => ?_, hplace⟩
  by_contra hnone
  have haway : ∀ i ∈ dirItems env fs srcPath,
      env.resolve destPath ++ rel ≠ decTarget env fs destPath i := by
    intro i hi heq
    obtain ⟨rel', c', hc', _, hreturns⟩ := h.item destPath hfiles hi
    rw [hreturns.target] at heq
    obtain rfl := List.append_cancel_left heq
    rw [hplace hc'] at hfile
    cases hfile
    exact hnone hc'
  have hstart : fs'.fileAt (env.resolve destPath ++ rel) =
      fs.fileAt (env.resolve destPath ++ rel) := hbetween.fileAt_eq haway
  rw [hstart, hvacant.fileAt rel] at hfile
  cases hfile

end Decrypt

/-! ## Downloading a sealed directory -/

section Download

variable {env : OssEnv} {srcPath destPath : Bytes} {fs : FileSystem}

/-- Where the objects of a download go, and with which contents. -/
def ossPlacement (env : OssEnv) (srcPath destPath : Bytes) (fs : FileSystem) :
    Placement OssObject Name FileContent :=
  ⟨fs, env.bucket.matching srcPath, destLocation env srcPath destPath, fun object c =>
    c = object.content⟩

theorem downloadObject_places {object : OssObject} {names : List Name} {s : DownloadState}
    (hfree : (ossPlacement env srcPath destPath fs).Free)
    (habsolute : (pathParts destPath).absolute = true)
    (hobject : object ∈ env.bucket.matching srcPath)
    (hbelow : IsBelow env srcPath object.key names) (hok : env.downloadError object.key = none)
    (hs : (ossPlacement env srcPath destPath fs).Between s.fs) :
    ∃ s', downloadObject env srcPath destPath object s = (.ok (), s') ∧
      (ossPlacement env srcPath destPath fs).Advances s.fs s'.fs ∧
      (ossPlacement env srcPath destPath fs).Placed object s'.fs := by
  obtain ⟨fs₁, hensure, hadv, hdir⟩ := hs.ensureParent hfree hobject
    (p := destLocation env srcPath destPath object) List.prefix_rfl
  obtain ⟨fs₂, hwrite, hadv', hplaced⟩ :=
    hadv.between.writeFile hfree hobject (c := object.content) rfl hdir
  have hwrite' : fs₁.writeFile (destLocation env srcPath destPath object) object.content =
      some fs₂ := hwrite
  refine ⟨⟨fs₂, s.downloaded ++ [downloadOf env srcPath destPath object]⟩, ?_,
    hadv.trans hadv', hplaced⟩
  simp only [downloadObject_of_isBelow hbelow habsolute, hensure, hok, hwrite']

theorem downloadObjects_places (hfree : (ossPlacement env srcPath destPath fs).Free)
    (habsolute : (pathParts destPath).absolute = true)
    (hbelow : ∀ object ∈ env.bucket.matching srcPath, ∃ names,
      IsBelow env srcPath object.key names)
    (hok : ∀ object ∈ env.bucket.matching srcPath, env.downloadError object.key = none) :
    ∀ {todo : List OssObject} {s : DownloadState},
      (∀ object ∈ todo, object ∈ env.bucket.matching srcPath) →
      (ossPlacement env srcPath destPath fs).Between s.fs →
      ∃ s', downloadObjects env srcPath destPath todo s = (.ok (), s') ∧
        (ossPlacement env srcPath destPath fs).Advances s.fs s'.fs ∧
        ∀ object ∈ todo, (ossPlacement env srcPath destPath fs).Placed object s'.fs := by
  intro todo
  induction todo with
  | nil =>
    intro s _ hs
    exact ⟨s, rfl, hs.advances, fun object h => absurd h List.not_mem_nil⟩
  | cons first todo ih =>
    intro s hmem hs
    have hfirst := hmem first List.mem_cons_self
    obtain ⟨names, hnames⟩ := hbelow first hfirst
    obtain ⟨s₁, hround, hadv, hplaced⟩ :=
      downloadObject_places hfree habsolute hfirst hnames (hok first hfirst) hs
    obtain ⟨s₂, hrun, hadv', hrest⟩ :=
      ih (fun o ho => hmem o (List.mem_cons_of_mem _ ho)) hadv.between
    refine ⟨s₂, by simp only [downloadObjects, hround, hrun], hadv.trans hadv', ?_⟩
    intro object hobject
    rcases List.mem_cons.mp hobject with rfl | hobject
    · exact hadv'.placed _ hfirst hplaced
    · exact hrest object hobject

end Download

end TrustFlow.Proxy
