import TrustFlow.Proxy.DirectoryCrypto

/-! # Decryption does not depend on the schedule

`DecryptToDir` computes the destination of a file by one of two rules, and runs
decryptions beside copies.  When no two files meet on a destination and nothing is
in the way of one, every schedule ends with the same files; otherwise some
schedule loses a file or throws. -/

namespace TrustFlow.Proxy

/-! ## Where the files go -/

section Defs

variable (env : ProxyEnv) (fs : FileSystem) (srcPath destPath dataKey : Bytes)

/-- The location at which the file for an item ends up, for a destination that starts as in
    `fs`. -/
def decTarget (i : SourceItem) : Location Name :=
  if i.isEnc then i.decDest env destPath
  else copyTarget fs (env.resolve destPath ++ i.rel) i.name

/-- The plaintext of an encrypted file, the content of any other. -/
def Restores (i : SourceItem) (c : FileContent) : Prop :=
  ∃ content, fs.fileAt i.loc = some content ∧
    if i.isEnc then DecryptsTo env.gcm dataKey content.bytes c.bytes else c = content

def decPlacement : Placement SourceItem Name FileContent :=
  ⟨fs, dirItems env fs srcPath, decTarget env fs destPath, Restores env fs dataKey⟩

/-- The source is a directory beside the destination, and the key opens all its files. -/
structure Decryptable : Prop where
  resolves : ResolvesNames env.resolve
  source : fs.node (env.resolve srcPath) = some .dir
  names : ValidNamesUnder fs (env.resolve srcPath)
  apart : Apart (env.resolve srcPath) (env.resolve destPath)
  opens : ∀ i ∈ dirItems env fs srcPath, ∃ c, Restores env fs dataKey i c

/-- Every schedule ends without an exception and with the same files, one for each file of the
    source. -/
def SchedulingFree : Prop :=
  ∃ final : Location Name → Option FileContent,
    DecryptToDir env fs srcPath destPath dataKey
      (fun fs' error => error = none ∧ ∀ p, fs'.fileAt p = final p) ∧
    (∀ i ∈ dirItems env fs srcPath, ∃ c, Restores env fs dataKey i c ∧
      final (decTarget env fs destPath i) = some c) ∧
    ∀ i ∈ dirItems env fs srcPath, ∀ j ∈ dirItems env fs srcPath,
      decTarget env fs destPath i = decTarget env fs destPath j → i = j

/-- No decrypted file would be named by dots only, no two files of the source meet on a
    destination or on the way to one, and the destination has nothing else there. -/
structure NoMeeting : Prop where
  named : ∀ i ∈ dirItems env fs srcPath, i.isEnc = true → isDots (stem i.name) = false
  free : (decPlacement env fs srcPath destPath dataKey).Free

end Defs

section Decrypt

variable {env : ProxyEnv} {fs t : FileSystem} {srcPath destPath dataKey : Bytes} {i : SourceItem}

theorem DecryptsTo.unique {gcm : GcmLibrary} {ciphertext plaintext plaintext' : Bytes}
    (h : DecryptsTo gcm dataKey ciphertext plaintext)
    (h' : DecryptsTo gcm dataKey ciphertext plaintext') : plaintext = plaintext' := by
  obtain ⟨s, hrun, hout⟩ := h [0] [] (by simp)
  obtain ⟨s', hrun', hout'⟩ := h' [0] [] (by simp)
  rw [hrun] at hrun'
  cases hrun'
  exact Option.some.inj (hout.symm.trans hout')

theorem Restores.unique {c c' : FileContent} (h : Restores env fs dataKey i c)
    (h' : Restores env fs dataKey i c') : c = c' := by
  obtain ⟨content, hcontent, hc⟩ := h
  obtain ⟨content', hcontent', hc'⟩ := h'
  obtain rfl : content = content' := Option.some.inj (hcontent.symm.trans hcontent')
  split at hc
  next henc =>
    rw [if_pos henc] at hc'
    have hbytes := hc.unique hc'
    cases c
    cases c'
    simp_all
  next henc =>
    rw [if_neg henc] at hc'
    rw [hc, hc']

theorem exists_concat (h : Decryptable env fs srcPath destPath dataKey)
    (hi : i ∈ dirItems env fs srcPath) : ∃ dir, i.rel = dir ++ [i.name] := by
  obtain ⟨rel, c, rfl, hc⟩ := mem_dirItems.mp hi
  obtain ⟨dir, n, rfl⟩ := (List.eq_nil_or_concat' rel).resolve_left (rel_ne_nil h.source hc)
  exact ⟨dir, by simp [SourceItem.name, dirItem]⟩

theorem decTarget_under (env : ProxyEnv) (fs : FileSystem) (destPath : Bytes) (i : SourceItem) :
    env.resolve destPath <+: decTarget env fs destPath i := by
  unfold decTarget copyTarget
  split
  · exact List.prefix_append _ _
  · split
    · exact (List.prefix_append _ _).trans (List.prefix_append _ _)
    · exact List.prefix_append _ _

/-- The parent that the loop makes is on the way to the file, whichever rule names it. -/
theorem parent_above (h : Decryptable env fs srcPath destPath dataKey)
    (hi : i ∈ dirItems env fs srcPath) :
    (env.resolve destPath ++ i.rel).dropLast <+: (decTarget env fs destPath i).dropLast := by
  obtain ⟨dir, hrel⟩ := exists_concat h hi
  unfold decTarget copyTarget
  split
  · rw [SourceItem.decDest, hrel, decLocation_concat, ← List.append_assoc, ← List.append_assoc,
      List.dropLast_concat, List.dropLast_concat]
  · split
    · rw [List.dropLast_concat]
      exact List.dropLast_prefix _
    · exact List.prefix_rfl

theorem source_kept (h : Decryptable env fs srcPath destPath dataKey)
    (ht : (decPlacement env fs srcPath destPath dataKey).Between t) {p : Location Name}
    (hp : env.resolve srcPath <+: p) : t.node p = fs.node p :=
  ht.node_eq fun i _ hpre =>
    h.apart.not_under_both (hp.trans hpre) (decTarget_under env fs destPath i)

theorem fileAt_source (h : Decryptable env fs srcPath destPath dataKey)
    (ht : (decPlacement env fs srcPath destPath dataKey).Between t)
    (hi : i ∈ dirItems env fs srcPath) : t.fileAt i.loc = fs.fileAt i.loc := by
  obtain ⟨rel, c, rfl, _⟩ := mem_dirItems.mp hi
  simp only [FileTree.fileAt, source_kept h ht (List.prefix_append _ rel), dirItem]

/-! ## Every step succeeds when the files are apart -/

/-- A copy goes where it would have gone at the start. -/
theorem copyTarget_between (hP : (decPlacement env fs srcPath destPath dataKey).Free)
    (ht : (decPlacement env fs srcPath destPath dataKey).Between t)
    (hi : i ∈ dirItems env fs srcPath) (hplain : ¬ i.isEnc = true) :
    copyTarget t (env.resolve destPath ++ i.rel) i.name = decTarget env fs destPath i := by
  rw [decTarget, if_neg hplain, copyTarget, copyTarget]
  by_cases hdir : fs.isDirectory (env.resolve destPath ++ i.rel) = true
  · have hnow := ht.dir_of_start hP (FileTree.isDirectory_iff.mp hdir)
    rw [if_pos hdir, if_pos (FileTree.isDirectory_iff.mpr hnow)]
  · -- The location is the target itself, which never becomes a directory.
    have htarget : decTarget env fs destPath i = env.resolve destPath ++ i.rel := by
      rw [decTarget, if_neg hplain, copyTarget, if_neg hdir]
    have hlast := ht.last hP hi
    rw [show (decPlacement env fs srcPath destPath dataKey).target i = _ from htarget] at hlast
    rw [if_neg hdir, if_neg]
    intro hnow
    rw [FileTree.isDirectory_iff.mp hnow] at hlast
    simp at hlast

theorem ready_of_parent (h : Decryptable env fs srcPath destPath dataKey)
    (hP : (decPlacement env fs srcPath destPath dataKey).Free)
    (ht : (decPlacement env fs srcPath destPath dataKey).Between t)
    (hi : i ∈ dirItems env fs srcPath)
    (hparent : t.node (env.resolve destPath ++ i.rel).dropLast = some .dir) :
    t.node (decTarget env fs destPath i).dropLast = some .dir := by
  obtain ⟨dir, hrel⟩ := exists_concat h hi
  unfold decTarget copyTarget
  split
  · rw [SourceItem.decDest, hrel, decLocation_concat, ← List.append_assoc, List.dropLast_concat]
    rwa [hrel, ← List.append_assoc, List.dropLast_concat] at hparent
  · split
    next hdir =>
      rw [List.dropLast_concat]
      exact ht.dir_of_start hP (FileTree.isDirectory_iff.mp hdir)
    next => exact hparent

theorem copyItem_places (h : Decryptable env fs srcPath destPath dataKey)
    (hP : (decPlacement env fs srcPath destPath dataKey).Free)
    (ht : (decPlacement env fs srcPath destPath dataKey).Between t)
    (hi : i ∈ dirItems env fs srcPath) (hplain : ¬ i.isEnc = true)
    (hparent : t.node (env.resolve destPath ++ i.rel).dropLast = some .dir) :
    ∃ t', copyItem env destPath i t = (.ok (), t') ∧
      (decPlacement env fs srcPath destPath dataKey).Advances t t' ∧
      (decPlacement env fs srcPath destPath dataKey).Placed i t' := by
  obtain ⟨c, hc⟩ := h.opens i hi
  obtain ⟨t', hwrite, hadv, hplaced⟩ :=
    ht.writeFile hP hi hc (ready_of_parent h hP ht hi hparent)
  obtain ⟨content, hcontent, hrestores⟩ := hc
  rw [if_neg hplain] at hrestores
  subst hrestores
  have haway : decTarget env fs destPath i ≠ i.loc := by
    intro heq
    have hunder := decTarget_under env fs destPath i
    obtain ⟨rel, _, rfl, _⟩ := mem_dirItems.mp hi
    rw [heq] at hunder
    exact h.apart.not_under_both (List.prefix_append _ rel) hunder
  refine ⟨t', ?_, hadv, hplaced⟩
  have hwrite' : t.writeFile (decTarget env fs destPath i) c = some t' := hwrite
  simp only [copyItem, copyTarget_between hP ht hi hplain, fileAt_source h ht hi, hcontent,
    if_neg haway, hwrite']

theorem path_ne_decPath (h : Decryptable env fs srcPath destPath dataKey)
    (hmeet : NoMeeting env fs srcPath destPath dataKey) (hi : i ∈ dirItems env fs srcPath)
    (henc : i.isEnc = true) : i.path ≠ pathAppend destPath (relText (decLocation i.rel)) := by
  obtain ⟨dir, hrel⟩ := exists_concat h hi
  have hdots := hmeet.named i hi henc
  have hext : extension i.name = kEncSuffix := by simpa [SourceItem.isEnc] using henc
  obtain ⟨rel, c, rfl, hc⟩ := mem_dirItems.mp hi
  have hvalid : ∀ n ∈ rel, ValidName n :=
    h.names rel (by rw [FileTree.fileAt_eq_some.mp hc]; exact Option.some_ne_none _)
  apply path_ne h.resolves h.apart hvalid
  rw [hrel, decLocation_concat]
  have hrel' : rel = dir ++ [SourceItem.name (dirItem env srcPath rel)] := hrel
  intro n hn
  rcases List.mem_append.mp hn with hn | hn
  · exact hvalid n (hrel' ▸ List.mem_append_left _ hn)
  · obtain rfl := List.mem_singleton.mp hn
    refine (hvalid _ ?_).stem hext hdots
    rw [hrel']
    simp [SourceItem.name, dirItem]

theorem decryptItem_places (h : Decryptable env fs srcPath destPath dataKey)
    (hmeet : NoMeeting env fs srcPath destPath dataKey)
    (ht : (decPlacement env fs srcPath destPath dataKey).Between t)
    (hi : i ∈ dirItems env fs srcPath) (henc : i.isEnc = true)
    (hready : t.node (decTarget env fs destPath i).dropLast = some .dir) :
    ∃ t', decryptItem env destPath dataKey i t = (.ok (), t') ∧
      (decPlacement env fs srcPath destPath dataKey).Advances t t' ∧
      (decPlacement env fs srcPath destPath dataKey).Placed i t' := by
  obtain ⟨c, hc⟩ := h.opens i hi
  obtain ⟨t', hwrite, hadv, hplaced⟩ := ht.writeFile hmeet.free hi hc hready
  obtain ⟨content, hcontent, hrestores⟩ := hc
  rw [if_pos henc] at hrestores
  refine ⟨t', ?_, hadv, hplaced⟩
  have hwrite' : t.writeFile (i.decDest env destPath) c = some t' := by
    have htarget : decTarget env fs destPath i = i.decDest env destPath := if_pos henc
    rw [← htarget]
    exact hwrite
  obtain ⟨s, hrun, hout⟩ := hrestores _ _ (path_ne_decPath h hmeet hi henc)
  simp only [decryptItem, fileAt_source h ht hi, hcontent, hmeet.named i hi henc, hrun, hout,
    storeOutput_of_writeFile hwrite', Bool.false_eq_true, if_false]

theorem decryptPool_works (h : Decryptable env fs srcPath destPath dataKey)
    (hmeet : NoMeeting env fs srcPath destPath dataKey) :
    (decryptPool env destPath dataKey).Works (dirItems env fs srcPath)
      (decPlacement env fs srcPath destPath dataKey).Between
      (fun i t => i.isEnc = true ∧ t.node (decTarget env fs destPath i).dropLast = some .dir)
      (decPlacement env fs srcPath destPath dataKey).Placed := by
  have hkeeps : ∀ {t t'}, (decPlacement env fs srcPath destPath dataKey).Advances t t' →
      TaskPool.Keeps (dirItems env fs srcPath)
        (decPlacement env fs srcPath destPath dataKey).Between
        (fun i t => i.isEnc = true ∧ t.node (decTarget env fs destPath i).dropLast = some .dir)
        (decPlacement env fs srcPath destPath dataKey).Placed t' t :=
    fun hadv => ⟨hadv.between, fun i _ hi => ⟨hi.1, hadv.dir _ hi.2⟩, hadv.placed⟩
  constructor
  · intro i hi t ht
    obtain ⟨t₁, hensure, hadv, hparent⟩ :=
      ht.ensureParent hmeet.free hi (parent_above h hi)
    by_cases henc : i.isEnc = true
    · refine ⟨t₁, hkeeps hadv,
        .inl ⟨?_, henc, ready_of_parent h hmeet.free hadv.between hi hparent⟩⟩
      simp only [decryptPool, hensure, if_pos henc]
    · obtain ⟨t₂, hcopy, hadv', hplaced⟩ :=
        copyItem_places h hmeet.free hadv.between hi henc hparent
      refine ⟨t₂, hkeeps (hadv.trans hadv'), .inr ⟨?_, hplaced⟩⟩
      simp only [decryptPool, hensure, if_neg henc, hcopy]
  · rintro i hi t r t' ht ⟨henc, hready⟩ htask
    obtain ⟨t₁, hrun, hadv, hplaced⟩ := decryptItem_places h hmeet ht hi henc hready
    cases (htask : decryptItem env destPath dataKey i t = (r, t')).symm.trans hrun
    exact ⟨rfl, hkeeps hadv, hplaced⟩

/-- Whatever the schedule, every file is placed and nothing else changes. -/
theorem decryptToDir_places (h : Decryptable env fs srcPath destPath dataKey)
    (hmeet : NoMeeting env fs srcPath destPath dataKey) :
    DecryptToDir env fs srcPath destPath dataKey fun fs' error => error = none ∧
      (decPlacement env fs srcPath destPath dataKey).Between fs' ∧
      ∀ i ∈ dirItems env fs srcPath,
        (decPlacement env fs srcPath destPath dataKey).Placed i fs' := by
  rw [DecryptToDir, sourceItems_of_dir h.source]
  intro todo hperm
  exact (decryptPool_works h hmeet).endsIn hperm (Placement.between_start _)

/-! ## What a run without an exception shows -/

theorem kindsKept_copyItem {t' : FileSystem} {result : Except Exn Unit}
    (h : copyItem env destPath i t = (result, t')) : t.KindsKept t' := by
  simp only [copyItem] at h
  split at h
  next =>
    cases h
    exact .refl _
  next c hc =>
    split at h
    next =>
      cases h
      exact .refl _
    next =>
      split at h
      next =>
        cases h
        exact .refl _
      next fs₁ hwrite =>
        cases h
        exact .writeFile hwrite

theorem decryptItem_spec {t' : FileSystem} {result : Except Exn Unit}
    (h : decryptItem env destPath dataKey i t = (result, t')) :
    t.KindsKept t' ∧ (result = .ok () → isDots (stem i.name) = false) := by
  simp only [decryptItem] at h
  split at h
  next =>
    cases h
    refine ⟨.refl _, ?_⟩
    intro hok
    cases hok
  next c hc =>
    split at h
    next =>
      cases h
      refine ⟨.refl _, ?_⟩
      intro hok
      cases hok
    next hdots =>
      split at h
      next => exact ⟨kindsKept_storeOutput h, fun _ => by simpa using hdots⟩
      next => exact ⟨kindsKept_storeOutput h, fun _ => by simpa using hdots⟩

theorem decryptPool_tracks (env : ProxyEnv) (fs : FileSystem) (items : List SourceItem)
    (destPath dataKey : Bytes) :
    (decryptPool env destPath dataKey).Tracks items fs.KindsKept (fun _ _ => True)
      (fun i _ => i.isEnc = true → isDots (stem i.name) = false) := by
  constructor
  · intro i hi t r t' ht hbody
    have hspec : t.KindsKept t' ∧ (r = .ok false → ¬ i.isEnc = true) := by
      simp only [decryptPool] at hbody
      split at hbody
      next =>
        cases hbody
        refine ⟨.refl _, ?_⟩
        intro hr
        cases hr
      next t₁ hensure =>
        have hkinds := FileTree.KindsKept.ensureParent hensure
        split at hbody
        next =>
          cases hbody
          refine ⟨hkinds, ?_⟩
          intro hr
          cases hr
        next henc =>
          split at hbody
          next t₂ hcopy =>
            cases hbody
            exact ⟨hkinds.trans (kindsKept_copyItem hcopy), fun _ => henc⟩
          next e t₂ hcopy =>
            cases hbody
            exact ⟨hkinds.trans (kindsKept_copyItem hcopy), fun _ => henc⟩
    exact ⟨⟨ht.trans hspec.1, fun _ _ h => h, fun _ _ h => h⟩, fun _ => trivial,
      fun hr henc => absurd henc (hspec.2 hr)⟩
  · intro i hi t r t' ht _ htask
    obtain ⟨hkinds, hnamed⟩ := decryptItem_spec htask
    exact ⟨⟨ht.trans hkinds, fun _ _ h => h, fun _ _ h => h⟩, fun hok _ => hnamed hok⟩

theorem SchedulingFree.noMeeting (h : Decryptable env fs srcPath destPath dataKey)
    (hfree : SchedulingFree env fs srcPath destPath dataKey) :
    NoMeeting env fs srcPath destPath dataKey := by
  obtain ⟨final, hends, hfiles, hinj⟩ := hfree
  rw [DecryptToDir, sourceItems_of_dir h.source] at hends
  obtain ⟨fs', error, ⟨herror, hfinal⟩, hkinds, hnamed⟩ :=
    (decryptPool_tracks env fs _ destPath dataKey).done_of_endsIn (List.Perm.refl _)
      (FileTree.KindsKept.refl fs) (hends _ (List.Perm.refl _))
  refine ⟨hnamed herror, Placement.free_of_placed hkinds (fun i hi => ?_) hinj⟩
  obtain ⟨c, hrestores, hc⟩ := hfiles i hi
  rw [← hfinal] at hc
  exact ⟨c, hrestores, FileTree.fileAt_eq_some.mp hc⟩

theorem NoMeeting.schedulingFree (h : Decryptable env fs srcPath destPath dataKey)
    (hmeet : NoMeeting env fs srcPath destPath dataKey) :
    SchedulingFree env fs srcPath destPath dataKey := by
  have hplaces := decryptToDir_places h hmeet
  rw [DecryptToDir, sourceItems_of_dir h.source] at hplaces
  -- The outcome of one schedule is the outcome of all.
  obtain ⟨fs₁, error, _, hbetween, hplaced⟩ := (hplaces _ (List.Perm.refl _)).exists_of
  refine ⟨fs₁.fileAt, ?_, fun i hi => ?_, fun i hi j hj => hmeet.free.target_inj hi hj⟩
  · rw [DecryptToDir, sourceItems_of_dir h.source]
    intro todo hperm
    refine (hplaces todo hperm).mono fun fs' error hend => ⟨hend.1, fun p => ?_⟩
    exact Placement.fileAt_unique (fun _ _ _ => Restores.unique) hend.2.1 hbetween hend.2.2
      hplaced p
  · obtain ⟨c, hrestores, hc⟩ := hplaced i hi
    exact ⟨c, hrestores, FileTree.fileAt_eq_some.mpr hc⟩

end Decrypt

/-- The outcome of a decryption is independent of the schedule, with one file for each file of
    the source, exactly when no two files meet. -/
theorem decryptToDir_schedulingFree_iff (env : ProxyEnv) (fs : FileSystem)
    (srcPath destPath dataKey : Bytes) (h : Decryptable env fs srcPath destPath dataKey) :
    SchedulingFree env fs srcPath destPath dataKey ↔
      NoMeeting env fs srcPath destPath dataKey :=
  ⟨fun hfree => hfree.noMeeting h, fun hmeet => hmeet.schedulingFree h⟩

/-! ## A file beside an encrypted one -/

def directKey : Bytes := List.replicate 16 1

def encryptedX : FileContent :=
  ⟨encryptedFile plainGcm directKey (fun _ => zeroIv) (str "x"),
    by decide +kernel⟩

/-- A source with the encrypted file `a.enc` and a plain file. -/
def mixedTree (name : Name) : FileSystem :=
  treeOf [([str "src", str "a.enc"], encryptedX), ([str "src", name], fileY)]

theorem decryptsTo_encryptedX :
    DecryptsTo directEnv.gcm directKey encryptedX.bytes (str "x") := by
  intro src dest hne
  exact decryptFile_encryptedFile _ hne rfl (fun _ _ _ _ => rfl) (by decide) (by decide)

theorem decryptable_mixedTree {name : Name} (hname : extension name ≠ kEncSuffix)
    (hitems : dirItems directEnv (mixedTree name) (str "/src") =
      [dirItem directEnv (str "/src") [name], dirItem directEnv (str "/src") [str "a.enc"]])
    (hdir : (mixedTree name).isDirectory (directEnv.resolve (str "/src")) = true)
    (hnames : ∀ p ∈ (mixedTree name).listed, ∀ n ∈ p, ValidName n)
    (hx : (mixedTree name).fileAt [str "src", str "a.enc"] = some encryptedX)
    (hy : ((mixedTree name).fileAt [str "src", name]).isSome = true) :
    Decryptable directEnv (mixedTree name) (str "/src") (str "/out") directKey where
  resolves := resolvesNames_pathComponents
  source := FileTree.isDirectory_iff.mp hdir
  names := validNamesUnder_of_listed hnames
  apart := by unfold Apart; decide
  opens := by
    rw [hitems]
    intro i hi
    simp only [List.mem_cons, List.not_mem_nil, or_false] at hi
    rcases hi with rfl | rfl
    · obtain ⟨c, hc⟩ := Option.isSome_iff_exists.mp hy
      refine ⟨c, c, hc, ?_⟩
      rw [if_neg]
      simpa [SourceItem.isEnc, SourceItem.name, dirItem] using hname
    · refine ⟨fileX, encryptedX, hx, ?_⟩
      rw [if_pos (by decide)]
      exact decryptsTo_encryptedX

theorem decryptToDir_schedulingFree_mixed :
    SchedulingFree directEnv (mixedTree (str "b")) (str "/src") (str "/out") directKey :=
  (decryptToDir_schedulingFree_iff _ _ _ _ _
    (decryptable_mixedTree (by decide) (by decide) (by decide) (by decide)
      (by decide) (by decide))).mpr
    ⟨by decide, by decide⟩

def plainA : SourceItem := dirItem directEnv (str "/src") [str "a"]

def encA : SourceItem := dirItem directEnv (str "/src") [str "a.enc"]

def afterBody (i : SourceItem) (fs : FileSystem) : FileSystem :=
  ((decryptPool directEnv (str "/out") directKey).body i fs).2

def afterTask (i : SourceItem) (fs : FileSystem) : FileSystem :=
  (decryptItem directEnv (str "/out") directKey i fs).2

theorem body_eq {i : SourceItem} {fs : FileSystem} {r : Except Exn Bool}
    (h : ((decryptPool directEnv (str "/out") directKey).body i fs).1 = r) :
    (decryptPool directEnv (str "/out") directKey).body i fs = (r, afterBody i fs) :=
  Prod.ext h rfl

theorem task_eq {i : SourceItem} {fs : FileSystem} {r : Except Exn Unit}
    (h : (decryptItem directEnv (str "/out") directKey i fs).1 = r) :
    (decryptPool directEnv (str "/out") directKey).task i fs r (afterTask i fs) :=
  Prod.ext h rfl

/-- The task of `a.enc` in a file system that has it: the plaintext is stored. -/
theorem decryptItem_encA {fs : FileSystem} (h : fs.fileAt encA.loc = some encryptedX) :
    decryptItem directEnv (str "/out") directKey encA fs =
      storeOutput fs (encA.decDest directEnv (str "/out")) (some (str "x")) (.ok ()) := by
  have hname : isDots (stem encA.name) = false := by decide
  obtain ⟨s, hrun, hout⟩ := decryptsTo_encryptedX encA.path
    (pathAppend (str "/out") (relText (decLocation encA.rel))) (by decide)
  simp only [decryptItem, h, hname, hrun, hout, Bool.false_eq_true, if_false]

/-- The copy, the launch, the decryption. -/
theorem runs_copy_first : (decryptPool directEnv (str "/out") directKey).Runs (mixedTree (str "a"))
    ⟨[plainA, encA], [], none⟩
    (afterTask encA (afterBody encA (afterBody plainA (mixedTree (str "a"))))) ⟨[], [], none⟩ :=
  .head (.inline (body_eq (by decide)))
    (.head (.launch (body_eq (by decide)))
      (.head (.complete [] [] (task_eq (by rw [decryptItem_encA rfl]; decide))) (.refl _ _ _)))

/-- The launch, the decryption, the copy. -/
theorem runs_decrypt_first :
    (decryptPool directEnv (str "/out") directKey).Runs (mixedTree (str "a"))
      ⟨[encA, plainA], [], none⟩
      (afterBody plainA (afterTask encA (afterBody encA (mixedTree (str "a"))))) ⟨[], [], none⟩ :=
  .head (.launch (body_eq (by decide)))
    (.head (.complete [] [] (task_eq (by rw [decryptItem_encA rfl]; decide)))
      (.head (.inline (body_eq (by rw [afterTask, decryptItem_encA rfl]; decide))) (.refl _ _ _)))

/-- `a.enc` is decrypted to `a`, and the plain file `a` is copied there too: the later of the two
    is what remains. -/
theorem decryptToDir_meets :
    Decryptable directEnv (mixedTree (str "a")) (str "/src") (str "/out") directKey ∧
      ¬ SchedulingFree directEnv (mixedTree (str "a")) (str "/src") (str "/out") directKey := by
  refine ⟨decryptable_mixedTree (by decide) (by decide) (by decide)
    (by decide) (by decide) (by decide), ?_⟩
  rintro ⟨final, hends, _⟩
  have hitems : sourceItems directEnv (mixedTree (str "a")) (str "/src") = .ok [plainA, encA] := by
    decide
  rw [DecryptToDir, hitems] at hends
  have hcopied := ((hends _ (List.Perm.refl _)).of_runs runs_copy_first).2 [str "out", str "a"]
  have hdecrypted := ((hends _ (List.Perm.swap _ _ _)).of_runs runs_decrypt_first).2
    [str "out", str "a"]
  rw [afterTask, decryptItem_encA rfl] at hcopied
  rw [afterTask, decryptItem_encA rfl] at hdecrypted
  exact absurd (hcopied.trans hdecrypted.symm) (by decide)

end TrustFlow.Proxy
