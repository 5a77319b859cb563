import TrustFlow.Proxy.DecryptScheduling

/-! # Round trip of directories

`EncryptToDir` followed by `DecryptToDir` gives every file of the source back under
its own name, for every schedule of both, unless the encrypted name of a file is
that of a directory on the way to another.  The two halves meet in `EncryptedCopy`,
a description of the directory with the encrypted files. -/

namespace TrustFlow.Proxy

/-! ## The three directories -/

def EmptyDir (fs : FileSystem) (root : Location Name) : Prop :=
  fs.node root = some .dir ∧ ∀ rel, rel ≠ [] → fs.node (root ++ rel) = none

/-- The length of the encrypted file for a plaintext of `n` bytes. -/
def encryptedLength (n : Nat) : Nat := headerLen + (packetCntOf n * blockHeaderLen + n)

section Defs

variable (env : ProxyEnv) (fs : FileSystem) (srcPath encPath outPath dataKey : Bytes)

/-- A source with no empty file, and two empty directories beside it. -/
structure ThreeDirs : Prop where
  resolves : ResolvesNames env.resolve
  inverts : env.gcm.Inverts
  key : dataKey.length = kAes128KeyLen ∨ dataKey.length = kAes256KeyLen
  source : fs.node (env.resolve srcPath) = some .dir
  names : ValidNamesUnder fs (env.resolve srcPath)
  nonempty : ∀ rel c, fs.fileAt (env.resolve srcPath ++ rel) = some c → 1 ≤ c.bytes.length
  enc : EmptyDir fs (env.resolve encPath)
  out : EmptyDir fs (env.resolve outPath)
  src_enc : Apart (env.resolve srcPath) (env.resolve encPath)
  src_out : Apart (env.resolve srcPath) (env.resolve outPath)
  enc_out : Apart (env.resolve encPath) (env.resolve outPath)

/-- All schedules of both calls end without an exception, and then the files of the output are
    those of the source. -/
def RoundTrips : Prop :=
  EncryptToDir env fs srcPath encPath dataKey fun fs₁ error => error = none ∧
    DecryptToDir env fs₁ encPath outPath dataKey fun fs₂ error => error = none ∧
      ∀ rel, fs₂.fileAt (env.resolve outPath ++ rel) = fs.fileAt (env.resolve srcPath ++ rel)

/-- No file has the encrypted name of another as a directory on its way, and every encrypted file
    fits in a file. -/
structure Encryptable : Prop where
  noClash : ∀ rel c rel' c', fs.fileAt (env.resolve srcPath ++ rel) = some c →
    fs.fileAt (env.resolve srcPath ++ rel') = some c' → ¬ encLocation rel <+: rel'.dropLast
  fits : ∀ rel c, fs.fileAt (env.resolve srcPath ++ rel) = some c →
    encryptedLength c.bytes.length < 2 ^ 63

/-- The directory with the encrypted files: one for every file of the source, and nothing else. -/
structure EncryptedCopy (fs₁ : FileSystem) : Prop where
  root : fs₁.node (env.resolve encPath) = some .dir
  out : EmptyDir fs₁ (env.resolve outPath)
  names : ValidNamesUnder fs₁ (env.resolve encPath)
  files : ∀ rel₁ c₁, fs₁.fileAt (env.resolve encPath ++ rel₁) = some c₁ →
    ∃ rel c, rel₁ = encLocation rel ∧ fs.fileAt (env.resolve srcPath ++ rel) = some c ∧
      DecryptsTo env.gcm dataKey c₁.bytes c.bytes
  copied : ∀ rel c, fs.fileAt (env.resolve srcPath ++ rel) = some c →
    ∃ c₁, fs₁.fileAt (env.resolve encPath ++ encLocation rel) = some c₁

def encPlacement : Placement SourceItem Name FileContent :=
  ⟨fs, dirItems env fs srcPath, SourceItem.dest env encPath, fun i c =>
    ∃ content, fs.fileAt i.loc = some content ∧ DecryptsTo env.gcm dataKey c.bytes content.bytes⟩

end Defs

theorem EmptyDir.roomFor {fs : FileSystem} {root rel : Location Name} (h : EmptyDir fs root)
    (hrel : rel ≠ []) : fs.RoomFor (root ++ rel) := by
  refine ⟨fun q hq => ?_, .inl (h.2 rel hrel)⟩
  have hq' := hq.trans (List.dropLast_prefix _)
  rcases List.prefix_or_prefix_of_prefix hq' (List.prefix_append root rel) with habove | hunder
  · -- What lies above a directory is a directory.
    obtain ⟨rest, rfl⟩ := habove
    cases rest with
    | nil => exact .inr (by simpa using h.1)
    | cons x xs => exact .inr (fs.node_of_under (List.cons_ne_nil x xs) (by rw [h.1]; simp))
  · obtain ⟨rest, rfl⟩ := hunder
    cases rest with
    | nil => exact .inr (by simpa using h.1)
    | cons x xs => exact .inl (h.2 _ (List.cons_ne_nil x xs))

theorem EmptyDir.fileAt {fs : FileSystem} {root : Location Name} (h : EmptyDir fs root)
    (rel : Location Name) : fs.fileAt (root ++ rel) = none := by
  cases rel with
  | nil => simp [FileTree.fileAt, h.1]
  | cons x xs => simp [FileTree.fileAt, h.2 _ (List.cons_ne_nil x xs)]

section RoundTrip

variable {env : ProxyEnv} {fs fs₁ t : FileSystem} {srcPath encPath outPath dataKey : Bytes}
  {i : SourceItem}

/-! ## Encrypting -/

theorem valid_of_file (h : ThreeDirs env fs srcPath encPath outPath dataKey) {rel : Location Name}
    {c : FileContent} (hc : fs.fileAt (env.resolve srcPath ++ rel) = some c) :
    ∀ n ∈ rel, ValidName n :=
  h.names rel (by rw [FileTree.fileAt_eq_some.mp hc]; exact Option.some_ne_none _)

theorem encPlacement_free (h : ThreeDirs env fs srcPath encPath outPath dataKey)
    (henc : Encryptable env fs srcPath) :
    (encPlacement env fs srcPath encPath dataKey).Free := by
  constructor
  · intro i hi
    obtain ⟨rel, c, rfl, hc⟩ := mem_dirItems.mp hi
    exact h.enc.roomFor (encLocation_ne_nil (rel_ne_nil h.source hc))
  · intro i hi j hj hpre
    obtain ⟨rel, c, rfl, hc⟩ := mem_dirItems.mp hi
    obtain ⟨rel', c', rfl, hc'⟩ := mem_dirItems.mp hj
    have hpre' : encLocation rel <+: encLocation rel' :=
      (List.prefix_append_right_inj _).mp hpre
    obtain ⟨rest, hrest⟩ := hpre'
    cases rest with
    | nil => rw [encLocation_inj ((List.append_nil _).symm.trans hrest)]
    | cons x xs =>
      refine absurd ?_ (henc.noClash rel c rel' c' hc hc')
      rw [← encLocation_dropLast (rel_ne_nil h.source hc'), ← hrest,
        List.dropLast_append_of_ne_nil (List.cons_ne_nil x xs)]
      exact List.prefix_append _ _

theorem node_eq_of_apart {root : Location Name}
    (ht : (encPlacement env fs srcPath encPath dataKey).Between t)
    (hapart : Apart root (env.resolve encPath)) {p : Location Name} (hp : root <+: p) :
    t.node p = fs.node p :=
  ht.node_eq fun i _ hpre =>
    hapart.not_under_both (hp.trans hpre) (List.prefix_append _ (encLocation i.rel))

theorem path_ne_destText (h : ThreeDirs env fs srcPath encPath outPath dataKey)
    {rel : Location Name} {c : FileContent}
    (hc : fs.fileAt (env.resolve srcPath ++ rel) = some c) :
    pathAppend srcPath (relText rel) ≠ (dirItem env srcPath rel).destText encPath := by
  have hvalid := valid_of_file h hc
  have hne := rel_ne_nil h.source hc
  rw [SourceItem.destText, dirItem, ← pathAppend_append _ _ (relText_ne_nil hvalid hne),
    ← relText_encLocation hne]
  exact path_ne h.resolves h.src_enc hvalid (valid_encLocation hvalid)

theorem encryptItem_places (h : ThreeDirs env fs srcPath encPath outPath dataKey)
    (henc : Encryptable env fs srcPath)
    (ht : (encPlacement env fs srcPath encPath dataKey).Between t)
    (hi : i ∈ dirItems env fs srcPath)
    (hready : t.node (i.dest env encPath).dropLast = some .dir) (ivs : Nat → Blob kIvBytes) :
    ∃ t', encryptItem env ivs encPath dataKey i t = (.ok (), t') ∧
      (encPlacement env fs srcPath encPath dataKey).Advances t t' ∧
      (encPlacement env fs srcPath encPath dataKey).Placed i t' := by
  obtain ⟨rel, content, rfl, hcontent⟩ := mem_dirItems.mp hi
  obtain ⟨cipher, hcipher, hinverts⟩ := gcmOf_of_length h.inverts h.key
  have hpos := h.nonempty rel content hcontent
  have hsize : (encryptedFile cipher dataKey ivs content.bytes).length < 2 ^ 63 := by
    rw [encryptedFile_length hpos]
    exact henc.fits rel content hcontent
  have hdecrypts : DecryptsTo env.gcm dataKey (encryptedFile cipher dataKey ivs content.bytes)
      content.bytes := fun src dest hne =>
    decryptFile_encryptedFile ivs hne hcipher hinverts hpos content.size
  obtain ⟨s, hrun, hout⟩ := encryptFile_run ivs (path_ne_destText h hcontent) hcipher hpos
  obtain ⟨t', hwrite, hadv, hplaced⟩ := ht.writeFile (encPlacement_free h henc) hi
    (c := ⟨encryptedFile cipher dataKey ivs content.bytes, hsize⟩)
    ⟨content, hcontent, hdecrypts⟩ hready
  refine ⟨t', ?_, hadv, hplaced⟩
  have hfile : t.fileAt (dirItem env srcPath rel).loc = some content := by
    rw [← hcontent]
    simp only [FileTree.fileAt, dirItem,
      node_eq_of_apart ht h.src_enc (List.prefix_append _ rel)]
  have hstore := storeOutput_of_writeFile hwrite (.ok ())
  simp only [encryptItem, hfile]
  rw [show (dirItem env srcPath rel).path = pathAppend srcPath (relText rel) from rfl, hrun]
  simp only [hout]
  exact hstore

theorem encryptPool_works (h : ThreeDirs env fs srcPath encPath outPath dataKey)
    (henc : Encryptable env fs srcPath) :
    (encryptPool env encPath dataKey).Works (dirItems env fs srcPath)
      (encPlacement env fs srcPath encPath dataKey).Between
      (fun i t => t.node (i.dest env encPath).dropLast = some .dir)
      (encPlacement env fs srcPath encPath dataKey).Placed := by
  have hkeeps : ∀ {t t'}, (encPlacement env fs srcPath encPath dataKey).Advances t t' →
      TaskPool.Keeps (dirItems env fs srcPath)
        (encPlacement env fs srcPath encPath dataKey).Between
        (fun i t => t.node (i.dest env encPath).dropLast = some .dir)
        (encPlacement env fs srcPath encPath dataKey).Placed t' t :=
    fun hadv => ⟨hadv.between, fun _ _ hdir => hadv.dir _ hdir, hadv.placed⟩
  constructor
  · intro i hi t ht
    obtain ⟨t', hensure, hadv, hdir⟩ :=
      ht.ensureParent (encPlacement_free h henc) hi List.prefix_rfl
    refine ⟨t', hkeeps hadv, .inl ⟨?_, hdir⟩⟩
    have hensure' : t.ensureParent (i.dest env encPath) = some t' := hensure
    simp only [encryptPool, hensure']
  · rintro i hi t r t' ht hready ⟨ivs, htask⟩
    obtain ⟨t₁, hrun, hadv, hplaced⟩ := encryptItem_places h henc ht hi hready ivs
    cases htask.symm.trans hrun
    exact ⟨rfl, hkeeps hadv, hplaced⟩

theorem encryptedCopy_of_placed (h : ThreeDirs env fs srcPath encPath outPath dataKey)
    (henc : Encryptable env fs srcPath)
    (ht : (encPlacement env fs srcPath encPath dataKey).Between fs₁)
    (hplaced : ∀ i ∈ dirItems env fs srcPath,
      (encPlacement env fs srcPath encPath dataKey).Placed i fs₁) :
    EncryptedCopy env fs srcPath encPath outPath dataKey fs₁ := by
  have hout : ∀ {p}, env.resolve outPath <+: p → fs₁.node p = fs.node p := fun hp =>
    node_eq_of_apart ht ⟨h.enc_out.2, h.enc_out.1⟩ hp
  refine ⟨ht.dir_of_start (encPlacement_free h henc) h.enc.1, ⟨?_, ?_⟩, ?_, ?_, ?_⟩
  · rw [hout List.prefix_rfl]
    exact h.out.1
  · intro rel hrel
    rw [hout (List.prefix_append _ rel)]
    exact h.out.2 rel hrel
  · -- A name in the directory is one of the source, or the encrypted name of a file.
    intro rel₁ hnode n hn
    rcases ht (env.resolve encPath ++ rel₁) with hsame | ⟨_, _, i, hi, hpre⟩ | ⟨i, hi, heq, _⟩
    · cases rel₁ with
      | nil => cases hn
      | cons x xs =>
        rw [hsame] at hnode
        exact absurd (h.enc.2 _ (List.cons_ne_nil x xs)) hnode
    · obtain ⟨rel, c, rfl, hc⟩ := mem_dirItems.mp hi
      have hpre' : rel₁ <+: encLocation rel :=
        (List.prefix_append_right_inj _).mp (hpre.trans (List.dropLast_prefix _))
      exact valid_encLocation (valid_of_file h hc) n (hpre'.subset hn)
    · obtain ⟨rel, c, rfl, hc⟩ := mem_dirItems.mp hi
      obtain rfl : rel₁ = encLocation rel := List.append_cancel_left heq
      exact valid_encLocation (valid_of_file h hc) n hn
  · intro rel₁ c₁ hc₁
    rw [FileTree.fileAt_eq_some] at hc₁
    rcases ht (env.resolve encPath ++ rel₁) with hsame | ⟨_, hdir, _⟩ | ⟨i, hi, heq, c, hgood, hc⟩
    · have hfile : fs.fileAt (env.resolve encPath ++ rel₁) = some c₁ :=
        FileTree.fileAt_eq_some.mpr (hsame.symm.trans hc₁)
      simp [h.enc.fileAt rel₁] at hfile
    · simp [hdir] at hc₁
    · obtain ⟨rel, _, rfl, _⟩ := mem_dirItems.mp hi
      rw [← heq, hc₁] at hc
      cases hc
      obtain ⟨content, hcontent, hdecrypts⟩ := hgood
      exact ⟨rel, content, List.append_cancel_left heq, hcontent, hdecrypts⟩
  · intro rel c hc
    obtain ⟨c₁, _, hnode⟩ := hplaced _ (mem_dirItems.mpr ⟨rel, c, rfl, hc⟩)
    exact ⟨c₁, FileTree.fileAt_eq_some.mpr hnode⟩

/-! ## Decrypting what was encrypted -/

/-- What the encrypted file of `rel` with content `c` is to the decryption: it has the extension,
    and it is decrypted to `c`, under the name of the source. -/
structure ReturnsTo (env : ProxyEnv) (fs₁ : FileSystem) (outPath dataKey : Bytes) (i : SourceItem)
    (rel : Location Name) (c : FileContent) : Prop where
  isEnc : i.isEnc = true
  notDots : isDots (stem i.name) = false
  target : decTarget env fs₁ outPath i = env.resolve outPath ++ rel
  restores : Restores env fs₁ dataKey i c

/-- A file under an encrypted name that decrypts is taken for the file of the name without the
    suffix. -/
theorem returnsTo_of_decrypts {dirPath : Bytes} {rel : Location Name} {c c₁ : FileContent}
    (hne : rel ≠ []) (hvalid : ∀ n ∈ rel, ValidName n)
    (hc₁ : fs₁.fileAt (env.resolve dirPath ++ encLocation rel) = some c₁)
    (hdecrypts : DecryptsTo env.gcm dataKey c₁.bytes c.bytes) :
    ReturnsTo env fs₁ outPath dataKey (dirItem env dirPath (encLocation rel)) rel c := by
  obtain ⟨dir, n, rfl⟩ := (List.eq_nil_or_concat' rel).resolve_left hne
  have hn := hvalid n (by simp)
  have hname : (dirItem env dirPath (encLocation (dir ++ [n]))).name = n ++ kEncSuffix := by
    simp [SourceItem.name, dirItem, encLocation_concat]
  have henc : (dirItem env dirPath (encLocation (dir ++ [n]))).isEnc = true := by
    simp [SourceItem.isEnc, hname, extension_append_enc hn.ne_nil]
  constructor
  case isEnc => exact henc
  case notDots => rw [hname, stem_append_enc hn.ne_nil, hn.notDots]
  case target =>
    rw [decTarget, if_pos henc, SourceItem.decDest, dirItem, decLocation_encLocation hvalid]
  case restores => exact ⟨c₁, hc₁, by rwa [if_pos henc]⟩

theorem EncryptedCopy.returnsTo (h : ThreeDirs env fs srcPath encPath outPath dataKey)
    (h₁ : EncryptedCopy env fs srcPath encPath outPath dataKey fs₁) {rel : Location Name}
    {c : FileContent} (hc : fs.fileAt (env.resolve srcPath ++ rel) = some c) :
    ReturnsTo env fs₁ outPath dataKey (dirItem env encPath (encLocation rel)) rel c := by
  obtain ⟨c₁, hc₁⟩ := h₁.copied _ c hc
  obtain ⟨rel', c', hrel', hc', hdecrypts⟩ := h₁.files _ c₁ hc₁
  obtain rfl := encLocation_inj hrel'
  obtain rfl : c = c' := Option.some.inj (hc.symm.trans hc')
  exact returnsTo_of_decrypts (rel_ne_nil h.source hc) (valid_of_file h hc) hc₁ hdecrypts

theorem EncryptedCopy.item (h : ThreeDirs env fs srcPath encPath outPath dataKey)
    (h₁ : EncryptedCopy env fs srcPath encPath outPath dataKey fs₁)
    (hi : i ∈ dirItems env fs₁ encPath) :
    ∃ rel c, i = dirItem env encPath (encLocation rel) ∧
      fs.fileAt (env.resolve srcPath ++ rel) = some c ∧
      ReturnsTo env fs₁ outPath dataKey i rel c := by
  obtain ⟨rel₁, c₁, rfl, hc₁⟩ := mem_dirItems.mp hi
  obtain ⟨rel, c, rfl, hc, _⟩ := h₁.files rel₁ c₁ hc₁
  exact ⟨rel, c, rfl, hc, h₁.returnsTo h hc⟩

theorem EncryptedCopy.decryptable (h : ThreeDirs env fs srcPath encPath outPath dataKey)
    (h₁ : EncryptedCopy env fs srcPath encPath outPath dataKey fs₁) :
    Decryptable env fs₁ encPath outPath dataKey where
  resolves := h.resolves
  source := h₁.root
  names := h₁.names
  apart := h.enc_out
  opens i hi := by
    obtain ⟨rel, c, _, _, hreturns⟩ := h₁.item h hi
    exact ⟨c, hreturns.restores⟩

theorem EncryptedCopy.noMeeting (h : ThreeDirs env fs srcPath encPath outPath dataKey)
    (h₁ : EncryptedCopy env fs srcPath encPath outPath dataKey fs₁) :
    NoMeeting env fs₁ encPath outPath dataKey := by
  refine ⟨fun i hi _ => ?_, fun i hi => ?_, fun i hi j hj hpre => ?_⟩
  · obtain ⟨rel, c, _, _, hreturns⟩ := h₁.item h hi
    exact hreturns.notDots
  · obtain ⟨rel, c, _, hc, hreturns⟩ := h₁.item h hi
    have hroom := h₁.out.roomFor (rel_ne_nil h.source hc)
    rwa [← hreturns.target] at hroom
  · obtain ⟨rel, c, rfl, hc, hreturns⟩ := h₁.item h hi
    obtain ⟨rel', c', rfl, hc', hreturns'⟩ := h₁.item h hj
    have hpre' : decTarget env fs₁ outPath _ <+: decTarget env fs₁ outPath _ := hpre
    rw [hreturns.target, hreturns'.target] at hpre'
    obtain ⟨rest, rfl⟩ := (List.prefix_append_right_inj _).mp hpre'
    -- Nothing lies under a file of the source.
    cases rest with
    | nil => rw [List.append_nil]
    | cons x xs =>
      rw [← List.append_assoc, FileTree.fileAt_eq_some] at hc'
      have hdir := fs.node_of_under (List.cons_ne_nil x xs) (by rw [hc']; simp)
      rw [FileTree.fileAt_eq_some.mp hc] at hdir
      cases hdir

theorem EncryptedCopy.restored (h : ThreeDirs env fs srcPath encPath outPath dataKey)
    (h₁ : EncryptedCopy env fs srcPath encPath outPath dataKey fs₁) {fs₂ : FileSystem}
    (ht : (decPlacement env fs₁ encPath outPath dataKey).Between fs₂)
    (hplaced : ∀ i ∈ dirItems env fs₁ encPath,
      (decPlacement env fs₁ encPath outPath dataKey).Placed i fs₂) (rel : Location Name) :
    fs₂.fileAt (env.resolve outPath ++ rel) = fs.fileAt (env.resolve srcPath ++ rel) := by
  cases hc : fs.fileAt (env.resolve srcPath ++ rel) with
  | some c =>
    obtain ⟨c₁, hc₁⟩ := h₁.copied rel c hc
    have hreturns := h₁.returnsTo h hc
    obtain ⟨c', hrestores, hnode⟩ := hplaced _ (mem_dirItems.mpr ⟨encLocation rel, c₁, rfl, hc₁⟩)
    have hfile : fs₂.node (decTarget env fs₁ outPath _) = some (.file c') := hnode
    rw [hreturns.target] at hfile
    rw [FileTree.fileAt_eq_some.mpr hfile, Restores.unique hrestores hreturns.restores]
  | none =>
    have haway : ∀ i ∈ dirItems env fs₁ encPath,
        env.resolve outPath ++ rel ≠ decTarget env fs₁ outPath i := by
      intro i hi heq
      obtain ⟨rel', c, _, hc', hreturns⟩ := h₁.item h hi
      rw [hreturns.target] at heq
      rw [← List.append_cancel_left heq, hc] at hc'
      cases hc'
    exact (ht.fileAt_eq haway).trans (h₁.out.fileAt rel)

/-! ## Both directions -/

theorem Encryptable.roundTrips (h : ThreeDirs env fs srcPath encPath outPath dataKey)
    (henc : Encryptable env fs srcPath) :
    RoundTrips env fs srcPath encPath outPath dataKey := by
  rw [RoundTrips, EncryptToDir, sourceItems_of_dir h.source]
  intro todo hperm
  refine ((encryptPool_works h henc).endsIn hperm (Placement.between_start _)).mono
    fun fs₁ error hend => ⟨hend.1, ?_⟩
  have h₁ := encryptedCopy_of_placed h henc hend.2.1 hend.2.2
  have hplaces := decryptToDir_places (h₁.decryptable h) (h₁.noMeeting h)
  rw [DecryptToDir, sourceItems_of_dir h₁.root] at hplaces ⊢
  exact fun todo hperm => (hplaces todo hperm).mono fun fs₂ error hend =>
    ⟨hend.1, h₁.restored h hend.2.1 hend.2.2⟩

/-- An encryption that did not fail has left a file at every destination. -/
theorem encryptPool_tracks (h : ThreeDirs env fs srcPath encPath outPath dataKey) :
    (encryptPool env encPath dataKey).Tracks (dirItems env fs srcPath)
      (fun t => ∀ p, env.resolve srcPath <+: p → t.node p = fs.node p) (fun _ _ => True)
      (fun i t => (∃ c, t.node (i.dest env encPath) = some (.file c)) ∧
        ∀ c, fs.fileAt i.loc = some c → encryptedLength c.bytes.length < 2 ^ 63) := by
  have hkeeps : ∀ {t t'}, (∀ p, env.resolve srcPath <+: p → t.node p = fs.node p) →
      t.KindsKept t' → ChangedOnlyAt (env.resolve encPath) t t' →
      TaskPool.Keeps (dirItems env fs srcPath)
        (fun t => ∀ p, env.resolve srcPath <+: p → t.node p = fs.node p) (fun _ _ => True)
        (fun i t => (∃ c, t.node (i.dest env encPath) = some (.file c)) ∧
          ∀ c, fs.fileAt i.loc = some c → encryptedLength c.bytes.length < 2 ^ 63) t' t := by
    intro t t' ht hkinds hchanged
    refine ⟨fun p hp => (hchanged.node_eq h.src_enc hp).trans (ht p hp), fun _ _ _ => trivial, ?_⟩
    rintro i _ ⟨⟨c, hc⟩, hfits⟩
    exact ⟨hkinds.file hc, hfits⟩
  constructor
  · intro i hi t r t' ht hbody
    simp only [encryptPool] at hbody
    split at hbody
    next =>
      cases hbody
      refine ⟨hkeeps ht (.refl _) (.refl _ _), fun _ => trivial, ?_⟩
      intro hr
      cases hr
    next t₁ hensure =>
      cases hbody
      refine ⟨hkeeps ht (.ensureParent hensure)
        (changedOnlyAt_ensureParent (List.prefix_append _ _) hensure), fun _ => trivial, ?_⟩
      intro hr
      cases hr
  · rintro i hi t r t' ht _ ⟨ivs, htask⟩
    have hchange := (encryptItem_spec htask).1
    refine ⟨?_, ?_⟩
    · rcases hchange with rfl | ⟨c, hwrite⟩
      · exact hkeeps ht (.refl _) (.refl _ _)
      · exact hkeeps ht (.writeFile hwrite)
          (changedOnlyAt_writeFile (List.prefix_append _ _) hwrite)
    · rintro rfl
      obtain ⟨p, c, cipher, hp, hwrite, _, hpos, hbytes⟩ := encryptItem_eq_ok htask
      refine ⟨⟨c, by rw [FileTree.node_writeFile hwrite, if_pos rfl]⟩, fun content hcontent => ?_⟩
      obtain ⟨rel, _, rfl, _⟩ := mem_dirItems.mp hi
      have hsame : t.fileAt (dirItem env srcPath rel).loc =
          fs.fileAt (dirItem env srcPath rel).loc := by
        simp only [FileTree.fileAt, dirItem, ht _ (List.prefix_append _ rel)]
      obtain rfl : p = content := Option.some.inj (hp.symm.trans (hsame.trans hcontent))
      have hsize := c.size
      rwa [hbytes, encryptedFile_length hpos] at hsize

theorem RoundTrips.encryptable (h : ThreeDirs env fs srcPath encPath outPath dataKey)
    (hround : RoundTrips env fs srcPath encPath outPath dataKey) :
    Encryptable env fs srcPath := by
  rw [RoundTrips, EncryptToDir, sourceItems_of_dir h.source] at hround
  obtain ⟨fs₁, error, ⟨herror, _⟩, _, hdone⟩ :=
    (encryptPool_tracks h).done_of_endsIn (List.Perm.refl _) (fun _ _ => rfl)
      (hround _ (List.Perm.refl _))
  have hfile : ∀ {rel c}, fs.fileAt (env.resolve srcPath ++ rel) = some c →
      (∃ c₁, fs₁.node (env.resolve encPath ++ encLocation rel) = some (.file c₁)) ∧
        encryptedLength c.bytes.length < 2 ^ 63 := by
    intro rel c hc
    obtain ⟨hplaced, hfits⟩ := hdone herror _ (mem_dirItems.mpr ⟨rel, c, rfl, hc⟩)
    exact ⟨hplaced, hfits c hc⟩
  constructor
  · intro rel c rel' c' hc hc' hpre
    obtain ⟨c₁, hc₁⟩ := (hfile hc).1
    obtain ⟨c₁', hc₁'⟩ := (hfile hc').1
    have hdir : fs₁.node (env.resolve encPath ++ encLocation rel) = some .dir := by
      apply FileTree.node_above_file hc₁'
      rw [List.dropLast_append_of_ne_nil (encLocation_ne_nil (rel_ne_nil h.source hc')),
        encLocation_dropLast (rel_ne_nil h.source hc')]
      exact (List.prefix_append_right_inj _).mpr hpre
    rw [hc₁] at hdir
    cases hdir
  · intro rel c hc
    exact (hfile hc).2

end RoundTrip

/-- Encrypting a directory and decrypting the result gives the directory back, for all schedules,
    exactly when no encrypted name clashes with a directory and every encrypted file fits.  The
    names are to leave room for the suffix: the file system of the model takes names of every
    length. -/
theorem directory_roundtrip_iff (env : ProxyEnv) (fs : FileSystem)
    (srcPath encPath outPath dataKey : Bytes)
    (h : ThreeDirs env fs srcPath encPath outPath dataKey) :
    RoundTrips env fs srcPath encPath outPath dataKey ↔ Encryptable env fs srcPath :=
  ⟨fun hround => hround.encryptable h, fun henc => henc.roundTrips h⟩

/-! ## Two sources -/

/-- The given files, and two empty directories. -/
def threeTree (files : List (Location Name × FileContent)) : FileSystem :=
  (((treeOf files).createDirectories [str "enc"]).bind (·.createDirectories [str "out"])).getD
    .empty

theorem emptyDir_of_listed {fs : FileSystem} {root : Location Name}
    (hdir : fs.isDirectory root = true) (h : ∀ p ∈ fs.listed, root <+: p → p = root) :
    EmptyDir fs root := by
  refine ⟨FileTree.isDirectory_iff.mp hdir, fun rel hrel => ?_⟩
  by_contra hnode
  have heq := h _ (fs.mem_listed _ hnode) (List.prefix_append _ rel)
  exact hrel (by simpa using heq)

theorem threeDirs_threeTree {files : List (Location Name × FileContent)}
    (hsrc : (threeTree files).isDirectory [str "src"] = true)
    (henc : (threeTree files).isDirectory [str "enc"] = true)
    (hout : (threeTree files).isDirectory [str "out"] = true)
    (hnames : ∀ p ∈ (threeTree files).listed, ∀ n ∈ p, ValidName n)
    (hnonempty : ∀ p ∈ (threeTree files).listed, ∀ c ∈ (threeTree files).fileAt p,
      1 ≤ c.bytes.length)
    (hencEmpty : ∀ p ∈ (threeTree files).listed, [str "enc"] <+: p → p = [str "enc"])
    (houtEmpty : ∀ p ∈ (threeTree files).listed, [str "out"] <+: p → p = [str "out"]) :
    ThreeDirs directEnv (threeTree files) (str "/src") (str "/enc") (str "/out") directKey where
  resolves := resolvesNames_pathComponents
  inverts := ⟨fun _ _ _ _ => rfl, fun _ _ _ _ => rfl⟩
  key := .inl (by decide)
  source := FileTree.isDirectory_iff.mp hsrc
  names := validNamesUnder_of_listed hnames
  nonempty rel c hc := by
    refine hnonempty _ ((threeTree files).mem_listed _ ?_) c hc
    rw [FileTree.fileAt_eq_some.mp hc]
    exact Option.some_ne_none _
  enc := emptyDir_of_listed henc hencEmpty
  out := emptyDir_of_listed hout houtEmpty
  src_enc := by unfold Apart; decide
  src_out := by unfold Apart; decide
  enc_out := by unfold Apart; decide

/-- Files in two directories, one of which has the suffix already. -/
def severalFiles : FileSystem :=
  threeTree [([str "src", str "a"], fileX), ([str "src", str "d", str "b"], fileY),
    ([str "src", str "d", str "c.enc"], fileX)]

theorem directory_roundtrip_severalFiles :
    Encryptable directEnv severalFiles (str "/src") ∧
      RoundTrips directEnv severalFiles (str "/src") (str "/enc") (str "/out") directKey := by
  have hrel : ∀ {rel c}, severalFiles.fileAt (directEnv.resolve (str "/src") ++ rel) = some c →
      rel ∈ severalFiles.regularFiles [str "src"] := fun hc =>
    FileTree.mem_regularFiles.mpr ⟨_, hc⟩
  have hclash : ∀ rel ∈ severalFiles.regularFiles [str "src"],
      ∀ rel' ∈ severalFiles.regularFiles [str "src"],
        ¬ encLocation rel <+: rel'.dropLast := by decide
  have hfits : ∀ rel ∈ severalFiles.regularFiles [str "src"],
      ∀ c ∈ severalFiles.fileAt (directEnv.resolve (str "/src") ++ rel),
        encryptedLength c.bytes.length < 2 ^ 63 := by decide
  have hencryptable : Encryptable directEnv severalFiles (str "/src") :=
    ⟨fun rel c rel' c' hc hc' => hclash rel (hrel hc) rel' (hrel hc'),
      fun rel c hc => hfits rel (hrel hc) c hc⟩
  exact ⟨hencryptable, (directory_roundtrip_iff _ _ _ _ _ _ (threeDirs_threeTree (by decide)
    (by decide) (by decide) (by decide) (by decide) (by decide) (by decide))).mpr hencryptable⟩

/-- A file `a` beside a directory `a.enc`. -/
def clashing : FileSystem :=
  threeTree [([str "src", str "a"], fileX), ([str "src", str "a.enc", str "b"], fileY)]

/-- The encrypted file `a.enc` and the directory `a.enc` need the same place. -/
theorem directory_roundtrip_clash :
    ThreeDirs directEnv clashing (str "/src") (str "/enc") (str "/out") directKey ∧
      ¬ RoundTrips directEnv clashing (str "/src") (str "/enc") (str "/out") directKey := by
  have hdirs : ThreeDirs directEnv clashing (str "/src") (str "/enc") (str "/out") directKey :=
    threeDirs_threeTree (by decide) (by decide) (by decide)
      (by decide) (by decide) (by decide) (by decide)
  refine ⟨hdirs, fun hround => ?_⟩
  have ha : clashing.fileAt (directEnv.resolve (str "/src") ++ [str "a"]) =
      some fileX := by decide
  have hb : clashing.fileAt (directEnv.resolve (str "/src") ++ [str "a.enc", str "b"]) =
      some ⟨str "y", by decide⟩ := by decide
  exact (hround.encryptable hdirs).noClash _ _ _ _ ha hb (by decide)

end TrustFlow.Proxy
