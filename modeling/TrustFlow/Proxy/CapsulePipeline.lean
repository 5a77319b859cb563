import TrustFlow.Proxy.GetInputData
import TrustFlow.Proxy.SealedDirectory
import TrustFlow.Proxy.SequentialRequests

/-! # From one proxy to the other

A task that has produced a result stores it with `PutResultData`; the next task
fetches it with `GetInputData`, on another machine and perhaps much later.  Between
them is the object store: the uploads of the one request, and the listing that the
other one gets.

* `capsule_roundtrip` — the second request gives back the files of the first, in
  every schedule of both and whatever was left in the staging directory of the
  second;
* `getInputData_footprint` — at any time of a request, what it has changed.
-/

namespace TrustFlow.Proxy

/-! ## The object store -/

/-- The contents of the objects, by endpoint, bucket and key. -/
abbrev ObjectStore := Bytes → Bytes → Bytes → Option Bytes

namespace ObjectStore

def put (store : ObjectStore) (u : Upload) : ObjectStore := fun endpoint bucket key =>
  if u.endpoint = endpoint ∧ u.bucket = bucket ∧ u.key = key then some u.content
  else store endpoint bucket key

def putAll (store : ObjectStore) (uploads : List Upload) : ObjectStore :=
  uploads.foldl put store

variable {store : ObjectStore} {uploads : List Upload} {endpoint bucket key : Bytes}

theorem putAll_concat (store : ObjectStore) (uploads : List Upload) (u : Upload) :
    store.putAll (uploads ++ [u]) = (store.putAll uploads).put u := by
  simp [putAll]

theorem putAll_of_ne
    (h : ∀ u ∈ uploads, ¬ (u.endpoint = endpoint ∧ u.bucket = bucket ∧ u.key = key)) :
    store.putAll uploads endpoint bucket key = store endpoint bucket key := by
  induction uploads using List.reverseRecOn with
  | nil => rfl
  | append_singleton uploads u ih =>
    rw [putAll_concat, put, if_neg (h u (by simp))]
    exact ih fun v hv => h v (List.mem_append_left _ hv)

/-- Where all uploads for a key agree, the object has their content. -/
theorem putAll_of_mem {content : Bytes}
    (hmem : ∃ u ∈ uploads, u.endpoint = endpoint ∧ u.bucket = bucket ∧ u.key = key)
    (h : ∀ u ∈ uploads, u.endpoint = endpoint ∧ u.bucket = bucket ∧ u.key = key →
      u.content = content) :
    store.putAll uploads endpoint bucket key = some content := by
  induction uploads using List.reverseRecOn with
  | nil =>
    obtain ⟨u, hu, _⟩ := hmem
    cases hu
  | append_singleton uploads u ih =>
    rw [putAll_concat, put]
    split
    next hplace => rw [h u (by simp) hplace]
    next hplace =>
      apply ih
      · obtain ⟨v, hv, hplace'⟩ := hmem
        rcases List.mem_append.mp hv with hv | hv
        · exact ⟨v, hv, hplace'⟩
        · rw [List.mem_singleton.mp hv] at hplace'
          exact absurd hplace' hplace
      · exact fun v hv => h v (List.mem_append_left _ hv)

end ObjectStore

/-- A listing by the start of a key shows what the store has. -/
def Bucket.Shows (listing : Bucket) (store : ObjectStore) (s3 : S3Config) : Prop :=
  ∀ key content, s3.path <+: key →
    ((∃ object ∈ listing.objects, object.key = key ∧ object.content.bytes = content) ↔
      store s3.endpoint s3.bucket key = some content)

/-! ## What was uploaded -/

/-- The files of a source, by the places that the request gives them. -/
def filesOf (fs : FileSystem) (items : List SourceItem) : FileSet := fun rel c =>
  ∃ i ∈ items, i.rel = rel ∧ fs.fileAt i.loc = some c

def objectKey (s3 : S3Config) (rel : Location Name) : Bytes :=
  pathAppend s3.path (relText (encLocation rel))

theorem pathAppend_prefix (a : Bytes) {b : Bytes} (hb : b.head? ≠ some slash) :
    a <+: pathAppend a b := by
  rw [pathAppend, if_neg hb]
  split
  · exact List.prefix_append _ _
  · rw [List.append_assoc]
    exact List.prefix_append _ _

theorem objectKey_prefix (s3 : S3Config) {rel : Location Name} (h : ∀ n ∈ rel, ValidName n) :
    s3.path <+: objectKey s3 rel :=
  pathAppend_prefix _ (relText_head_ne (valid_encLocation h))

theorem objectKey_inj {s3 : S3Config} {rel rel' : Location Name} (h : ∀ n ∈ rel, ValidName n)
    (h' : ∀ n ∈ rel', ValidName n) (heq : objectKey s3 rel = objectKey s3 rel') : rel = rel' := by
  have hcomponents := congrArg pathComponents heq
  rw [objectKey, objectKey, pathComponents_pathAppend _ (relText_head_ne (valid_encLocation h)),
    pathComponents_pathAppend _ (relText_head_ne (valid_encLocation h')),
    pathComponents_relText (valid_encLocation h),
    pathComponents_relText (valid_encLocation h')] at hcomponents
  exact encLocation_inj (List.append_cancel_left hcomponents)

section Source

variable {env : ProxyEnv} {fs : FileSystem} {srcPath : Bytes} {items : List SourceItem}

/-- No file of a source is below another. -/
theorem sourceItems_apart (h : sourceItems env fs srcPath = .ok items) {i j : SourceItem}
    (hi : i ∈ items) (hj : j ∈ items) (hpre : i.rel <+: j.rel) : i.rel = j.rel := by
  unfold sourceItems at h
  split at h
  next => cases h
  next c hfile =>
    cases h
    rw [List.mem_singleton.mp hi, List.mem_singleton.mp hj]
  next hdir =>
    cases h
    obtain ⟨rel, hrel, rfl⟩ := List.mem_map.mp hi
    obtain ⟨rel', hrel', rfl⟩ := List.mem_map.mp hj
    obtain ⟨c, hc⟩ := FileTree.mem_regularFiles.mp hrel
    obtain ⟨c', hc'⟩ := FileTree.mem_regularFiles.mp hrel'
    obtain ⟨rest, rfl⟩ : rel <+: rel' := hpre
    cases rest with
    | nil => exact (List.append_nil rel).symm
    | cons x xs =>
      rw [← List.append_assoc, FileTree.fileAt_eq_some] at hc'
      have hnode := fs.node_of_under (List.cons_ne_nil x xs) (by rw [hc']; simp)
      rw [FileTree.fileAt_eq_some.mp hc] at hnode
      cases hnode
  next => cases h

theorem filesOf_plain (h : sourceItems env fs srcPath = .ok items)
    (hnames : ∀ i ∈ items, ∀ n ∈ i.rel, ValidName n) : (filesOf fs items).Plain := by
  obtain ⟨hspec, hnodup⟩ := sourceItems_spec h
  constructor
  case ne_nil =>
    rintro rel c ⟨i, hi, rfl, _⟩
    exact (hspec i hi).1
  case valid =>
    rintro rel c ⟨i, hi, rfl, _⟩
    exact hnames i hi
  case unique =>
    rintro rel c c' ⟨i, hi, rfl, hc⟩ ⟨j, hj, hrel, hc'⟩
    obtain rfl := List.inj_on_of_nodup_map hnodup hi hj hrel.symm
    exact Option.some.inj (hc.symm.trans hc')
  case apart =>
    rintro rel c rel' c' ⟨i, hi, rfl, _⟩ ⟨j, hj, rfl, _⟩ hpre
    exact sourceItems_apart h hi hj hpre

end Source

/-! ## Names that clash keep a request from succeeding -/

/-- Once everything is encrypted, no encrypted file is at a directory on the way to another. -/
def PhaseApart (fs₀ : FileSystem) (items : List SourceItem) : Phase → Prop
  | .uploading _ _ | .uploaded _ | .stored _ | .succeeded _ => (filesOf fs₀ items).NoClash
  | _ => True

section Clash

variable {env : ProxyEnv} {q : PutResultDataRequest} {s3 : S3Config} {fs₀ fs fs' : FileSystem}
  {items : List SourceItem} {dataKey : Bytes} {r r' : RequestState}

theorem noClash_of_staged (hitems : sourceItems env fs₀ q.srcPath = .ok items)
    (h : ∀ i ∈ items, Staged env q fs₀ dataKey fs i) : (filesOf fs₀ items).NoClash := by
  rintro rel c rel' c' ⟨i, hi, rfl, _⟩ ⟨j, hj, rfl, _⟩ hpre
  obtain ⟨_, ci, _, hci, _⟩ := h i hi
  obtain ⟨_, cj, _, hcj, _⟩ := h j hj
  have hne := ((sourceItems_spec hitems).1 j hj).1
  -- Both are staged, so one of them would be a file and a directory.
  have hdir : fs.node (env.staging q.srcPath ++ encLocation i.rel) = some .dir := by
    apply FileTree.node_above_file (FileTree.fileAt_eq_some.mp hcj)
    rw [List.dropLast_append_of_ne_nil (encLocation_ne_nil hne), encLocation_dropLast hne]
    exact (List.prefix_append_right_inj _).mpr hpre
  rw [FileTree.fileAt_eq_some.mp hci] at hdir
  cases hdir

theorem step_apart (hs3 : q.s3Config = some s3)
    (hitems : sourceItems env fs₀ q.srcPath = .ok items) (hstep : Step env q fs r fs' r')
    (hstaged : PhaseStaged env q fs₀ items fs r.phase) (h : PhaseApart fs₀ items r.phase) :
    PhaseApart fs₀ items r'.phase := by
  cases hstep with
  | startUpload hphase | uploadFile hphase =>
    rw [hphase] at hstaged
    exact noClash_of_staged hitems hstaged
  | upload hphase | uploadSkip hphase | uploadDone hphase | remove hphase | finish hphase
  | register hphase =>
    rw [hphase] at h
    exact h
  | encryptDone =>
    rw [hs3]
    trivial
  | _ => trivial

/-- A request for the object store that succeeded had no names that clash. -/
theorem noClash_of_succeeded (hgcm : env.gcm.Inverts) (hready : ReadyStaging env fs₀ q)
    (hs3 : q.s3Config = some s3) (hrun : Runs env q fs₀ {} fs r)
    (hdone : r.phase = .succeeded dataKey)
    (hitems : sourceItems env fs₀ q.srcPath = .ok items) : (filesOf fs₀ items).NoClash := by
  obtain ⟨_, hphase⟩ := hrun.invariant
    (fun fs r => Tracked env q fs₀ fs r ∧ PhaseApart fs₀ items r.phase)
    (fun _ _ _ _ hstep h => ⟨h.1.step hs3 hgcm hready.1 hstep,
      step_apart hs3 hitems hstep (h.1.staged items hitems) h.2⟩)
    ⟨Tracked.init env q fs₀, trivial⟩
  rw [hdone] at hphase
  exact hphase

end Clash

/-! ## What the listing shows -/

/-- The objects of the listing are the encrypted files, one for each. -/
structure ListsSealed (gcm : GcmLibrary) (dataKey : Bytes) (files : FileSet) (listing : Bucket)
    (s3 : S3Config) : Prop where
  sealed : ∀ object ∈ listing.matching s3.path, ∃ rel c, files rel c ∧
    object.key = objectKey s3 rel ∧ DecryptsTo gcm dataKey object.content.bytes c.bytes
  listed : ∀ {rel c}, files rel c → ∃ object ∈ listing.matching s3.path,
    object.key = objectKey s3 rel

section Listing

variable {env : ProxyEnv} {fs₀ : FileSystem} {srcPath dataKey : Bytes} {items : List SourceItem}
  {s3 : S3Config} {uploads : List Upload} {store : ObjectStore} {listing : Bucket}

theorem mem_matching {object : OssObject} :
    object ∈ listing.matching s3.path ↔ object ∈ listing.objects ∧ s3.path <+: object.key := by
  simp [Bucket.matching]

/-- After the uploads of a request, the store has its encrypted files at their keys. -/
theorem putAll_of_uploadedExactly (hitems : sourceItems env fs₀ srcPath = .ok items)
    (hnames : ∀ i ∈ items, ∀ n ∈ i.rel, ValidName n) {ciphertext : SourceItem → Bytes}
    (hperm : uploads.Perm (items.map fun i =>
      ⟨s3.endpoint, s3.bucket, pathAppend s3.path (relText i.rel ++ kEncSuffix), ciphertext i⟩))
    {i : SourceItem} (hi : i ∈ items) :
    store.putAll uploads s3.endpoint s3.bucket (objectKey s3 i.rel) = some (ciphertext i) := by
  obtain ⟨hspec, hnodup⟩ := sourceItems_spec hitems
  have hkey : ∀ j ∈ items, pathAppend s3.path (relText j.rel ++ kEncSuffix) =
      objectKey s3 j.rel := by
    intro j hj
    rw [objectKey, relText_encLocation (hspec j hj).1]
  apply ObjectStore.putAll_of_mem
  · refine ⟨_, hperm.mem_iff.mpr (List.mem_map_of_mem hi), rfl, rfl, hkey i hi⟩
  · rintro u hu ⟨_, _, hplace⟩
    obtain ⟨j, hj, rfl⟩ := List.mem_map.mp (hperm.mem_iff.mp hu)
    rw [hkey j hj] at hplace
    have hrel := objectKey_inj (hnames j hj) (hnames i hi) hplace
    rw [List.inj_on_of_nodup_map hnodup hj hi hrel]

theorem listsSealed_of_uploaded (hitems : sourceItems env fs₀ srcPath = .ok items)
    (hnames : ∀ i ∈ items, ∀ n ∈ i.rel, ValidName n)
    (huploaded : UploadedExactly env s3 fs₀ items dataKey uploads)
    (hfresh : ∀ key, s3.path <+: key → store s3.endpoint s3.bucket key ≠ none →
      ∃ i ∈ items, key = objectKey s3 i.rel)
    (hshows : listing.Shows (store.putAll uploads) s3) :
    ListsSealed env.gcm dataKey (filesOf fs₀ items) listing s3 := by
  obtain ⟨hspec, _⟩ := sourceItems_spec hitems
  obtain ⟨ciphertext, hperm, hdecrypts⟩ := huploaded
  have hput : ∀ {i}, i ∈ items → store.putAll uploads s3.endpoint s3.bucket
      (objectKey s3 i.rel) = some (ciphertext i) :=
    fun hi => putAll_of_uploadedExactly hitems hnames hperm hi
  constructor
  case sealed =>
    intro object hobject
    obtain ⟨hmem, hprefix⟩ := mem_matching.mp hobject
    have hstored := (hshows object.key object.content.bytes hprefix).mp ⟨object, hmem, rfl, rfl⟩
    -- The key is that of an upload, or was there before and is that of an upload all the same.
    have hitem : ∃ i ∈ items, object.key = objectKey s3 i.rel := by
      by_contra hnone
      rw [ObjectStore.putAll_of_ne] at hstored
      · exact hnone (hfresh object.key hprefix (by rw [hstored]; simp))
      · rintro u hu ⟨_, _, hkey⟩
        obtain ⟨i, hi, rfl⟩ := List.mem_map.mp (hperm.mem_iff.mp hu)
        refine hnone ⟨i, hi, ?_⟩
        rw [← hkey, objectKey, relText_encLocation (hspec i hi).1]
    obtain ⟨i, hi, hkey⟩ := hitem
    obtain ⟨c, hc, hdecrypt⟩ := hdecrypts i hi
    rw [hkey, hput hi] at hstored
    rw [Option.some.inj hstored] at hdecrypt
    exact ⟨i.rel, c, ⟨i, hi, rfl, hc⟩, hkey, hdecrypt⟩
  case listed =>
    rintro rel c ⟨i, hi, rfl, _⟩
    have hprefix := objectKey_prefix s3 (hnames i hi)
    obtain ⟨object, hmem, hkey, _⟩ := (hshows _ _ hprefix).mpr (hput hi)
    exact ⟨object, mem_matching.mpr ⟨hmem, hkey ▸ hprefix⟩, hkey⟩

/-- The listing is no longer than the source. -/
theorem matching_length_le (hsealed : ListsSealed env.gcm dataKey (filesOf fs₀ items) listing s3) :
    (listing.matching s3.path).length ≤ items.length := by
  have hnodup : ((listing.matching s3.path).map OssObject.key).Nodup :=
    listing.keys_nodup.sublist (List.filter_sublist.map _)
  have hsub : (listing.matching s3.path).map OssObject.key ⊆
      items.map fun i => objectKey s3 i.rel := by
    intro key hkey
    obtain ⟨object, hobject, rfl⟩ := List.mem_map.mp hkey
    obtain ⟨_, c, ⟨i, hi, rfl, _⟩, hkey, _⟩ := hsealed.sealed object hobject
    exact List.mem_map.mpr ⟨i, hi, hkey.symm⟩
  simpa using (List.subperm_of_subset hnodup hsub).length_le

end Listing

/-! ## The second request -/

/-- The keys of a source path continue it name by name. -/
def PathExtends (env : OssEnv) (srcPath : Bytes) : Prop :=
  ∀ rel, rel ≠ [] → (∀ n ∈ rel, ValidName n) →
    IsBelow env srcPath (pathAppend srcPath (relText rel)) rel

/-- The object store answers every call of the client. -/
structure OssEnv.Available (env : OssEnv) : Prop where
  list : env.listError = none
  download : ∀ key, env.downloadError key = none

/-- No file is on the way to the staging directory, the destination is vacant, and the two are
    apart.  What the staging directory holds does not matter. -/
structure InputReady (env : InputEnv) (q : GetInputDataRequest) (fs : FileSystem) : Prop where
  above : ∀ p, p <+: env.staging q.destPath → p ≠ env.staging q.destPath →
    fs.node p = none ∨ fs.node p = some .dir
  vacant : Vacant fs (env.resolve q.destPath)
  apart : Apart (env.staging q.destPath) (env.resolve q.destPath)

section Input

variable {env : InputEnv} {q : GetInputDataRequest} {s3 : S3Config} {dataKey : Bytes}
  {files : FileSet} {fs fs₁ fs₂ : FileSystem}

theorem staging_eq (hplain : env.Plain) (s3 : S3Config) :
    env.staging q.destPath = locate (env.oss s3).cwd (pathParts (downloadTempPath env q)) :=
  hplain s3 _

theorem staging_ne_nil (hplain : env.Plain) (s3 : S3Config) : env.staging q.destPath ≠ [] := by
  have hroot : (pathParts (downloadTempPath env q)).normal.origin = .root :=
    NormalPath.foldl_push_root (by
      simp [PathParts.start, pathParts, downloadTempPath, genTempDir_head]) _
  rw [staging_eq hplain s3, locate_of_absolute _ hroot]
  exact stagingDir_ne_nil env.sha256 q.destPath

theorem InputReady.vacant_staging (h : InputReady env q fs)
    (hremove : fs.removeAll (env.staging q.destPath) = some fs₁) :
    Vacant fs₁ (env.staging q.destPath) := by
  constructor
  · intro p hp
    rw [FileTree.node_removeAll hremove]
    split
    next => exact .inl rfl
    next hunder =>
      refine h.above p hp ?_
      rintro rfl
      exact hunder List.prefix_rfl
  · intro rel _
    rw [FileTree.node_removeAll hremove, if_pos (List.prefix_append _ _)]

theorem InputReady.vacant_dest (h : InputReady env q fs)
    (hremove : fs.removeAll (env.staging q.destPath) = some fs₁) :
    Vacant fs₁ (env.resolve q.destPath) := by
  constructor
  · intro p hp
    rw [FileTree.node_removeAll hremove]
    split
    · exact .inl rfl
    · exact h.vacant.above p hp
  · intro rel hrel
    rw [FileTree.node_removeAll hremove]
    split
    · rfl
    · exact h.vacant.below rel hrel

/-! ### The download makes a sealed directory -/

section Sealing

variable (hplain : env.Plain) (hextends : PathExtends (env.oss s3) s3.path)
  (hlists : ListsSealed env.gcm dataKey files (env.oss s3).bucket s3) (hfiles : files.Plain)

include hextends hfiles in
theorem isBelow_objectKey {rel : Location Name} {c : FileContent} (hc : files rel c) :
    IsBelow (env.oss s3) s3.path (objectKey s3 rel) (encLocation rel) :=
  hextends _ (encLocation_ne_nil (hfiles.ne_nil hc)) (valid_encLocation (hfiles.valid hc))

include hplain hextends hlists hfiles in
/-- Every object is for one of the files, and goes to its place in the staging directory. -/
theorem object_place {object : OssObject}
    (hobject : object ∈ (env.oss s3).bucket.matching s3.path) :
    ∃ rel c, files rel c ∧ object.key = objectKey s3 rel ∧
      destLocation (env.oss s3) s3.path (downloadTempPath env q) object =
        env.staging q.destPath ++ encLocation rel ∧
      DecryptsTo env.gcm dataKey object.content.bytes c.bytes := by
  obtain ⟨rel, c, hc, hkey, hdecrypts⟩ := hlists.sealed object hobject
  refine ⟨rel, c, hc, hkey, ?_, hdecrypts⟩
  rw [staging_eq hplain s3]
  exact destLocation_of_isBelow _ (hkey ▸ isBelow_objectKey hextends hfiles hc)

include hplain hextends hlists hfiles in
theorem ossPlacement_free (hclash : files.NoClash)
    (hvacant : Vacant fs₁ (env.staging q.destPath)) :
    (ossPlacement (env.oss s3) s3.path (downloadTempPath env q) fs₁).Free := by
  constructor
  · intro object hobject
    obtain ⟨rel, c, hc, _, hplace, _⟩ :=
      object_place (q := q) hplain hextends hlists hfiles hobject
    have hroom := hvacant.roomFor (encLocation_ne_nil (hfiles.ne_nil hc))
    rwa [← hplace] at hroom
  · intro object hobject object' hobject' hpre
    obtain ⟨rel, c, hc, hkey, hplace, _⟩ :=
      object_place (q := q) hplain hextends hlists hfiles hobject
    obtain ⟨rel', c', hc', hkey', hplace', _⟩ :=
      object_place (q := q) hplain hextends hlists hfiles hobject'
    have hpre' : destLocation (env.oss s3) s3.path (downloadTempPath env q) object <+:
        destLocation (env.oss s3) s3.path (downloadTempPath env q) object' := hpre
    rw [hplace, hplace'] at hpre'
    obtain rfl := hfiles.enc_apart hclash hc hc' ((List.prefix_append_right_inj _).mp hpre')
    exact List.inj_on_of_nodup_map (env.oss s3).bucket.keys_nodup (mem_matching.mp hobject).1
      (mem_matching.mp hobject').1 (hkey.trans hkey'.symm)

include hplain hextends hlists hfiles in
theorem sealedDir_of_placed (hsome : ∃ rel c, files rel c)
    (hvacant : Vacant fs₁ (env.staging q.destPath))
    (hbetween : (ossPlacement (env.oss s3) s3.path (downloadTempPath env q) fs₁).Between fs₂)
    (hplaced : ∀ object ∈ (env.oss s3).bucket.matching s3.path,
      (ossPlacement (env.oss s3) s3.path (downloadTempPath env q) fs₁).Placed object fs₂) :
    SealedDir env.gcm dataKey files fs₂ (env.staging q.destPath) := by
  have hcopied : ∀ {rel c}, files rel c →
      ∃ c', fs₂.fileAt (env.staging q.destPath ++ encLocation rel) = some c' := by
    intro rel c hc
    obtain ⟨object, hobject, hkey⟩ := hlists.listed hc
    obtain ⟨rel', c', hc', hkey', hplace, _⟩ :=
      object_place (q := q) hplain hextends hlists hfiles hobject
    obtain rfl := objectKey_inj (hfiles.valid hc) (hfiles.valid hc') (hkey.symm.trans hkey')
    obtain ⟨content, _, hnode⟩ := hplaced object hobject
    have hnode' : fs₂.node (destLocation (env.oss s3) s3.path (downloadTempPath env q) object) =
        some (.file content) := hnode
    rw [hplace] at hnode'
    exact ⟨content, FileTree.fileAt_eq_some.mpr hnode'⟩
  constructor
  case dir =>
    obtain ⟨rel, c, hc⟩ := hsome
    obtain ⟨c', hc'⟩ := hcopied hc
    apply FileTree.node_above_file (FileTree.fileAt_eq_some.mp hc')
    rw [List.dropLast_append_of_ne_nil (encLocation_ne_nil (hfiles.ne_nil hc))]
    exact List.prefix_append _ _
  case names =>
    intro rel' hnode n hn
    rcases hbetween (env.staging q.destPath ++ rel') with
      hsame | ⟨_, _, object, hobject, hpre⟩ | ⟨object, hobject, heq, _⟩
    · have hnone : fs₁.node (env.staging q.destPath ++ rel') = none :=
        hvacant.below rel' (List.ne_nil_of_mem hn)
      exact absurd (hsame.trans hnone) hnode
    · obtain ⟨rel, c, hc, _, hplace, _⟩ :=
        object_place (q := q) hplain hextends hlists hfiles hobject
      have hpre' : env.staging q.destPath ++ rel' <+:
          destLocation (env.oss s3) s3.path (downloadTempPath env q) object :=
        hpre.trans (List.dropLast_prefix _)
      rw [hplace] at hpre'
      have hsub := ((List.prefix_append_right_inj _).mp hpre').subset hn
      exact valid_encLocation (hfiles.valid hc) n hsub
    · obtain ⟨rel, c, hc, _, hplace, _⟩ :=
        object_place (q := q) hplain hextends hlists hfiles hobject
      obtain rfl := List.append_cancel_left (heq.trans hplace)
      exact valid_encLocation (hfiles.valid hc) n hn
  case sealed =>
    intro rel' c' hc'
    rw [FileTree.fileAt_eq_some] at hc'
    rcases hbetween (env.staging q.destPath ++ rel') with
      hsame | ⟨_, hdir, _⟩ | ⟨object, hobject, heq, content, hcontent, hnode⟩
    · have hfile : fs₁.fileAt (env.staging q.destPath ++ rel') = some c' :=
        FileTree.fileAt_eq_some.mpr (hsame.symm.trans hc')
      rw [hvacant.fileAt rel'] at hfile
      cases hfile
    · rw [hc'] at hdir
      cases hdir
    · obtain ⟨rel, c, hc, _, hplace, hdecrypts⟩ :=
        object_place (q := q) hplain hextends hlists hfiles hobject
      rw [← heq, hc'] at hnode
      cases hnode
      obtain rfl : c' = object.content := hcontent
      exact ⟨rel, c, List.append_cancel_left (heq.trans hplace), hc, hdecrypts⟩
  case copied => exact hcopied

include hplain hextends hlists hfiles in
theorem vacant_dest_of_between
    (hapart : Apart (env.staging q.destPath) (env.resolve q.destPath))
    (hvacant : Vacant fs₁ (env.resolve q.destPath))
    (hbetween : (ossPlacement (env.oss s3) s3.path (downloadTempPath env q) fs₁).Between fs₂) :
    Vacant fs₂ (env.resolve q.destPath) := by
  have hunder : ∀ object ∈ (env.oss s3).bucket.matching s3.path, env.staging q.destPath <+:
      destLocation (env.oss s3) s3.path (downloadTempPath env q) object := by
    intro object hobject
    obtain ⟨rel, c, _, _, hplace, _⟩ :=
      object_place (q := q) hplain hextends hlists hfiles hobject
    rw [hplace]
    exact List.prefix_append _ _
  constructor
  · intro p hp
    rcases hbetween p with hsame | ⟨_, hdir, _⟩ | ⟨object, hobject, rfl, _⟩
    · rw [hsame]
      exact hvacant.above p hp
    · exact .inr hdir
    · exact absurd ((hunder object hobject).trans hp) hapart.1
  · intro rel hrel
    rw [← hvacant.below rel hrel]
    apply hbetween.node_eq
    intro object hobject hpre
    exact hapart.not_under_both (hunder object hobject)
      ((List.prefix_append _ rel).trans hpre)

end Sealing

/-- Every run of a request that finds sealed objects for its key ends with success and the files at
    the destination. -/
theorem endsIn_of_listsSealed (hplain : env.Plain) (hkey : inputDataKey env q = .ok dataKey)
    (hs3 : q.s3Config = some s3) (hextends : PathExtends (env.oss s3) s3.path)
    (havailable : (env.oss s3).Available)
    (hlists : ListsSealed env.gcm dataKey files (env.oss s3).bucket s3) (hfiles : files.Plain)
    (hclash : files.NoClash) (hsome : ∃ rel c, files rel c)
    (hpage : ((env.oss s3).bucket.matching s3.path).length ≤ kMaxKeys)
    (hready : InputReady env q fs) :
    EndsIn (InputStep env q) (fun a => a.2 = .finished none ∧
      ∀ rel c, a.1.fileAt (env.resolve q.destPath ++ rel) = some c ↔ files rel c)
      (fs, .received) := by
  have hremove : ∀ fs : FileSystem, ∃ fs', fs.removeAll (env.staging q.destPath) = some fs' :=
    fun fs => ⟨_, dif_pos (staging_ne_nil hplain s3)⟩
  -- The key, and the staging directory is gone.
  apply endsIn_next (a := (fs, .keyed dataKey)) (by simp only [inputNext, hkey])
  obtain ⟨fs₁, hfs₁⟩ := hremove fs
  apply endsIn_next (a := (fs₁, .cleared dataKey s3))
    (by simp only [inputNext, hs3, removeStaging, hfs₁])
  -- The download.
  apply endsIn_cleared
  have hvacant := hready.vacant_staging hfs₁
  have hfree := ossPlacement_free hplain hextends hlists hfiles hclash hvacant
  have habsolute : (pathParts (downloadTempPath env q)).absolute = true := by
    simp [pathParts, downloadTempPath, genTempDir_head]
  have hbelow : KeysBelow (env.oss s3) s3.path := by
    intro object hobject
    obtain ⟨rel, c, hc, hkey, _⟩ := hlists.sealed object hobject
    exact ⟨_, hkey ▸ isBelow_objectKey hextends hfiles hc⟩
  obtain ⟨s, hrun, hadv, hplaced⟩ := downloadObjects_places hfree habsolute hbelow
    (fun object _ => havailable.download object.key) (s := ⟨fs₁, []⟩)
    (fun object hobject => hobject) (Placement.between_start _)
  have hdownload : downloadFromOss (env.oss s3) s3.path (downloadTempPath env q) fs₁ =
      (.ok (), s) := by
    obtain ⟨rel, c, hc⟩ := hsome
    obtain ⟨object, hobject, _⟩ := hlists.listed hc
    have hpos := List.length_pos_of_mem hobject
    simp only [downloadFromOss, havailable.list, Bucket.listObjects, List.take_of_length_le hpage,
      if_pos hpos, hrun]
  rw [hdownload]
  -- The decryption, in whatever order, and the staging directory is gone again.
  apply endsIn_called
  have hsealed : SealedDir env.gcm dataKey files s.fs (env.resolve (downloadTempPath env q)) :=
    sealedDir_of_placed hplain hextends hlists hfiles hsome hvacant hadv.between hplaced
  have hvacant' := vacant_dest_of_between hplain hextends hlists hfiles hready.apart
    (hready.vacant_dest hfs₁) hadv.between
  have hresolves : ResolvesNames env.resolve := by
    rw [funext (hplain s3)]
    exact resolvesNames_locate _
  refine (hsealed.decryptToDir hresolves hfiles hvacant' hready.apart).mono ?_
  rintro fs₃ error ⟨rfl, hrestored⟩
  obtain ⟨fs₄, hfs₄⟩ := hremove fs₃
  apply endsIn_next (a := (fs₄, .finished none))
    (by simp only [afterDecrypt, hs3, Option.isSome_some, if_true, inputNext, removeStaging, hfs₄])
  refine endsIn_finished ⟨rfl, fun rel c => ?_⟩
  rw [← hrestored rel c]
  have hkept : fs₄.node (env.resolve q.destPath ++ rel) =
      fs₃.node (env.resolve q.destPath ++ rel) := by
    rw [FileTree.node_removeAll hfs₄, if_neg]
    exact fun hpre => hready.apart.not_under_both hpre (List.prefix_append _ rel)
  simp only [FileTree.fileAt, hkept]

end Input

/-! ## Both requests -/

/-- What a request for the object store has put there, a later request for the same objects and
    with the same key gives back: every run of it ends with success, with the files of the source
    at the destination and no others. -/
theorem capsule_roundtrip (env : ProxyEnv) (q : PutResultDataRequest) (fs₀ fs : FileSystem)
    (r : RequestState) (s3 : S3Config) (dataKey : Bytes) (items : List SourceItem)
    (hgcm : env.gcm.Inverts) (hready : ReadyStaging env fs₀ q) (hs3 : q.s3Config = some s3)
    (hrun : Runs env q fs₀ {} fs r) (hdone : r.phase = .succeeded dataKey)
    (hitems : sourceItems env fs₀ q.srcPath = .ok items)
    (hnames : ∀ i ∈ items, ∀ n ∈ i.rel, ValidName n)
    (hcount : 0 < items.length ∧ items.length ≤ kMaxKeys) (store : ObjectStore)
    (hfresh : ∀ key, s3.path <+: key → store s3.endpoint s3.bucket key ≠ none →
      ∃ i ∈ items, key = objectKey s3 i.rel)
    (env' : InputEnv) (q' : GetInputDataRequest) (fs' : FileSystem) (hplain : env'.Plain)
    (hgcm' : env'.gcm = env.gcm) (hs3' : q'.s3Config = some s3)
    (hkey : inputDataKey env' q' = .ok dataKey) (hready' : InputReady env' q' fs')
    (hextends : PathExtends (env'.oss s3) s3.path) (havailable : (env'.oss s3).Available)
    (hshows : (env'.oss s3).bucket.Shows (store.putAll r.uploads) s3) :
    EndsIn (InputStep env' q') (fun a => a.2 = .finished none ∧
      ∀ rel c, a.1.fileAt (env'.resolve q'.destPath ++ rel) = some c ↔
        ∃ i ∈ items, i.rel = rel ∧ fs₀.fileAt i.loc = some c) (fs', .received) := by
  obtain ⟨items', hitems', huploaded⟩ := uploadsItsSource_of_ready hgcm hready hrun s3 dataKey hs3
    hdone
  cases hitems.symm.trans hitems'
  have hlists := listsSealed_of_uploaded hitems hnames huploaded hfresh hshows
  have hpage := (matching_length_le hlists).trans hcount.2
  have hsome : ∃ rel c, filesOf fs₀ items rel c := by
    obtain ⟨i, hi⟩ := List.exists_mem_of_length_pos hcount.1
    obtain ⟨_, _, c, hc⟩ := (sourceItems_spec hitems).1 i hi
    exact ⟨i.rel, c, i, hi, rfl, hc⟩
  rw [← hgcm'] at hlists
  exact endsIn_of_listsSealed hplain hkey hs3' hextends havailable hlists
    (filesOf_plain hitems hnames) (noClash_of_succeeded hgcm hready hs3 hrun hdone hitems) hsome
    hpage hready'

/-! ## A concrete transfer -/

/-- A source path of plain names, with or without a slash at its end. -/
theorem pathExtends_of_names {env : OssEnv} {srcPath : Bytes} {names : List Name}
    {tail : List (PathElem Name)} (hcanonical : env.weaklyCanonical = PathParts.lexicallyNormal)
    (hne : names ≠ []) (htail : tail = [] ∨ tail = [.empty])
    (hparts : (pathParts srcPath).elems = names.map .name ++ tail) :
    PathExtends env srcPath := by
  intro rel hrel hvalid
  have hdrop : PathParts.dropSlash (names.map PathElem.name ++ tail) = names.map .name := by
    rcases htail with rfl | rfl
    · obtain ⟨front, last, rfl⟩ := (List.eq_nil_or_concat' names).resolve_left hne
      simp [PathParts.dropSlash]
    · simp [PathParts.dropSlash]
  have hsrc : (pathParts srcPath).lexicallyNormal = pathParts srcPath := by
    rw [show pathParts srcPath = ⟨(pathParts srcPath).absolute, names.map .name ++ tail⟩ by
      rw [← hparts]]
    exact PathParts.lexicallyNormal_names _ hne htail
  have hkey : pathParts (pathAppend srcPath (relText rel)) =
      ⟨(pathParts srcPath).absolute, (names ++ rel).map .name ++ []⟩ := by
    rw [pathParts_pathAppend _ (relText_head_ne hvalid) (relText_ne_nil hvalid hrel),
      pathParts_relText hvalid]
    simp [PathParts.append, hrel, hparts, hdrop]
  refine ⟨hrel, ?_⟩
  rw [hcanonical, hkey, PathParts.lexicallyNormal_names _ (by simp [hne]) (.inl rfl), hsrc, hparts,
    hdrop]
  simp

def sampleSealed : FileContent :=
  (sampleStaged.fileAt (sampleStaging ++ [str "b.enc"])).getD fileX

def sampleUpload : Upload := uploadOf sampleS3 (str "b.enc") sampleSealed

theorem sample_uploaded : ∃ fs, Runs sampleEnv sampleRequest sampleFs {} fs
    { phase := .succeeded sampleKey.bytes, uploads := [sampleUpload] } := by
  have hfile : sampleStaged.fileAt (sampleStaging ++ [str "b.enc"]) = some sampleSealed :=
    eq_some_getD _ (by decide)
  have hstored := (sample_encrypted (q := sampleRequest) rfl rfl rfl).trans
    (runs_upload_one rfl (by decide) (by decide) hfile (eq_some_getD sampleStaged (by decide)))
  exact ⟨_, hstored.step (.finish rfl rfl)⟩

def sampleObjects : List OssObject := [⟨str "results/b.enc", sampleSealed⟩]

theorem sampleObjects_nodup : (sampleObjects.map OssObject.key).Nodup := List.nodup_singleton _

/-- The machine of the second task. -/
def sampleInputEnv : InputEnv where
  toProxyEnv := { sampleEnv with resolve := fun path => locate [] (pathParts path) }
  cmEndpoint := str "cm"
  cert := str "cert"
  generatePartyId cert := .ok cert
  getDataKeys _ _ := .ok [sampleKey.bytes]
  oss _ := { bucket := ⟨sampleObjects, sampleObjects_nodup⟩ }

def sampleInput : GetInputDataRequest where
  destPath := str "/in"
  cmResourceConfig := some {}
  s3Config := some sampleS3

theorem sampleInput_ready : InputReady sampleInputEnv sampleInput .empty := by
  have hempty : ∀ p, (FileTree.empty : FileSystem).node p = none ∨
      (FileTree.empty : FileSystem).node p = some .dir := by
    intro p
    by_cases hp : p = []
    · exact .inr (if_pos hp)
    · exact .inl (if_neg hp)
  refine ⟨fun p _ _ => hempty p, ⟨fun p _ => hempty p, fun rel hrel => ?_⟩,
    by unfold Apart; decide⟩
  have hne : sampleInputEnv.resolve sampleInput.destPath ++ rel ≠ [] := by simp [hrel]
  simp only [FileTree.empty, if_neg hne]

theorem sampleObjects_shown :
    (sampleInputEnv.oss sampleS3).bucket.Shows
      (ObjectStore.putAll (fun _ _ _ => none) [sampleUpload]) sampleS3 := by
  have hkey : sampleUpload.key = str "results/b.enc" := by decide
  intro key content _
  simp [sampleInputEnv, sampleObjects, ObjectStore.putAll, ObjectStore.put, hkey]
  simp [sampleUpload, uploadOf]

theorem sample_pathExtends : PathExtends (sampleInputEnv.oss sampleS3) sampleS3.path :=
  pathExtends_of_names rfl (List.cons_ne_nil (str "results") []) (.inl rfl) (by decide)

/-- The file `b` of the first machine arrives on the second. -/
theorem capsule_roundtrip_sample :
    EndsIn (InputStep sampleInputEnv sampleInput) (fun a => a.2 = .finished none ∧
      ∀ rel c, a.1.fileAt ([str "in"] ++ rel) = some c ↔
        ∃ i ∈ [sampleItem], i.rel = rel ∧ sampleFs.fileAt i.loc = some c) (.empty, .received) := by
  obtain ⟨fs, hrun⟩ := sample_uploaded
  have hnames : ∀ i ∈ [sampleItem], ∀ n ∈ i.rel, ValidName n := by decide
  exact capsule_roundtrip sampleEnv sampleRequest sampleFs fs _ sampleS3 sampleKey.bytes
    [sampleItem] ⟨keyTagGcm_inverts, keyTagGcm_inverts⟩ sampleFs_ready rfl hrun rfl (by decide)
    hnames (by decide) (fun _ _ _ => none) (fun _ _ h => absurd rfl h) sampleInputEnv sampleInput
    .empty (fun _ _ => rfl) rfl rfl (by decide) sampleInput_ready
    sample_pathExtends ⟨rfl, fun _ => rfl⟩ sampleObjects_shown

/-! ## The footprint of a request -/

/-- At any time of a request, whatever has failed: outside its staging directory and its
    destination nothing was changed but for missing directories on the way to them; a file that
    is not below the destination was there before or is a downloaded object, so that nothing
    decrypted is anywhere else; and after a success the staging directory is gone. -/
theorem getInputData_footprint (env : InputEnv) (q : GetInputDataRequest) (hplain : env.Plain)
    (hkeys : ∀ s3, q.s3Config = some s3 → KeysBelow (env.oss s3) s3.path)
    (fs fs' : FileSystem) (phase : InputPhase)
    (hrun : Relation.ReflTransGen (InputStep env q) (fs, .received) (fs', phase)) :
    fs.KeepsOutside [env.staging q.destPath, env.resolve q.destPath] fs' ∧
    (∀ p c, fs'.fileAt p = some c → ¬ env.resolve q.destPath <+: p →
      fs.fileAt p = some c ∨ Downloadable env q c) ∧
    (phase = .finished none → q.s3Config.isSome = true →
      ∀ p, env.staging q.destPath <+: p → fs'.node p = none) := by
  have h := (InputTracked.init env q fs).run hplain hkeys hrun
  refine ⟨h.outside, fun p c hc hp => ?_, h.cleaned⟩
  exact (h.contents p c hc).resolve_left hp

theorem sample_transferred : ∃ fs, Relation.ReflTransGen (InputStep sampleInputEnv sampleInput)
    (.empty, .received) (fs, .finished none) := by
  obtain ⟨fs, hrun⟩ := sample_uploaded
  have hgcm : sampleEnv.gcm.Inverts := ⟨keyTagGcm_inverts, keyTagGcm_inverts⟩
  obtain ⟨items, hitems, huploaded⟩ :=
    uploadsItsSource_of_ready hgcm sampleFs_ready hrun sampleS3 _ rfl rfl
  have hfound : sourceItems sampleEnv sampleFs (str "/data") = .ok [sampleItem] := by decide
  cases hfound.symm.trans hitems
  have hnames : ∀ i ∈ [sampleItem], ∀ n ∈ i.rel, ValidName n := by decide
  have hlists := listsSealed_of_uploaded hitems hnames huploaded (fun _ _ h => absurd rfl h)
    sampleObjects_shown
  have hsome : filesOf sampleFs [sampleItem] [str "b"] ⟨[7], by decide⟩ :=
    ⟨sampleItem, List.mem_singleton_self _, rfl, by decide⟩
  have hends := endsIn_of_listsSealed (q := sampleInput) (fun _ _ => rfl)
    (by decide) rfl sample_pathExtends ⟨rfl, fun _ => rfl⟩ hlists (filesOf_plain hitems hnames)
    (noClash_of_succeeded hgcm sampleFs_ready rfl hrun rfl hitems) ⟨_, _, hsome⟩ (by decide)
    sampleInput_ready
  obtain ⟨⟨fs', phase⟩, hrun', _, rfl, _⟩ := hends.exists_run
  exact ⟨fs', hrun'⟩

theorem getInputData_footprint_sample :
    ∃ fs, Relation.ReflTransGen (InputStep sampleInputEnv sampleInput) (.empty, .received)
      (fs, .finished none) ∧
    (FileTree.empty : FileSystem).KeepsOutside
      [sampleInputEnv.staging (str "/in"), [str "in"]] fs ∧
    ∀ p, sampleInputEnv.staging (str "/in") <+: p → fs.node p = none := by
  have hkeys : ∀ s3, sampleInput.s3Config = some s3 →
      KeysBelow (sampleInputEnv.oss s3) s3.path := by
    rintro s3 ⟨⟩ object hobject
    obtain rfl : object = ⟨str "results/b.enc", sampleSealed⟩ :=
      List.mem_singleton.mp (List.mem_of_mem_filter hobject)
    exact ⟨[str "b.enc"], sample_pathExtends [str "b.enc"] (by simp) (by decide)⟩
  obtain ⟨fs, hrun⟩ := sample_transferred
  obtain ⟨houtside, _, hcleaned⟩ :=
    getInputData_footprint sampleInputEnv sampleInput (fun _ _ => rfl) hkeys .empty fs _ hrun
  exact ⟨fs, hrun, houtside, hcleaned rfl rfl⟩

end TrustFlow.Proxy
