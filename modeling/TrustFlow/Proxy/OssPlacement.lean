import TrustFlow.Proxy.DirectoryCrypto
import TrustFlow.Proxy.OssDownload
import Mathlib.Data.List.Perm.Subperm

/-! # Where downloads end up

Two questions about a call of `DownloadFromOss`: whether every object that was
asked for has a file of its own when the call returns, and whether the files lie
below the destination. -/

namespace TrustFlow.Proxy

/-! ## Completeness -/

/-- Every object with the asked start of its key was downloaded and is in its file, and no two
    objects have the same file. -/
structure LosesNothing (env : OssEnv) (srcPath destPath : Bytes) (s : DownloadState) : Prop where
  downloaded : ∀ object ∈ env.bucket.matching srcPath,
    downloadOf env srcPath destPath object ∈ s.downloaded ∧
    s.fs.fileAt (destLocation env srcPath destPath object) = some object.content
  apart : (env.bucket.matching srcPath).Pairwise fun o o' =>
    destLocation env srcPath destPath o ≠ destLocation env srcPath destPath o'

theorem matching_nodup (bucket : Bucket) (srcPath : Bytes) :
    (bucket.matching srcPath).Nodup :=
  List.Nodup.filter _ bucket.keys_nodup.of_map

theorem downloadFromOss_ok {env : OssEnv} {srcPath destPath : Bytes} {fs : FileSystem}
    {s : DownloadState} (h : downloadFromOss env srcPath destPath fs = (.ok (), s)) :
    downloadObjects env srcPath destPath ((env.bucket.matching srcPath).take kMaxKeys)
      { fs, downloaded := [] } = (.ok (), s) := by
  simp only [downloadFromOss] at h
  split at h
  · cases h
  · split at h
    · exact h
    · cases h

/-- A call that returns normally has written the files of the listed objects and no others. -/
theorem downloaded_of_ok {env : OssEnv} {srcPath destPath : Bytes} {fs : FileSystem}
    {s : DownloadState} (h : downloadFromOss env srcPath destPath fs = (.ok (), s)) :
    s.downloaded = ((env.bucket.matching srcPath).take kMaxKeys).map
      (downloadOf env srcPath destPath) := by
  have hrun := downloadFromOss_ok h
  obtain ⟨done, rest, hsplit, hlog, hrest⟩ := downloadObjects_downloaded env srcPath destPath
    ((env.bucket.matching srcPath).take kMaxKeys) { fs, downloaded := [] }
  rw [hrun] at hlog hrest
  obtain rfl := hrest rfl
  rw [List.append_nil] at hsplit
  rw [hsplit, hlog, List.nil_append]

theorem isTruncated_eq_false_iff {bucket : Bucket} {srcPath : Bytes} :
    (bucket.listObjects srcPath).isTruncated = false ↔
      (bucket.matching srcPath).length ≤ kMaxKeys := by
  simp [Bucket.listObjects]

/-- If the listing is truncated, a call that returns normally has left objects out. -/
theorem exists_lost_of_truncated {env : OssEnv} {srcPath destPath : Bytes} {fs : FileSystem}
    {s : DownloadState} (h : downloadFromOss env srcPath destPath fs = (.ok (), s))
    (htruncated : (env.bucket.listObjects srcPath).isTruncated = true) :
    ∃ object ∈ env.bucket.matching srcPath,
      downloadOf env srcPath destPath object ∉ s.downloaded := by
  by_contra hall
  simp only [not_exists, not_and, not_not] at hall
  -- All objects would be on the page, and a list without repetitions is as long as it seems.
  have hsub : env.bucket.matching srcPath ⊆ (env.bucket.matching srcPath).take kMaxKeys := by
    intro object hobject
    have hmem := hall object hobject
    rw [downloaded_of_ok h] at hmem
    obtain ⟨object', hpage, heq⟩ := List.mem_map.mp hmem
    cases heq
    exact hpage
  have hlen := (List.subperm_of_subset (matching_nodup _ _) hsub).length_le
  rw [List.length_take] at hlen
  have hshort := isTruncated_eq_false_iff.mpr (show (env.bucket.matching srcPath).length ≤ kMaxKeys
    by omega)
  rw [htruncated] at hshort
  cases hshort

theorem losesNothing_of_apart {env : OssEnv} {srcPath destPath : Bytes} {fs : FileSystem}
    {s : DownloadState} (h : downloadFromOss env srcPath destPath fs = (.ok (), s))
    (hcomplete : (env.bucket.listObjects srcPath).isTruncated = false)
    (hapart : (env.bucket.matching srcPath).Pairwise fun o o' =>
      destLocation env srcPath destPath o ≠ destLocation env srcPath destPath o') :
    LosesNothing env srcPath destPath s := by
  have hpage := List.take_of_length_le (isTruncated_eq_false_iff.mp hcomplete)
  have hlog := downloaded_of_ok h
  have hrun := downloadFromOss_ok h
  rw [hpage] at hlog hrun
  refine ⟨?_, hapart⟩
  intro object hobject
  constructor
  · rw [hlog]
    exact List.mem_map_of_mem hobject
  · have hok : (downloadObjects env srcPath destPath (env.bucket.matching srcPath)
        { fs, downloaded := [] }).1 = .ok () := by rw [hrun]
    have hfile := fileAt_downloadObjects hok hapart object hobject
    rwa [hrun] at hfile

theorem relativePath_not_absolute (env : OssEnv) (srcPath key : Bytes) :
    (relativePath env srcPath key).absolute = false :=
  PathParts.lexicallyRelative_not_absolute _ _

theorem filename_not_absolute (key : Bytes) : (pathParts (filename key)).absolute = false := by
  simp only [pathParts, decide_eq_false_iff_not]
  intro hhead
  exact filename_noSlash key (List.mem_of_mem_head? hhead)

theorem placement_not_absolute (env : OssEnv) (srcPath key : Bytes) :
    (placement env srcPath key).absolute = false := by
  rw [placement]
  split
  · exact filename_not_absolute key
  · exact relativePath_not_absolute env srcPath key

/-- Two keys share a destination exactly if, read from `dest_path`, the relative path of one
    rejoins that of the other. -/
theorem destLocation_eq_iff (env : OssEnv) (srcPath destPath : Bytes) (o o' : OssObject) :
    destLocation env srcPath destPath o = destLocation env srcPath destPath o' ↔
      Rejoins (locate env.cwd (pathParts destPath)) (placement env srcPath o.key).normal
          (placement env srcPath o'.key).normal ∨
        Rejoins (locate env.cwd (pathParts destPath)) (placement env srcPath o'.key).normal
          (placement env srcPath o.key).normal := by
  have hrel := placement_not_absolute env srcPath
  rw [destLocation, destLocation, destObjectPath, destObjectPath, locate_append _ _ (hrel _),
    locate_append _ _ (hrel _), names_append_eq_iff_rejoins _ (hrel _) (hrel _)]

/-- A call that returns normally has lost nothing exactly if the matching keys fit on one page
    and of no two of them the relative path of one rejoins that of the other. -/
theorem losesNothing_iff (env : OssEnv) (srcPath destPath : Bytes) (fs : FileSystem)
    (s : DownloadState) (h : downloadFromOss env srcPath destPath fs = (.ok (), s)) :
    LosesNothing env srcPath destPath s ↔
      (env.bucket.matching srcPath).length ≤ kMaxKeys ∧
      (env.bucket.matching srcPath).Pairwise fun o o' =>
        let dir := locate env.cwd (pathParts destPath)
        let rel := (placement env srcPath o.key).normal
        let rel' := (placement env srcPath o'.key).normal
        ¬ Rejoins dir rel rel' ∧ ¬ Rejoins dir rel' rel := by
  -- The conditions on the keys say that the destinations differ.
  simp only [← not_or, ← destLocation_eq_iff]
  constructor
  · intro hnothing
    refine ⟨?_, hnothing.apart⟩
    by_contra htruncated
    rw [← isTruncated_eq_false_iff, Bool.not_eq_false] at htruncated
    obtain ⟨object, hobject, hlost⟩ := exists_lost_of_truncated h htruncated
    exact hlost (hnothing.downloaded object hobject).1
  · rintro ⟨hcomplete, hapart⟩
    exact losesNothing_of_apart h (isTruncated_eq_false_iff.mpr hcomplete) hapart

/-- Objects at and below the source path, and one of a directory with a longer name. -/
def severalObjects : List OssObject :=
  [⟨str "a", fileX⟩, ⟨str "a/b", fileY⟩, ⟨str "a/c/b", fileX⟩, ⟨str "ab/b", fileY⟩]

theorem severalObjects_nodup : (severalObjects.map OssObject.key).Nodup := by decide

theorem losesNothing_severalObjects : ∃ s,
    downloadFromOss { bucket := ⟨severalObjects, severalObjects_nodup⟩ } (str "a") (str "/d")
      .empty = (.ok (), s) ∧
    LosesNothing { bucket := ⟨severalObjects, severalObjects_nodup⟩ } (str "a") (str "/d") s := by
  have hrun : (downloadFromOss { bucket := ⟨severalObjects, severalObjects_nodup⟩ } (str "a")
      (str "/d") .empty).1 = .ok () := by decide
  refine ⟨_, Prod.ext hrun rfl, (losesNothing_iff _ _ _ _ _ (Prod.ext hrun rfl)).mpr ?_⟩
  constructor
  · decide
  · decide

/-- An object named like the source path and one of the same name below it. -/
def twoNames : List OssObject := [⟨str "a", fileX⟩, ⟨str "a/a", fileY⟩]

theorem twoNames_nodup : (twoNames.map OssObject.key).Nodup := by decide

/-- Both objects are downloaded with success, and the second overwrites the first. -/
theorem download_overwritten : ∃ s,
    downloadFromOss { bucket := ⟨twoNames, twoNames_nodup⟩ } (str "a") (str "/d") .empty =
      (.ok (), s) ∧
    s.fs.fileAt [str "d", str "a"] = some fileY ∧
    ¬ LosesNothing { bucket := ⟨twoNames, twoNames_nodup⟩ } (str "a") (str "/d") s := by
  refine ⟨_, Prod.ext (by decide) rfl, by decide, ?_⟩
  intro h
  exact absurd h.apart (by decide)

/-! ## Confinement -/

/-- Every file lies below the destination after normalisation. -/
def Confined (destPath : Bytes) (s : DownloadState) : Prop :=
  ∀ d ∈ s.downloaded, (pathParts destPath).normal.Contains d.dest.normal

theorem contains_destObjectPath_iff (env : OssEnv) (srcPath destPath key : Bytes) :
    (pathParts destPath).normal.Contains (destObjectPath env srcPath destPath key).normal ↔
      LeadsBackTo (pathParts destPath).normal (placement env srcPath key).normal := by
  have hrel := placement_not_absolute env srcPath key
  rw [destObjectPath, PathParts.normal_append _ hrel, contains_append_iff_leadsBackTo _ hrel]

theorem mem_downloadFromOss {env : OssEnv} {srcPath destPath : Bytes} {fs : FileSystem}
    {d : Download} (h : d ∈ (downloadFromOss env srcPath destPath fs).2.downloaded) :
    d.object ∈ env.bucket.matching srcPath ∧
      d.dest = destObjectPath env srcPath destPath d.object.key := by
  simp only [downloadFromOss] at h
  split at h
  · cases h
  · split at h
    · obtain ⟨done, rest, hsplit, hlog, _⟩ := downloadObjects_downloaded env srcPath destPath
        (env.bucket.listObjects srcPath).objectSummarys { fs, downloaded := [] }
      rw [hlog, List.nil_append] at h
      obtain ⟨object, hobject, rfl⟩ := List.mem_map.mp h
      have hpage : object ∈ (env.bucket.listObjects srcPath).objectSummarys := by
        rw [hsplit]
        exact List.mem_append_left _ hobject
      exact ⟨List.mem_of_mem_take hpage, rfl⟩
    · cases h

/-- Whatever its end, a call has stayed below the destination exactly if the relative path of
    every object it has written leads back to the destination, which a path that does not climb
    always does.  A call that returns normally has written the first page of the listing. -/
theorem confined_iff (env : OssEnv) (srcPath destPath : Bytes) (fs : FileSystem) :
    (Confined destPath (downloadFromOss env srcPath destPath fs).2 ↔
      ∀ d ∈ (downloadFromOss env srcPath destPath fs).2.downloaded,
        LeadsBackTo (pathParts destPath).normal (placement env srcPath d.object.key).normal) ∧
    ∀ s, downloadFromOss env srcPath destPath fs = (.ok (), s) →
      (Confined destPath s ↔ ∀ object ∈ (env.bucket.matching srcPath).take kMaxKeys,
        LeadsBackTo (pathParts destPath).normal (placement env srcPath object.key).normal) := by
  have hiff : Confined destPath (downloadFromOss env srcPath destPath fs).2 ↔
      ∀ d ∈ (downloadFromOss env srcPath destPath fs).2.downloaded,
        LeadsBackTo (pathParts destPath).normal (placement env srcPath d.object.key).normal := by
    constructor
    · intro hconfined d hd
      have hdest := hconfined d hd
      rw [(mem_downloadFromOss hd).2] at hdest
      exact (contains_destObjectPath_iff env srcPath destPath d.object.key).mp hdest
    · intro hback d hd
      rw [(mem_downloadFromOss hd).2]
      exact (contains_destObjectPath_iff env srcPath destPath d.object.key).mpr (hback d hd)
  refine ⟨hiff, fun s hs => ?_⟩
  rw [hs, downloaded_of_ok hs] at hiff
  rw [hiff, List.forall_mem_map]
  rfl

def sibling : List OssObject := [⟨str "data2/x", fileX⟩]

theorem sibling_nodup : (sibling.map OssObject.key).Nodup := List.nodup_singleton _

/-- An object of another directory whose name only starts like the source path is written beside
    the destination. -/
theorem sibling_escapes :
    let s := (downloadFromOss { bucket := ⟨sibling, sibling_nodup⟩ } (str "data") (str "/tmp/d")
      .empty).2
    s.fs.fileAt [str "tmp", str "data2", str "x"] = some fileX ∧ ¬ Confined (str "/tmp/d") s := by
  refine ⟨by decide, ?_⟩
  intro h
  have hcontains := h ⟨⟨str "data2/x", fileX⟩, destObjectPath { bucket := ⟨sibling, sibling_nodup⟩ }
    (str "data") (str "/tmp/d") (str "data2/x")⟩ (by decide)
  revert hcontains
  decide

/-! ## Keys below the source path -/

/-- The key leads to `names` below the source path, component by component. -/
def IsBelow (env : OssEnv) (srcPath key : Bytes) (names : List Name) : Prop :=
  names ≠ [] ∧
  env.weaklyCanonical (pathParts key) =
    ⟨(env.weaklyCanonical (pathParts srcPath)).absolute,
      PathParts.dropSlash (env.weaklyCanonical (pathParts srcPath)).elems ++ names.map .name⟩

theorem placement_of_isBelow {env : OssEnv} {srcPath key : Bytes} {names : List Name}
    (h : IsBelow env srcPath key names) : placement env srcPath key = ⟨false, names.map .name⟩ := by
  have hrel := PathParts.lexicallyRelative_of_below h.1 h.2
  have hdot : (⟨false, names.map .name⟩ : PathParts Name) ≠ ⟨false, [.dot]⟩ := by
    intro heq
    cases names with
    | nil => cases heq
    | cons n names => cases heq
  rw [placement, relativePath, hrel, if_neg hdot]

theorem destLocation_of_isBelow {env : OssEnv} {srcPath : Bytes} {object : OssObject}
    {names : List Name} (destPath : Bytes) (h : IsBelow env srcPath object.key names) :
    destLocation env srcPath destPath object = locate env.cwd (pathParts destPath) ++ names := by
  rw [destLocation, destObjectPath, placement_of_isBelow h, locate_append_names]

/-- When every object lies at its own place below the source path, the files lie below the
    destination, and an object is only lost to a truncated listing. -/
theorem download_of_isBelow {env : OssEnv} {srcPath : Bytes} {names : OssObject → List Name}
    (hbelow : ∀ object ∈ env.bucket.matching srcPath,
      IsBelow env srcPath object.key (names object))
    (hnames : (env.bucket.matching srcPath).Pairwise fun o o' => names o ≠ names o')
    (destPath : Bytes) (fs : FileSystem) :
    Confined destPath (downloadFromOss env srcPath destPath fs).2 ∧
    ∀ s, downloadFromOss env srcPath destPath fs = (.ok (), s) →
      (env.bucket.listObjects srcPath).isTruncated = false →
      LosesNothing env srcPath destPath s := by
  constructor
  · intro d hd
    obtain ⟨hobject, hdest⟩ := mem_downloadFromOss hd
    rw [hdest, contains_destObjectPath_iff, placement_of_isBelow (hbelow _ hobject),
      PathParts.normal_names]
    exact ⟨0, rfl, .inr (Nat.zero_le _), by simp⟩
  · intro s hrun hcomplete
    refine losesNothing_of_apart hrun hcomplete (hnames.imp_of_mem ?_)
    intro o o' ho ho' hne
    rw [destLocation_of_isBelow destPath (hbelow o ho),
      destLocation_of_isBelow destPath (hbelow o' ho')]
    exact fun heq => hne (List.append_cancel_left heq)

/-- A round for an object below the source path is two operations at its place. -/
theorem downloadObject_of_isBelow {env : OssEnv} {srcPath destPath : Bytes} {object : OssObject}
    {names : List Name} (h : IsBelow env srcPath object.key names)
    (habsolute : (pathParts destPath).absolute = true) (s : DownloadState) :
    downloadObject env srcPath destPath object s =
      match s.fs.ensureParent (destLocation env srcPath destPath object) with
      | none => (.error (ioError "cannot create directories"), s)
      | some fs =>
        match env.downloadError object.key with
        | some e => (.error (ossFailure "oss download object failed" e), { s with fs })
        | none =>
          match fs.writeFile (destLocation env srcPath destPath object) object.content with
          | none =>
            (.error (ossFailure "oss download object failed" env.writeError), { s with fs })
          | some fs =>
            (.ok (), ⟨fs, s.downloaded ++ [downloadOf env srcPath destPath object]⟩) := by
  obtain ⟨front, last, hnames⟩ := (List.eq_nil_or_concat' names).resolve_left h.1
  have hdest : destObjectPath env srcPath destPath object.key =
      ⟨true, PathParts.dropSlash (pathParts destPath).elems ++ front.map .name ++
        [.name last]⟩ := by
    rw [destObjectPath, placement_of_isBelow h, hnames]
    simp [PathParts.append, habsolute]
  have hparent : locate env.cwd (parentPath (destObjectPath env srcPath destPath object.key)) =
      (destLocation env srcPath destPath object).dropLast := by
    have hroot : (pathParts destPath).normal.origin = .root :=
      NormalPath.foldl_push_root (by simp [PathParts.start, habsolute]) _
    -- Normalising does not see the slash at the end of the destination.
    have hnormal : (⟨true, PathParts.dropSlash (pathParts destPath).elems ++ front.map .name⟩ :
        PathParts Name).normal = ⟨.root, (pathParts destPath).normal.names ++ front⟩ := by
      rw [PathParts.normal, List.foldl_append, PathParts.foldl_push_dropSlash,
        NormalPath.foldl_push_names, ← hroot, PathParts.normal]
      simp [PathParts.start, habsolute]
    rw [destLocation_of_isBelow destPath h, hnames, ← List.append_assoc, List.dropLast_concat,
      locate_of_absolute _ hroot, hdest, parentPath, List.dropLast_concat, locate, hnormal]
    rfl
  have hmake : ∀ fs, makeParentPath env.cwd (destObjectPath env srcPath destPath object.key) fs =
      fs.ensureParent (destLocation env srcPath destPath object) := by
    intro fs
    have hsome : parentPath (destObjectPath env srcPath destPath object.key) ≠ .nil := by
      rw [hdest]
      simp [parentPath, PathParts.nil]
    rw [makeParentPath, if_neg hsome, hparent, FileTree.ensureParent]
  have hwrite : ∀ fs, writeObject env.cwd (destObjectPath env srcPath destPath object.key)
      object.content fs = fs.writeFile (destLocation env srcPath destPath object)
        object.content := by
    intro fs
    have hlast : (destObjectPath env srcPath destPath object.key).elems.getLast? =
        some (.name last) := by
      rw [hdest]
      simp
    rw [writeObject, hlast]
    rfl
  simp only [downloadObject, hmake, hwrite]
  rfl

end TrustFlow.Proxy
