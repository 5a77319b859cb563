import TrustFlow.Proxy.PutResultData

/-! # Downloads from the object store

`DownloadFromOss` of `oss_client.cc`.  Objects are selected by a string that their
keys start with, from the first page of a listing, and placed by the path of the
key relative to that string.  Files that were written before a failure stay. -/

namespace TrustFlow.Proxy

/-! ## The object store -/

structure OssObject where
  key : Bytes
  content : FileContent
deriving DecidableEq

/-- The objects of a bucket in the order of a listing. -/
structure Bucket where
  objects : List OssObject
  keys_nodup : (objects.map OssObject.key).Nodup

/-- `ListObjectsResult`: one page of objects, and whether there are more. -/
structure ObjectListing where
  objectSummarys : List OssObject
  isTruncated : Bool

/-- The number of objects on a page when a request does not ask for another one. -/
def kMaxKeys : Nat := 100

def Bucket.matching (bucket : Bucket) (srcPath : Bytes) : List OssObject :=
  bucket.objects.filter fun object => srcPath <+: object.key

def Bucket.listObjects (bucket : Bucket) (srcPath : Bytes) : ObjectListing where
  objectSummarys := (bucket.matching srcPath).take kMaxKeys
  isTruncated := kMaxKeys < (bucket.matching srcPath).length

structure OssError where
  code : Bytes
  message : Bytes
deriving DecidableEq

/-- What a download runs on: the bucket and the failures of the client, the working directory,
    and what `weakly_canonical` makes of a path there. -/
structure OssEnv where
  bucket : Bucket
  listError : Option OssError := none
  downloadError : Bytes → Option OssError := fun _ => none
  writeError : OssError := ⟨str "ClientError", str "open file failed"⟩
  cwd : Location Name := []
  weaklyCanonical : PathParts Name → PathParts Name := PathParts.lexicallyNormal

/-- A file that was written: the object it came from, and the path it was written to. -/
structure Download where
  object : OssObject
  dest : PathParts Name
deriving DecidableEq

structure DownloadState where
  fs : FileSystem
  downloaded : List Download

/-! ## Placing an object -/

/-- `std::filesystem::relative`. -/
def relativePath (env : OssEnv) (srcPath key : Bytes) : PathParts Name :=
  (env.weaklyCanonical (pathParts key)).lexicallyRelative (env.weaklyCanonical (pathParts srcPath))

/-- The part of the destination behind `dest_path`: the file name of an object that is the source
    path itself, and the relative path of any other object. -/
def placement (env : OssEnv) (srcPath key : Bytes) : PathParts Name :=
  if relativePath env srcPath key = ⟨false, [.dot]⟩ then pathParts (filename key)
  else relativePath env srcPath key

def destObjectPath (env : OssEnv) (srcPath destPath key : Bytes) : PathParts Name :=
  (pathParts destPath).append (placement env srcPath key)

/-- The directories of the normalised parent path.  `create_directories` also makes the components
    in front of a `..`, and fails if one of them is a file; they hold no object and are left
    out. -/
def makeParentPath (cwd : Location Name) (dest : PathParts Name) (fs : FileSystem) :
    Option FileSystem :=
  -- The empty path does not exist, and no directory is created for it.
  if parentPath dest = .nil then none
  else
    let parent := locate cwd (parentPath dest)
    if fs.node parent = none then fs.createDirectories parent else some fs

/-- A regular file at a path; a path that ends in a slash or in dots names no regular file. -/
def writeObject (cwd : Location Name) (dest : PathParts Name) (content : FileContent)
    (fs : FileSystem) : Option FileSystem :=
  match dest.elems.getLast? with
  | some (.name _) => fs.writeFile (locate cwd dest) content
  | _ => none

/-! ## The download -/

def ossFailure (what : String) (e : OssError) : Exn :=
  ⟨.enforceNotMet, str what ++ str ", error " ++ e.code ++ str ": " ++ e.message⟩

/-- One round of the loop over the listed objects. -/
def downloadObject (env : OssEnv) (srcPath destPath : Bytes) (object : OssObject)
    (s : DownloadState) : Except Exn Unit × DownloadState :=
  let dest := destObjectPath env srcPath destPath object.key
  match makeParentPath env.cwd dest s.fs with
  | none => (.error (ioError "cannot create directories"), s)
  | some fs =>
    match env.downloadError object.key with
    | some e => (.error (ossFailure "oss download object failed" e), { s with fs })
    | none =>
      match writeObject env.cwd dest object.content fs with
      | none => (.error (ossFailure "oss download object failed" env.writeError), { s with fs })
      | some fs => (.ok (), { fs, downloaded := s.downloaded ++ [⟨object, dest⟩] })

def downloadObjects (env : OssEnv) (srcPath destPath : Bytes) :
    List OssObject → DownloadState → Except Exn Unit × DownloadState
  | [], s => (.ok (), s)
  | object :: objects, s =>
    match downloadObject env srcPath destPath object s with
    | (.ok (), s) => downloadObjects env srcPath destPath objects s
    | (.error e, s) => (.error e, s)

def downloadFromOss (env : OssEnv) (srcPath destPath : Bytes) (fs : FileSystem) :
    Except Exn Unit × DownloadState :=
  match env.listError with
  | some e => (.error (ossFailure "oss list object failed" e), { fs, downloaded := [] })
  | none =>
    -- Only the objects of this page are looked at, whatever the listing says about others.
    let objects := (env.bucket.listObjects srcPath).objectSummarys
    if 0 < objects.length then
      downloadObjects env srcPath destPath objects { fs, downloaded := [] }
    else
      (.error ⟨.enforceNotMet, str "no object found in " ++ srcPath⟩, { fs, downloaded := [] })

/-! ## What a run does -/

section Run

variable (env : OssEnv) (srcPath destPath : Bytes)

def destLocation (object : OssObject) : Location Name :=
  locate env.cwd (destObjectPath env srcPath destPath object.key)

def downloadOf (object : OssObject) : Download :=
  ⟨object, destObjectPath env srcPath destPath object.key⟩

variable {env srcPath destPath}

theorem fileAt_makeParentPath {cwd : Location Name} {dest : PathParts Name} {fs fs' : FileSystem}
    (h : makeParentPath cwd dest fs = some fs') (q : Location Name) :
    fs'.fileAt q = fs.fileAt q := by
  simp only [makeParentPath] at h
  split at h
  · cases h
  · split at h
    · exact FileTree.fileAt_createDirectories h
    · cases h
      rfl

theorem fileAt_writeObject {cwd : Location Name} {dest : PathParts Name} {content : FileContent}
    {fs fs' : FileSystem} (h : writeObject cwd dest content fs = some fs') (q : Location Name) :
    fs'.fileAt q = if q = locate cwd dest then some content else fs.fileAt q := by
  rw [writeObject] at h
  split at h
  · exact FileTree.fileAt_writeFile h
  · cases h

/-- A round either fails and leaves every file as it was, or writes the file of its object. -/
theorem downloadObject_cases (env : OssEnv) (srcPath destPath : Bytes) (object : OssObject)
    (s : DownloadState) :
    (∃ e fs, downloadObject env srcPath destPath object s = (.error e, ⟨fs, s.downloaded⟩) ∧
      ∀ q, fs.fileAt q = s.fs.fileAt q) ∨
    ∃ fs, downloadObject env srcPath destPath object s =
        (.ok (), ⟨fs, s.downloaded ++ [downloadOf env srcPath destPath object]⟩) ∧
      ∀ q, fs.fileAt q = if q = destLocation env srcPath destPath object then
        some object.content else s.fs.fileAt q := by
  simp only [downloadObject]
  cases hparent : makeParentPath env.cwd (destObjectPath env srcPath destPath object.key) s.fs with
  | none => exact .inl ⟨_, _, rfl, fun q => rfl⟩
  | some fs =>
    have hkept := fileAt_makeParentPath hparent
    cases hdownload : env.downloadError object.key with
    | some e => exact .inl ⟨_, _, rfl, hkept⟩
    | none =>
      cases hwrite : writeObject env.cwd (destObjectPath env srcPath destPath object.key)
          object.content fs with
      | none =>
        exact .inl ⟨ossFailure "oss download object failed" env.writeError, fs,
          by simp only [hwrite], hkept⟩
      | some fs' =>
        refine .inr ⟨fs', by simp only [hwrite, downloadOf], ?_⟩
        intro q
        rw [fileAt_writeObject hwrite, hkept]
        rfl

/-- Failed or not, a run has written the files of the objects up to some point of the list. -/
theorem downloadObjects_downloaded (env : OssEnv) (srcPath destPath : Bytes) :
    ∀ (objects : List OssObject) (s : DownloadState), ∃ done rest, objects = done ++ rest ∧
      (downloadObjects env srcPath destPath objects s).2.downloaded =
        s.downloaded ++ done.map (downloadOf env srcPath destPath) ∧
      ((downloadObjects env srcPath destPath objects s).1 = .ok () → rest = []) := by
  intro objects
  induction objects with
  | nil => exact fun s => ⟨[], [], rfl, by simp [downloadObjects], fun _ => rfl⟩
  | cons object objects ih =>
    intro s
    rcases downloadObject_cases env srcPath destPath object s with
      ⟨e, fs, hstep, _⟩ | ⟨fs, hstep, _⟩
    · refine ⟨[], object :: objects, rfl, by simp [downloadObjects, hstep], ?_⟩
      intro hok
      simp [downloadObjects, hstep] at hok
    · obtain ⟨done, rest, hsplit, hlog, hrest⟩ :=
        ih ⟨fs, s.downloaded ++ [downloadOf env srcPath destPath object]⟩
      refine ⟨object :: done, rest, by rw [hsplit, List.cons_append], ?_, ?_⟩
      · simp [downloadObjects, hstep, hlog]
      · simpa only [downloadObjects, hstep] using hrest

/-- A run that ends normally went through one successful round for each object. -/
theorem downloadObjects_cons_ok {object : OssObject} {objects : List OssObject}
    {s : DownloadState}
    (h : (downloadObjects env srcPath destPath (object :: objects) s).1 = .ok ()) :
    ∃ fs, (∀ q, fs.fileAt q = if q = destLocation env srcPath destPath object then
        some object.content else s.fs.fileAt q) ∧
      let mid : DownloadState :=
        ⟨fs, s.downloaded ++ [downloadOf env srcPath destPath object]⟩
      downloadObjects env srcPath destPath (object :: objects) s =
        downloadObjects env srcPath destPath objects mid := by
  rcases downloadObject_cases env srcPath destPath object s with
    ⟨e, fs, hstep, _⟩ | ⟨fs, hstep, hfiles⟩
  · simp [downloadObjects, hstep] at h
  · exact ⟨fs, hfiles, by simp [downloadObjects, hstep]⟩

theorem fileAt_downloadObjects_of_ne {q : Location Name} :
    ∀ {objects : List OssObject} {s : DownloadState},
      (downloadObjects env srcPath destPath objects s).1 = .ok () →
      (∀ object ∈ objects, destLocation env srcPath destPath object ≠ q) →
      (downloadObjects env srcPath destPath objects s).2.fs.fileAt q = s.fs.fileAt q := by
  intro objects
  induction objects with
  | nil => exact fun _ _ => rfl
  | cons object objects ih =>
    intro s hok hne
    obtain ⟨fs, hfiles, hrun⟩ := downloadObjects_cons_ok hok
    rw [hrun] at hok ⊢
    rw [ih hok fun o ho => hne o (List.mem_cons_of_mem _ ho), hfiles,
      if_neg (Ne.symm (hne object List.mem_cons_self))]

/-- Without a shared destination, no file is overwritten by a later round. -/
theorem fileAt_downloadObjects :
    ∀ {objects : List OssObject} {s : DownloadState},
      (downloadObjects env srcPath destPath objects s).1 = .ok () →
      objects.Pairwise (fun o o' =>
        destLocation env srcPath destPath o ≠ destLocation env srcPath destPath o') →
      ∀ object ∈ objects, (downloadObjects env srcPath destPath objects s).2.fs.fileAt
        (destLocation env srcPath destPath object) = some object.content := by
  intro objects
  induction objects with
  | nil => exact fun _ _ object h => absurd h List.not_mem_nil
  | cons first objects ih =>
    intro s hok hpairwise object hobject
    obtain ⟨hfirst, hrest⟩ := List.pairwise_cons.mp hpairwise
    obtain ⟨fs, hfiles, hrun⟩ := downloadObjects_cons_ok hok
    rw [hrun] at hok ⊢
    rcases List.mem_cons.mp hobject with rfl | hobject
    · rw [fileAt_downloadObjects_of_ne hok fun o ho => Ne.symm (hfirst o ho), hfiles, if_pos rfl]
    · exact ih hok hrest object hobject

end Run

end TrustFlow.Proxy
