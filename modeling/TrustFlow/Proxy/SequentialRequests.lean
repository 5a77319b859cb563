import TrustFlow.Proxy.StagedUpload

/-! # Requests one after the other

The staging directory is not cleared when a request starts and is only removed when
its upload succeeded, so what a request uploads depends on how earlier requests for
the same source path ended.  A request that finds nothing in the staging directory
but files it will overwrite uploads exactly the encrypted files of its source; one
that finds a leftover uploads it as well. -/

namespace TrustFlow.Proxy

section Exact

variable (env : ProxyEnv) (q : PutResultDataRequest) (s3 : S3Config) (fs₀ : FileSystem)
  (items : List SourceItem)

/-- One object for each file, which decrypts to it, and nothing else. -/
def UploadedExactly (dataKey : Bytes) (uploads : List Upload) : Prop :=
  ∃ ciphertext : SourceItem → Bytes,
    uploads.Perm (items.map fun i =>
      ⟨s3.endpoint, s3.bucket, pathAppend s3.path (relText i.rel ++ kEncSuffix), ciphertext i⟩) ∧
    ∀ i ∈ items, ∃ p, fs₀.fileAt i.loc = some p ∧
      DecryptsTo env.gcm dataKey (ciphertext i) p.bytes

/-- Every file of the staging directory is one that the request will write. -/
def NoLeftover (fs : FileSystem) : Prop :=
  ∀ rel c, fs.fileAt (env.staging q.srcPath ++ rel) = some c → ∃ i ∈ items, rel = encLocation i.rel

def stagedObject (fs : FileSystem) (rel : Location Name) : Upload :=
  ⟨s3.endpoint, s3.bucket, pathAppend s3.path (relText rel),
    ((fs.fileAt (env.staging q.srcPath ++ rel)).map FileContent.bytes).getD []⟩

def PhaseExact (fs : FileSystem) (uploads : List Upload) : Phase → Prop
  | .received | .keyed _ | .encrypting _ _ _ none | .encrypted _ =>
    uploads = [] ∧ NoLeftover env q items fs
  | .uploading _ todo =>
    ∃ done, uploads = done.map (stagedObject env q s3 fs) ∧
      (done ++ todo).Perm (items.map fun i => encLocation i.rel)
  | .uploaded dataKey | .stored dataKey | .succeeded dataKey =>
    UploadedExactly env s3 fs₀ items dataKey uploads
  | .encrypting _ _ _ (some _) | .failed _ => True

variable {env q s3 fs₀ items}

theorem stagedObject_of_fileAt {fs : FileSystem} {rel : Location Name} {c : FileContent}
    (h : fs.fileAt (env.staging q.srcPath ++ rel) = some c) :
    stagedObject env q s3 fs rel = uploadOf s3 (relText rel) c := by
  simp only [stagedObject, uploadOf, h, Option.map_some, Option.getD_some]

theorem regularFiles_perm (hitems : sourceItems env fs₀ q.srcPath = .ok items)
    {dataKey : Bytes} {fs : FileSystem} (hclean : NoLeftover env q items fs)
    (hstaged : ∀ i ∈ items, Staged env q fs₀ dataKey fs i) :
    (fs.regularFiles (env.staging q.srcPath)).Perm (items.map fun i => encLocation i.rel) := by
  obtain ⟨_, hnodup⟩ := sourceItems_spec hitems
  have hencNodup : (items.map fun i => encLocation i.rel).Nodup := by
    have h := hnodup.map fun a b => encLocation_inj
    rwa [List.map_map] at h
  apply (List.perm_ext_iff_of_nodup (fs.regularFiles_nodup _) hencNodup).mpr
  intro rel
  rw [FileTree.mem_regularFiles, List.mem_map]
  constructor
  · rintro ⟨c, hc⟩
    obtain ⟨i, hi, rfl⟩ := hclean rel c hc
    exact ⟨i, hi, rfl⟩
  · rintro ⟨i, hi, rfl⟩
    obtain ⟨_, c, _, hc, _⟩ := hstaged i hi
    exact ⟨c, hc⟩

theorem uploadedExactly_of_staged (hitems : sourceItems env fs₀ q.srcPath = .ok items)
    {dataKey : Bytes} {fs : FileSystem} {done : List (Location Name)}
    (hstaged : ∀ i ∈ items, Staged env q fs₀ dataKey fs i)
    (hdone : done.Perm (items.map fun i => encLocation i.rel)) :
    UploadedExactly env s3 fs₀ items dataKey (done.map (stagedObject env q s3 fs)) := by
  obtain ⟨hspec, _⟩ := sourceItems_spec hitems
  refine ⟨fun i => (stagedObject env q s3 fs (encLocation i.rel)).content, ?_, ?_⟩
  · refine (hdone.map _).trans (List.Perm.of_eq ?_)
    rw [List.map_map]
    apply List.map_congr_left
    intro i hi
    simp only [Function.comp, stagedObject, relText_encLocation (hspec i hi).1]
  · intro i hi
    obtain ⟨p, c, hp, hc, hdecrypts⟩ := hstaged i hi
    have hobject : stagedObject env q s3 fs (encLocation i.rel) = _ := stagedObject_of_fileAt hc
    simp only [hobject]
    exact ⟨p, hp, hdecrypts⟩

theorem NoLeftover.write {i : SourceItem} {c : FileContent} {fs fs' : FileSystem}
    (hi : i ∈ items)
    (hwrite : fs.writeFile (env.staging q.srcPath ++ encLocation i.rel) c = some fs')
    (h : NoLeftover env q items fs) : NoLeftover env q items fs' := by
  intro rel c' hc'
  rw [FileTree.fileAt_writeFile hwrite] at hc'
  split at hc'
  next heq => exact ⟨i, hi, List.append_cancel_left heq⟩
  next => exact h rel c' hc'

theorem step_exact (hs3 : q.s3Config = some s3) (hgcm : env.gcm.Inverts)
    (hitems : sourceItems env fs₀ q.srcPath = .ok items)
    {fs fs' : FileSystem} {r r' : RequestState} (hstep : Step env q fs r fs' r')
    (hstaged : PhaseStaged env q fs₀ items fs r.phase)
    (h : PhaseExact env q s3 fs₀ items fs r.uploads r.phase) :
    PhaseExact env q s3 fs₀ items fs' r'.uploads r'.phase := by
  cases hstep with
  | randomKey _ hphase | decodeKey hphase | startEncrypt hphase | remove hphase | finish hphase
  | register hphase =>
    rw [hphase] at h
    exact h
  | launchFault | encryptFailed | removeFault | throws | fault => trivial
  | @launch dataKey i todo tasks error _ _ hphase _ hmake =>
    rw [hphase] at h
    cases error with
    | some e => trivial
    | none =>
      refine ⟨h.1, ?_⟩
      intro rel c hc
      rw [fileAt_makeParent hmake] at hc
      exact h.2 rel c hc
  | @complete dataKey todo before i after error _ _ result _ hphase hpath hrun =>
    rw [hphase] at h hstaged
    cases error with
    | some e => cases result <;> trivial
    | none =>
      cases result with
      | error e => trivial
      | ok _ =>
        obtain ⟨_, c, _, hwrite, _⟩ := (encryptItem_spec hrun).2 hgcm rfl
        rw [dest_eq_staging hs3 hpath] at hwrite
        exact ⟨h.1, h.2.write (hstaged.1 i (by simp)) hwrite⟩
  | @taskFault _ _ _ _ _ error => cases error <;> trivial
  | encryptDone hphase =>
    rw [hphase] at h
    rw [hs3]
    exact h
  | startUpload hphase _ horder =>
    -- With no leftover, what is listed are the encrypted files.
    rw [hphase] at h hstaged
    exact ⟨[], h.1, horder.trans (regularFiles_perm hitems h.2 hstaged)⟩
  | uploadFile hphase _ hfile =>
    rw [hphase] at h
    -- A file at the staging directory itself would be a leftover.
    obtain ⟨i, hi, hrel⟩ := h.2 [] _ (by rwa [List.append_nil])
    exact absurd hrel.symm (encLocation_ne_nil ((sourceItems_spec hitems).1 i hi).1)
  | @upload _ s3' rel todo c hphase hs3' hfile =>
    rw [hphase] at h
    obtain ⟨done, huploads, hperm⟩ := h
    cases hs3.symm.trans hs3'
    refine ⟨done ++ [rel], ?_, ?_⟩
    · rw [List.map_append, List.map_singleton, stagedObject_of_fileAt hfile, ← huploads]
    · rwa [List.append_assoc, List.singleton_append]
  | @uploadSkip _ rel todo hphase hnone =>
    -- Nothing removes a staged file before the upload is done.
    rw [hphase] at h hstaged
    obtain ⟨done, _, hperm⟩ := h
    have hmem : rel ∈ items.map fun i => encLocation i.rel :=
      hperm.mem_iff.mp (List.mem_append_right _ List.mem_cons_self)
    obtain ⟨i, hi, rfl⟩ := List.mem_map.mp hmem
    obtain ⟨_, c, _, hc, _⟩ := hstaged i hi
    cases hc.symm.trans hnone
  | uploadDone hphase =>
    rw [hphase] at h hstaged
    obtain ⟨done, huploads, hperm⟩ := h
    rw [List.append_nil] at hperm
    rw [huploads]
    exact uploadedExactly_of_staged hitems hstaged hperm

end Exact

/-! ## One request -/

/-- Nothing in the staging directory is left from an earlier request but files that this
    request overwrites, and the staging directory and the source do not overlap. -/
def ReadyStaging (env : ProxyEnv) (fs : FileSystem) (q : PutResultDataRequest) : Prop :=
  Apart (env.resolve q.srcPath) (env.staging q.srcPath) ∧
    ∀ items, sourceItems env fs q.srcPath = .ok items → NoLeftover env q items fs

/-- The outcome that is asked of a request that returns OK. -/
def UploadsItsSource (env : ProxyEnv) (fs₀ : FileSystem) (q : PutResultDataRequest)
    (r : RequestState) : Prop :=
  ∀ s3 dataKey, q.s3Config = some s3 → r.phase = .succeeded dataKey →
    ∃ items, sourceItems env fs₀ q.srcPath = .ok items ∧
      UploadedExactly env s3 fs₀ items dataKey r.uploads

theorem uploadsItsSource_of_ready {env : ProxyEnv} {q : PutResultDataRequest}
    {fs₀ fs : FileSystem} {r : RequestState} (hgcm : env.gcm.Inverts)
    (hready : ReadyStaging env fs₀ q) (hrun : Runs env q fs₀ {} fs r) :
    UploadsItsSource env fs₀ q r := by
  intro s3 dataKey hs3 hphase
  obtain ⟨htracked, hexact⟩ := hrun.invariant
    (fun fs r => Tracked env q fs₀ fs r ∧ ∀ items, sourceItems env fs₀ q.srcPath = .ok items →
      PhaseExact env q s3 fs₀ items fs r.uploads r.phase)
    (fun _ _ _ _ hstep h => ⟨h.1.step hs3 hgcm hready.1 hstep, fun items hitems =>
      step_exact hs3 hgcm hitems hstep (h.1.staged items hitems) (h.2 items hitems)⟩)
    ⟨Tracked.init env q fs₀, fun items hitems => ⟨rfl, hready.2 items hitems⟩⟩
  obtain ⟨items, hitems⟩ := htracked.found_of_succeeded hphase
  have huploads := hexact items hitems
  rw [hphase] at huploads
  exact ⟨items, hitems, huploads⟩

/-! ## A concrete environment -/

/-- A cipher for evaluating the model: the ciphertext is the plaintext, the tag is the key. -/
def keyTagGcm : GcmCrypto where
  encrypt key _ plaintext _ := (plaintext, (key ++ List.replicate 16 0).take 16)
  decrypt key _ ciphertext _ mac :=
    if mac = (key ++ List.replicate 16 0).take 16 then .ok ciphertext
    else yaclThrow (str "tag mismatch")
  ciphertext_length _ _ _ _ := rfl
  mac_length _ _ _ _ := by simp

theorem keyTagGcm_inverts : keyTagGcm.Inverts := fun _ _ _ _ => if_pos rfl

def sampleEnv : ProxyEnv where
  gcm := ⟨keyTagGcm, keyTagGcm⟩
  sha256 := paddingSha256
  base64Decode text := .ok text
  resolve path := (path.splitOn slash).filter (· ≠ [])

def sampleS3 : S3Config := ⟨str "oss", str "bucket", str "results"⟩

def sampleRequest : PutResultDataRequest where
  srcPath := str "/data"
  s3Config := some sampleS3

def sampleKey : Blob kKeyBytes := ⟨List.replicate 16 1, rfl⟩

def sampleItem : SourceItem := ⟨[str "b"], [str "data", str "b"], str "/data/b"⟩

def sampleFs : FileSystem :=
  ((FileTree.empty.createDirectories [str "data"]).bind fun fs =>
    fs.writeFile [str "data", str "b"] ⟨[7], by decide⟩).getD .empty

def sampleMade : FileSystem :=
  (makeParent sampleEnv (genTempDir paddingSha256 (str "/data")) sampleItem sampleFs).getD sampleFs

def sampleStaged : FileSystem :=
  (encryptItem sampleEnv (fun _ => zeroIv)
    (genTempDir paddingSha256 (str "/data")) sampleKey.bytes sampleItem sampleMade).2

theorem eq_some_getD {α : Type} {o : Option α} (d : α) (h : o.isSome = true) :
    o = some (o.getD d) := by
  cases o with
  | none => cases h
  | some a => rfl

def sampleStaging : Location Name := sampleEnv.staging (str "/data")

theorem sample_encrypted {q : PutResultDataRequest} {s3 : S3Config}
    (hsrc : q.srcPath = str "/data") (hs3 : q.s3Config = some s3) (hkey : q.dataKeyB64 = []) :
    Runs sampleEnv q sampleFs {} sampleStaged { phase := .encrypted sampleKey.bytes } := by
  have hitems : sourceItems sampleEnv sampleFs (str "/data") = .ok [sampleItem] := by
    decide
  have hmake : makeParent sampleEnv (genTempDir paddingSha256 (str "/data")) sampleItem sampleFs =
      some sampleMade := eq_some_getD _ (by decide)
  have hencrypt : encryptItem sampleEnv (fun _ => zeroIv)
      (genTempDir paddingSha256 (str "/data")) sampleKey.bytes sampleItem sampleMade =
      (.ok (), sampleStaged) := Prod.ext (by decide) rfl
  rw [← hsrc] at hitems hmake hencrypt
  exact (runs_randomKey sampleKey hkey).trans (runs_encrypt_one hs3 hitems hmake hencrypt)

/-- The staging directory has been removed again. -/
def sampleServed : FileSystem := (sampleStaged.removeAll sampleStaging).getD sampleStaged

theorem sample_stored {q : PutResultDataRequest} {s3 : S3Config}
    (hsrc : q.srcPath = str "/data") (hs3 : q.s3Config = some s3) (hkey : q.dataKeyB64 = []) :
    ∃ uploads, Runs sampleEnv q sampleFs {} sampleServed
      { phase := .stored sampleKey.bytes, uploads } := by
  obtain ⟨c, hc⟩ : ∃ c, sampleStaged.fileAt (sampleStaging ++ [str "b.enc"]) = some c :=
    Option.isSome_iff_exists.mp (by decide)
  have hdir : sampleStaged.isDirectory sampleStaging = true := by decide
  have hfiles : sampleStaged.regularFiles sampleStaging = [[str "b.enc"]] := by decide
  have hremove : sampleStaged.removeAll sampleStaging = some sampleServed :=
    eq_some_getD sampleStaged (by decide)
  rw [sampleStaging, ← hsrc] at hc hdir hfiles hremove
  exact ⟨_, (sample_encrypted hsrc hs3 hkey).trans (runs_upload_one hs3 hdir hfiles hc hremove)⟩

theorem sample_succeeded :
    ∃ uploads, Runs sampleEnv sampleRequest sampleFs {} sampleServed
      { phase := .succeeded sampleKey.bytes, uploads } := by
  obtain ⟨uploads, hstored⟩ := sample_stored (q := sampleRequest) rfl rfl rfl
  exact ⟨uploads, hstored.step (.finish rfl rfl)⟩

/-! Another request for the directory, after the first. -/

def secondKey : Blob kKeyBytes := ⟨List.replicate 16 2, rfl⟩

def secondMade : FileSystem :=
  (makeParent sampleEnv (genTempDir paddingSha256 (str "/data")) sampleItem sampleServed).getD
    sampleServed

def secondStaged : FileSystem :=
  (encryptItem sampleEnv (fun _ => zeroIv)
    (genTempDir paddingSha256 (str "/data")) secondKey.bytes sampleItem secondMade).2

theorem second_stored {q : PutResultDataRequest} {s3 : S3Config}
    (hsrc : q.srcPath = str "/data") (hs3 : q.s3Config = some s3) :
    ∃ fs uploads, Runs sampleEnv q sampleServed { phase := .keyed secondKey.bytes } fs
      { phase := .stored secondKey.bytes, uploads } := by
  have hitems : sourceItems sampleEnv sampleServed (str "/data") = .ok [sampleItem] := by
    decide
  have hmake : makeParent sampleEnv (genTempDir paddingSha256 (str "/data")) sampleItem
      sampleServed = some secondMade := eq_some_getD _ (by decide)
  have hencrypt : encryptItem sampleEnv (fun _ => zeroIv)
      (genTempDir paddingSha256 (str "/data")) secondKey.bytes sampleItem secondMade =
      (.ok (), secondStaged) := Prod.ext (by decide) rfl
  obtain ⟨c, hc⟩ : ∃ c, secondStaged.fileAt (sampleStaging ++ [str "b.enc"]) = some c :=
    Option.isSome_iff_exists.mp (by decide)
  have hdir : secondStaged.isDirectory sampleStaging = true := by decide
  have hfiles : secondStaged.regularFiles sampleStaging = [[str "b.enc"]] := by decide
  have hremove : secondStaged.removeAll sampleStaging = some _ :=
    eq_some_getD secondStaged (by decide)
  rw [← hsrc] at hitems hmake hencrypt
  rw [sampleStaging, ← hsrc] at hc hdir hfiles hremove
  exact ⟨_, _, (runs_encrypt_one hs3 hitems hmake hencrypt).trans
    (runs_upload_one hs3 hdir hfiles hc hremove)⟩

theorem ready_of_noFiles {fs : FileSystem} (h : fs.regularFiles sampleStaging = []) :
    ReadyStaging sampleEnv fs sampleRequest := by
  refine ⟨by unfold Apart; decide, ?_⟩
  intro items _ rel c hc
  have hmem := FileTree.mem_regularFiles.mpr ⟨c, hc⟩
  exact absurd (h ▸ hmem) List.not_mem_nil

theorem sampleFs_ready : ReadyStaging sampleEnv sampleFs sampleRequest :=
  ready_of_noFiles (by decide)

theorem sampleServed_ready : ReadyStaging sampleEnv sampleServed sampleRequest :=
  ready_of_noFiles (by decide)

/-! ## Requests in sequence -/

/-- A request that was served: the file system it found, and its final state. -/
structure Served where
  before : FileSystem
  request : PutResultDataRequest
  state : RequestState

/-- Requests handled one after the other, each to its end; between them the files under a
    source path may change. -/
inductive History (env : ProxyEnv) (init : FileSystem) : FileSystem → List Served → Prop where
  | nil : History env init init []
  | change {fs fs' served} (srcPath : Bytes) :
      History env init fs served →
      (∀ p, ¬ env.resolve srcPath <+: p → fs'.node p = fs.node p) →
      History env init fs' served
  | serve {fs fs' served} (q : PutResultDataRequest) (r : RequestState) :
      History env init fs served → Runs env q fs {} fs' r → r.phase.finished = true →
      History env init fs' (served ++ [⟨fs, q, r⟩])

theorem History.runs {env : ProxyEnv} {init fs : FileSystem} {served : List Served}
    (h : History env init fs served) :
    ∀ x ∈ served, ∃ fs', Runs env x.request x.before {} fs' x.state := by
  induction h with
  | nil => exact fun x hx => absurd hx List.not_mem_nil
  | change _ _ _ ih => exact ih
  | @serve _ fs' _ q r _ hrun _ ih =>
    intro x hx
    rcases List.mem_append.mp hx with hx | hx
    · exact ih x hx
    · obtain rfl := List.mem_singleton.mp hx
      exact ⟨fs', hrun⟩

/-- If no request of a history finds a leftover, each one that returns OK has uploaded exactly
    the encrypted files of its source. -/
theorem history_uploads_exactly (env : ProxyEnv) (hgcm : env.gcm.Inverts)
    (init fs : FileSystem) (served : List Served) (hhistory : History env init fs served)
    (hready : ∀ x ∈ served, x.request.s3Config.isSome → ReadyStaging env x.before x.request) :
    ∀ x ∈ served, UploadsItsSource env x.before x.request x.state := by
  intro x hx s3 dataKey hs3
  obtain ⟨_, hrun⟩ := hhistory.runs x hx
  have hstaging := hready x hx (hs3 ▸ rfl)
  exact uploadsItsSource_of_ready hgcm hstaging hrun s3 dataKey hs3

/-- Two requests for one directory, one after the other. -/
theorem history_uploads_exactly_twice :
    ∃ fs x y, History sampleEnv sampleFs fs [x, y] ∧
      x.request.s3Config.isSome = true ∧ y.request.s3Config.isSome = true ∧
      x.state.phase = .succeeded sampleKey.bytes ∧ y.state.phase = .succeeded secondKey.bytes ∧
      UploadsItsSource sampleEnv x.before x.request x.state ∧
      UploadsItsSource sampleEnv y.before y.request y.state := by
  obtain ⟨uploads, hrun⟩ := sample_succeeded
  obtain ⟨fs, uploads', hstored⟩ := second_stored (q := sampleRequest) rfl rfl
  have hrun' := ((runs_randomKey secondKey rfl).trans hstored).step (.finish rfl rfl)
  have hhistory : History sampleEnv sampleFs _ _ :=
    .serve sampleRequest _ (.serve sampleRequest _ .nil hrun rfl) hrun' rfl
  have huploads := history_uploads_exactly sampleEnv ⟨keyTagGcm_inverts, keyTagGcm_inverts⟩ _ _ _
    hhistory (by
      intro x hx _
      rcases List.mem_pair.mp hx with rfl | rfl
      · exact sampleFs_ready
      · exact sampleServed_ready)
  exact ⟨fs, _, _, hhistory, rfl, rfl, rfl, rfl, huploads _ (by simp), huploads _ (by simp)⟩

def sampleCleared : FileSystem := (sampleStaged.removeAll [str "data", str "b"]).getD sampleStaged

/-- The first request fails at its upload; the second one, for the directory that is now empty,
    uploads what the first one left and returns OK. -/
theorem leftover_uploaded :
    ∃ fs served, History sampleEnv sampleFs fs served ∧
      ∃ x ∈ served, ¬ UploadsItsSource sampleEnv x.before x.request x.state := by
  have hremove : sampleStaged.removeAll [str "data", str "b"] = some sampleCleared :=
    eq_some_getD _ (by decide)
  have hitems : sourceItems sampleEnv sampleCleared (str "/data") = .ok [] := by decide
  obtain ⟨c, hc⟩ : ∃ c, sampleCleared.fileAt (sampleStaging ++ [str "b.enc"]) = some c :=
    Option.isSome_iff_exists.mp (by decide)
  have hfailed := (sample_encrypted (q := sampleRequest) rfl rfl rfl).step
    (.fault (ioError "upload failed") rfl)
  have hfirst := History.serve sampleRequest _ .nil hfailed rfl
  have hkept : ∀ p, ¬ sampleEnv.resolve (str "/data") <+: p →
      sampleCleared.node p = sampleStaged.node p := by
    intro p hp
    rw [FileTree.node_removeAll hremove, if_neg]
    rintro ⟨rest, rfl⟩
    exact hp ⟨str "b" :: rest, rfl⟩
  have hbetween := hfirst.change (str "/data") hkept
  have hencrypted : Runs sampleEnv sampleRequest sampleCleared {} sampleCleared
      { phase := .encrypted secondKey.bytes } :=
    (((Runs.refl _ _ _ _).step (.randomKey secondKey rfl rfl)).step
      (.startEncrypt rfl rfl hitems (List.Perm.refl _))).step (.encryptDone rfl)
  -- There is nothing to encrypt, but the staging directory is there with the old file.
  have hstored := hencrypted.trans (runs_upload_one rfl (by decide)
    (by decide) hc (eq_some_getD sampleCleared (by decide)))
  have hrun := hstored.step (.finish rfl rfl)
  refine ⟨_, _, hbetween.serve sampleRequest _ hrun rfl, _,
    List.mem_append_right _ (List.mem_singleton_self _), ?_⟩
  intro h
  -- One object was uploaded for no file.
  obtain ⟨items, hfound, _, hperm, _⟩ := h _ _ rfl rfl
  cases hitems.symm.trans hfound
  cases hperm.length_eq

end TrustFlow.Proxy
