import TrustFlow.Proxy.SequentialRequests

/-! # Requests at the same time

Requests for one source path share its staging directory.  Their steps interleave
freely; a request keeps its own files as long as no other one writes to or removes
the directory between its first encryption and its last upload. -/

namespace TrustFlow.Proxy

/-! ## Interleavings -/

structure System (ι : Type) where
  fs : FileSystem
  state : ι → RequestState

/-- The phases in which a request relies on what it staged. -/
def Phase.holdsStaging : Phase → Bool
  | .encrypting _ _ _ _ | .encrypted _ | .uploading _ _ => true
  | _ => false

/-- The phases whose steps write to the staging directory or remove it. -/
def Phase.changesStaging : Phase → Bool
  | .encrypting _ _ tasks _ => !tasks.isEmpty
  | .uploaded _ => true
  | _ => false

section Interleaving

variable {ι : Type} [DecidableEq ι]

def Turn (env : ProxyEnv) (q : ι → PutResultDataRequest) (i : ι) (s s' : System ι) : Prop :=
  ∃ r', Step env (q i) s.fs (s.state i) s'.fs r' ∧ s'.state = Function.update s.state i r'

/-- Any number of steps, each by a request that is allowed to take it. -/
def Interleaving (env : ProxyEnv) (q : ι → PutResultDataRequest)
    (allowed : System ι → ι → Prop) : System ι → System ι → Prop :=
  Relation.ReflTransGen fun s s' => ∃ i, allowed s i ∧ Turn env q i s s'

/-- No other request relies on the staging directory while request `i` changes it. -/
def Undisturbed (s : System ι) (i : ι) : Prop :=
  (s.state i).phase.changesStaging = true → ∀ j, j ≠ i → (s.state j).phase.holdsStaging = false

theorem interleaving_of_runs {env : ProxyEnv} (q : ι → PutResultDataRequest)
    (allowed : System ι → ι → Prop) (state : ι → RequestState) (i : ι) {fs fs' : FileSystem}
    {r' : RequestState} (hrun : Runs env (q i) fs (state i) fs' r')
    (hallowed : ∀ fs r, allowed ⟨fs, Function.update state i r⟩ i) :
    Interleaving env q allowed ⟨fs, state⟩ ⟨fs', Function.update state i r'⟩ := by
  refine hrun.invariant
    (fun fs' r' => Interleaving env q allowed ⟨fs, state⟩ ⟨fs', Function.update state i r'⟩)
    ?_ ?_
  · intro fs₁ r₁ fs₂ r₂ hstep hbefore
    refine Relation.ReflTransGen.tail hbefore ⟨i, hallowed fs₁ r₁, r₂, ?_, ?_⟩
    · show Step env (q i) fs₁ (Function.update state i r₁ i) fs₂ r₂
      rwa [Function.update_self]
    · exact (Function.update_idem r₁ r₂ state).symm
  · rw [Function.update_eq_self]
    exact Relation.ReflTransGen.refl

end Interleaving

/-! ## What one request uploads -/

section Covers

variable (env : ProxyEnv) (s3 : S3Config) (fs₀ : FileSystem) (items : List SourceItem)

def Stored (dataKey : Bytes) (uploads : List Upload) (i : SourceItem) : Prop :=
  ∃ p c, fs₀.fileAt i.loc = some p ∧ uploadOf s3 (relText i.rel ++ kEncSuffix) c ∈ uploads ∧
    DecryptsTo env.gcm dataKey c.bytes p.bytes

def PhaseCovers (uploads : List Upload) : Phase → Prop
  | .uploading dataKey todo =>
    ∀ i ∈ items, Stored env s3 fs₀ dataKey uploads i ∨ encLocation i.rel ∈ todo
  | .uploaded dataKey | .stored dataKey | .succeeded dataKey =>
    ∀ i ∈ items, Stored env s3 fs₀ dataKey uploads i
  | _ => True

variable {env s3 fs₀ items}

theorem Stored.append {dataKey : Bytes} {uploads more : List Upload} {i : SourceItem}
    (h : Stored env s3 fs₀ dataKey uploads i) :
    Stored env s3 fs₀ dataKey (uploads ++ more) i := by
  obtain ⟨p, c, hp, hmem, hdecrypts⟩ := h
  exact ⟨p, c, hp, List.mem_append_left _ hmem, hdecrypts⟩

/-- With all files staged when it starts, the upload leaves none out. -/
theorem step_covers {q : PutResultDataRequest} (hs3 : q.s3Config = some s3)
    (hitems : sourceItems env fs₀ q.srcPath = .ok items)
    {fs fs' : FileSystem} {r r' : RequestState} (hstep : Step env q fs r fs' r')
    (hstaged : PhaseStaged env q fs₀ items fs r.phase)
    (h : PhaseCovers env s3 fs₀ items r.uploads r.phase) :
    PhaseCovers env s3 fs₀ items r'.uploads r'.phase := by
  cases hstep with
  | encryptDone hphase =>
    rw [hs3]
    trivial
  | startUpload hphase _ horder =>
    rw [hphase] at hstaged
    intro i hi
    obtain ⟨_, c, _, hc, _⟩ := hstaged i hi
    exact .inr (horder.mem_iff.mpr (FileTree.mem_regularFiles.mpr ⟨c, hc⟩))
  | uploadFile hphase _ hfile =>
    rw [hphase] at hstaged
    intro i hi
    -- A staged file lies under the staging directory, which is then no regular file.
    obtain ⟨_, c, _, hc, _⟩ := hstaged i hi
    have hunder := encLocation_ne_nil ((sourceItems_spec hitems).1 i hi).1
    have hdir := FileTree.node_of_under (t := fs) hunder
      (by rw [FileTree.fileAt_eq_some.mp hc]; exact Option.some_ne_none _)
    rw [FileTree.fileAt_eq_some, hdir] at hfile
    cases hfile
  | @upload _ s3' rel todo c hphase hs3' hfile =>
    rw [hphase] at h hstaged
    cases hs3.symm.trans hs3'
    intro i hi
    rcases h i hi with hstored | hwaits
    · exact .inl hstored.append
    · rcases List.mem_cons.mp hwaits with rfl | hwaits
      · -- What is uploaded now is the file that the request staged.
        obtain ⟨p, c', hp, hc', hdecrypts⟩ := hstaged i hi
        cases hc'.symm.trans hfile
        refine .inl ⟨p, c, hp, List.mem_append_right _ ?_, hdecrypts⟩
        rw [relText_encLocation ((sourceItems_spec hitems).1 i hi).1]
        exact List.mem_singleton_self _
      · exact .inr hwaits
  | @uploadSkip _ rel todo hphase hnone =>
    rw [hphase] at h hstaged
    intro i hi
    rcases h i hi with hstored | hwaits
    · exact .inl hstored
    · rcases List.mem_cons.mp hwaits with rfl | hwaits
      · obtain ⟨_, c, _, hc, _⟩ := hstaged i hi
        cases hc.symm.trans hnone
      · exact .inr hwaits
  | uploadDone hphase =>
    rw [hphase] at h
    intro i hi
    rcases h i hi with hstored | hwaits
    · exact hstored
    · exact absurd hwaits List.not_mem_nil
  | remove hphase | finish hphase | register hphase =>
    rw [hphase] at h
    exact h
  | _ => trivial

end Covers

/-! ## What another request's step leaves alone -/

/-- Outside the phases that change the staging directory, no file changes. -/
theorem step_fileAt_eq {env : ProxyEnv} {q : PutResultDataRequest} {fs fs' : FileSystem}
    {r r' : RequestState} (hstep : Step env q fs r fs' r')
    (hphase : r.phase.changesStaging = false) (p : Location Name) :
    fs'.fileAt p = fs.fileAt p := by
  cases hstep with
  | launch _ _ hmake => exact fileAt_makeParent hmake
  | launchFault e _ _ _ hfault =>
    rcases hfault with rfl | hmake
    · rfl
    · exact FileTree.fileAt_createDirectories hmake
  | complete h _ _ =>
    rw [h] at hphase
    simp [Phase.changesStaging] at hphase
  | taskFault e h _ _ =>
    rw [h] at hphase
    simp [Phase.changesStaging] at hphase
  | remove h _ =>
    rw [h] at hphase
    cases hphase
  | removeFault e h _ =>
    rw [h] at hphase
    cases hphase
  | _ => rfl

theorem PhaseStaged.frame {env : ProxyEnv} {q : PutResultDataRequest} {fs₀ fs fs' : FileSystem}
    {items : List SourceItem} {phase : Phase} (hsame : ∀ p, fs'.fileAt p = fs.fileAt p)
    (h : PhaseStaged env q fs₀ items fs phase) : PhaseStaged env q fs₀ items fs' phase := by
  cases phase with
  | encrypting dataKey todo tasks error =>
    cases error with
    | some e => trivial
    | none =>
      refine ⟨h.1, fun i hi => ?_⟩
      rcases h.2 i hi with htodo | htask | hstaged
      · exact .inl htodo
      · exact .inr (.inl htask)
      · exact .inr (.inr (hstaged.frame fun p _ => hsame p))
  | encrypted dataKey => exact fun i hi => (h i hi).frame fun p _ => hsame p
  | uploading dataKey todo => exact fun i hi => (h i hi).frame fun p _ => hsame p
  | _ => trivial

theorem phaseStaged_of_not_holds {env : ProxyEnv} {q : PutResultDataRequest}
    {fs₀ fs : FileSystem} {items : List SourceItem} {phase : Phase}
    (h : phase.holdsStaging = false) : PhaseStaged env q fs₀ items fs phase := by
  cases phase with
  | encrypting | encrypted | uploading => cases h
  | _ => trivial

/-- A step of another request for the same source path, where it is undisturbed. -/
theorem Tracked.other {env : ProxyEnv} {q q' : PutResultDataRequest} {s3 : S3Config}
    {fs₀ fs fs' : FileSystem} {r r₁ r₁' : RequestState} (hsrc : q'.srcPath = q.srcPath)
    (hs3 : q'.s3Config = some s3)
    (hapart : Apart (env.resolve q.srcPath) (env.staging q.srcPath))
    (hstep : Step env q' fs r₁ fs' r₁')
    (hquiet : r₁.phase.changesStaging = true → r.phase.holdsStaging = false)
    (h : Tracked env q fs₀ fs r) : Tracked env q fs₀ fs' r where
  source := by
    -- The other request keeps to the same staging directory, which is apart from the source.
    intro p hp
    have hchanged := step_changedOnlyAt hs3 hstep
    rw [hsrc] at hchanged
    rw [hchanged.node_eq hapart hp]
    exact h.source p hp
  found := h.found
  staged items hitems := by
    by_cases hchanges : r₁.phase.changesStaging = true
    · exact phaseStaged_of_not_holds (hquiet hchanges)
    · exact (h.staged items hitems).frame
        (step_fileAt_eq hstep (Bool.not_eq_true _ ▸ hchanges))

/-! ## All requests -/

/-- The outcome that is asked of a request that returns OK. -/
def UploadsUnderOwnKey (env : ProxyEnv) (fs₀ : FileSystem) (q : PutResultDataRequest)
    (r : RequestState) : Prop :=
  ∀ s3 dataKey, q.s3Config = some s3 → r.phase = .succeeded dataKey →
    ∃ items, sourceItems env fs₀ q.srcPath = .ok items ∧
      ∀ i ∈ items, Stored env s3 fs₀ dataKey r.uploads i

structure Covered (env : ProxyEnv) (fs₀ : FileSystem) (q : PutResultDataRequest)
    (fs : FileSystem) (r : RequestState) : Prop where
  tracked : Tracked env q fs₀ fs r
  covers : ∀ s3 items, q.s3Config = some s3 → sourceItems env fs₀ q.srcPath = .ok items →
    PhaseCovers env s3 fs₀ items r.uploads r.phase

theorem Covered.uploadsUnderOwnKey {env : ProxyEnv} {fs₀ fs : FileSystem}
    {q : PutResultDataRequest} {r : RequestState} (h : Covered env fs₀ q fs r) :
    UploadsUnderOwnKey env fs₀ q r := by
  intro s3 dataKey hs3 hphase
  obtain ⟨items, hitems⟩ := h.tracked.found_of_succeeded hphase
  have hcovers := h.covers s3 items hs3 hitems
  rw [hphase] at hcovers
  exact ⟨items, hitems, hcovers⟩

section All

variable {ι : Type} [DecidableEq ι] {env : ProxyEnv} {srcPath : Bytes}
  {q : ι → PutResultDataRequest} {fs₀ : FileSystem}

theorem Turn.covered (hgcm : env.gcm.Inverts) (hsrc : ∀ i, (q i).srcPath = srcPath)
    (hs3 : ∀ i, (q i).s3Config.isSome = true)
    (hapart : Apart (env.resolve srcPath) (env.staging srcPath)) {i : ι} {s s' : System ι}
    (hundisturbed : Undisturbed s i) (hturn : Turn env q i s s')
    (h : ∀ j, Covered env fs₀ (q j) s.fs (s.state j)) :
    ∀ j, Covered env fs₀ (q j) s'.fs (s'.state j) := by
  obtain ⟨r', hstep, hstate⟩ := hturn
  obtain ⟨s3, hs3i⟩ := Option.isSome_iff_exists.mp (hs3 i)
  intro j
  have hapartj : Apart (env.resolve (q j).srcPath) (env.staging (q j).srcPath) := by
    rwa [hsrc j]
  rw [hstate]
  -- The request that moves keeps its own invariant, the others are framed.
  by_cases hji : j = i
  · subst hji
    rw [Function.update_self]
    refine ⟨(h j).tracked.step hs3i hgcm hapartj hstep, ?_⟩
    intro s3' items hs3' hitems
    exact step_covers hs3' hitems hstep ((h j).tracked.staged items hitems)
      ((h j).covers s3' items hs3' hitems)
  · rw [Function.update_of_ne hji]
    refine ⟨(h j).tracked.other ?_ hs3i hapartj hstep ?_, (h j).covers⟩
    · rw [hsrc i, hsrc j]
    · exact fun hchanges => hundisturbed hchanges j hji

end All

/-- In every interleaving of requests for one source path in which each is undisturbed, every
    request that returns OK has uploaded all files of the source under its own key. -/
theorem interleaving_uploads_under_own_key {ι : Type} [DecidableEq ι] (env : ProxyEnv)
    (hgcm : env.gcm.Inverts) (srcPath : Bytes) (q : ι → PutResultDataRequest)
    (hsrc : ∀ i, (q i).srcPath = srcPath) (hs3 : ∀ i, (q i).s3Config.isSome = true)
    (hapart : Apart (env.resolve srcPath) (env.staging srcPath)) (fs₀ : FileSystem)
    (s : System ι) (hrun : Interleaving env q Undisturbed ⟨fs₀, fun _ => {}⟩ s) :
    ∀ i, UploadsUnderOwnKey env fs₀ (q i) (s.state i) := by
  have hcovered : ∀ i, Covered env fs₀ (q i) s.fs (s.state i) := by
    induction hrun with
    | refl => exact fun i => ⟨Tracked.init env (q i) fs₀, fun _ _ _ _ => trivial⟩
    | tail _ hlast ih =>
      obtain ⟨i, hundisturbed, hturn⟩ := hlast
      exact hturn.covered hgcm hsrc hs3 hapart hundisturbed ih
  exact fun i => (hcovered i).uploadsUnderOwnKey

/-- Two requests for one directory, with different destinations. -/
def sampleRequests : Bool → PutResultDataRequest
  | true => sampleRequest
  | false => { sampleRequest with s3Config := some ⟨str "oss", str "bucket", str "other"⟩ }

theorem undisturbed_update {state : Bool → RequestState} {i : Bool}
    (h : (state !i).phase.holdsStaging = false) (fs : FileSystem) (r : RequestState) :
    Undisturbed ⟨fs, Function.update state i r⟩ i := by
  intro _ j hj
  obtain rfl : j = !i := by cases i <;> cases j <;> simp_all
  show (Function.update state i r !i).phase.holdsStaging = false
  rwa [Function.update_of_ne hj]

/-- The second request draws its key, waits for the first one to return OK, and does so itself. -/
theorem interleaving_uploads_under_own_key_both :
    ∃ s, Interleaving sampleEnv sampleRequests Undisturbed ⟨sampleFs, fun _ => {}⟩ s ∧
      (s.state true).phase = .succeeded sampleKey.bytes ∧
      (s.state false).phase = .succeeded secondKey.bytes ∧
      ∀ i, UploadsUnderOwnKey sampleEnv sampleFs (sampleRequests i) (s.state i) := by
  obtain ⟨uploads, hrun⟩ := sample_succeeded
  obtain ⟨fs, uploads', hstored⟩ := second_stored (q := sampleRequests false) rfl rfl
  have hkey : Runs sampleEnv (sampleRequests false) sampleFs {} sampleFs
      { phase := .keyed secondKey.bytes } := runs_randomKey secondKey rfl
  have hkeyed := interleaving_of_runs sampleRequests Undisturbed (fun _ => {}) false hkey
    (undisturbed_update rfl)
  have hfirst := hkeyed.trans (interleaving_of_runs sampleRequests Undisturbed _ true hrun
    (undisturbed_update rfl))
  have hboth := hfirst.trans (interleaving_of_runs sampleRequests Undisturbed _ false
    (hstored.step (.finish rfl rfl)) (undisturbed_update rfl))
  exact ⟨_, hboth, rfl, rfl, interleaving_uploads_under_own_key sampleEnv
    ⟨keyTagGcm_inverts, keyTagGcm_inverts⟩ (str "/data") sampleRequests (by decide) (by decide)
    sampleFs_ready.1 sampleFs _ hboth⟩

/-- The second request encrypted the file as well, over what the first one staged. -/
def sampleOverwritten : FileSystem :=
  (encryptItem sampleEnv (fun _ => zeroIv)
    (genTempDir paddingSha256 (str "/data")) secondKey.bytes sampleItem sampleStaged).2

theorem sample_overtaken {c : FileContent}
    (hc : sampleOverwritten.fileAt (sampleStaging ++ [str "b.enc"]) = some c) :
    ∃ s, Interleaving sampleEnv sampleRequests (fun _ _ => True) ⟨sampleFs, fun _ => {}⟩ s ∧
      s.state true =
        { phase := .succeeded sampleKey.bytes
          uploads := [uploadOf sampleS3 (relText [str "b.enc"]) c] } := by
  have hsecond : Runs sampleEnv (sampleRequests false) sampleStaged {} sampleOverwritten
      { phase := .encrypted secondKey.bytes } :=
    (runs_randomKey secondKey rfl).trans
      (runs_encrypt_one rfl (by decide) rfl (Prod.ext (by decide) rfl))
  have huploaded : Runs sampleEnv (sampleRequests true) sampleOverwritten
      { phase := .encrypted sampleKey.bytes } _
      { phase := .succeeded sampleKey.bytes
        uploads := [uploadOf sampleS3 (relText [str "b.enc"]) c] } :=
    (runs_upload_one rfl (by decide) (by decide) hc
      (eq_some_getD sampleOverwritten (by decide))).step (.finish rfl rfl)
  -- First request up to its upload, second request up to its upload, first request to the end.
  have hstart := interleaving_of_runs sampleRequests (fun _ _ => True) (fun _ => {}) true
    (sample_encrypted rfl rfl rfl) fun _ _ => trivial
  have hovertaken := hstart.trans (interleaving_of_runs sampleRequests _ _ false hsecond
    fun _ _ => trivial)
  have hdone := hovertaken.trans (interleaving_of_runs sampleRequests _ _ true huploaded
    fun _ _ => trivial)
  exact ⟨_, hdone, rfl⟩

theorem overwritten_not_opens {c : FileContent} {plaintext : Bytes}
    (hc : sampleOverwritten.fileAt (sampleStaging ++ [str "b.enc"]) = some c) :
    ¬ DecryptsTo sampleEnv.gcm sampleKey.bytes c.bytes plaintext := by
  intro hdecrypts
  obtain ⟨s, hrun, _⟩ := hdecrypts (str "b.enc") (str "b") (by decide)
  have hfails : (match (decryptFile sampleEnv.gcm (str "b.enc") (str "b") sampleKey.bytes).run
      (FileM.start (((sampleOverwritten.fileAt (sampleStaging ++ [str "b.enc"])).map
        FileContent.bytes).getD [])) with
      | .ok _ _ => true
      | .error _ _ => false) = false := by
    decide +kernel
  rw [hc, Option.map_some, Option.getD_some, hrun] at hfails
  cases hfails

/-- Both requests encrypt, then the first one uploads and returns OK: what it uploaded does not
    open under its key. -/
theorem uploads_under_other_key :
    ∃ s, Interleaving sampleEnv sampleRequests (fun _ _ => True) ⟨sampleFs, fun _ => {}⟩ s ∧
      ¬ UploadsUnderOwnKey sampleEnv sampleFs sampleRequest (s.state true) := by
  obtain ⟨c, hc⟩ : ∃ c, sampleOverwritten.fileAt (sampleStaging ++ [str "b.enc"]) = some c :=
    Option.isSome_iff_exists.mp (by decide)
  obtain ⟨s, hinterleaving, hstate⟩ := sample_overtaken hc
  refine ⟨s, hinterleaving, ?_⟩
  intro h
  rw [hstate] at h
  obtain ⟨items, hfound, hstored⟩ := h sampleS3 sampleKey.bytes rfl rfl
  have hitems : sourceItems sampleEnv sampleFs (str "/data") = .ok [sampleItem] := by
    decide
  cases hitems.symm.trans hfound
  obtain ⟨p, c', _, hmem, hdecrypts⟩ := hstored sampleItem (List.mem_singleton_self _)
  have hsame : c'.bytes = c.bytes := congrArg Upload.content (List.mem_singleton.mp hmem)
  rw [hsame] at hdecrypts
  exact overwritten_not_opens hc hdecrypts

end TrustFlow.Proxy
