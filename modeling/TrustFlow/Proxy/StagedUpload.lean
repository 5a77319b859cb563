import TrustFlow.Proxy.FileRoundTrip
import TrustFlow.Proxy.PutResultData

/-! # What a request stages and uploads

The facts about one request that hold however it is scheduled: which locations its
steps can change, what a finished task leaves in the staging directory, and that
every file of the source is still to be encrypted, staged or uploaded at any time
before the request returns. -/

namespace TrustFlow.Proxy

def DecryptsTo (gcm : GcmLibrary) (dataKey ciphertext plaintext : Bytes) : Prop :=
  ∀ srcPath destPath, srcPath ≠ destPath →
    ∃ s, (decryptFile gcm srcPath destPath dataKey).run (FileM.start ciphertext) = .ok () s ∧
      s.output = some plaintext

/-! ## The parts -/

theorem sourceItems_spec {env : ProxyEnv} {fs : FileSystem} {srcPath : Bytes}
    {items : List SourceItem} (h : sourceItems env fs srcPath = .ok items) :
    (∀ i ∈ items, i.rel ≠ [] ∧ env.resolve srcPath <+: i.loc ∧ ∃ c, fs.fileAt i.loc = some c) ∧
      (items.map SourceItem.rel).Nodup := by
  unfold sourceItems at h
  split at h
  next => cases h
  next c hfile =>
    cases h
    refine ⟨?_, List.nodup_singleton _⟩
    intro i hi
    obtain rfl := List.mem_singleton.mp hi
    exact ⟨List.cons_ne_nil _ _, List.prefix_refl _, c, FileTree.fileAt_eq_some.mpr hfile⟩
  next hdir =>
    cases h
    constructor
    · intro i hi
      obtain ⟨rel, hrel, rfl⟩ := List.mem_map.mp hi
      obtain ⟨c, hc⟩ := FileTree.mem_regularFiles.mp hrel
      refine ⟨?_, List.prefix_append _ _, c, hc⟩
      rintro rfl
      rw [List.append_nil, FileTree.fileAt_eq_some, hdir] at hc
      cases hc
    · rw [List.map_map]
      exact (List.map_id _).symm ▸ fs.regularFiles_nodup _
  next => cases h

theorem sourceItems_perm {env : ProxyEnv} {fs₀ fs : FileSystem} {srcPath : Bytes}
    {items : List SourceItem} (hsame : ∀ p, env.resolve srcPath <+: p → fs.node p = fs₀.node p)
    (h : sourceItems env fs srcPath = .ok items) :
    ∃ items₀, sourceItems env fs₀ srcPath = .ok items₀ ∧ items.Perm items₀ := by
  have hroot := hsame _ (List.prefix_refl _)
  -- The trees may list their files in different orders.
  have hfiles : (fs.regularFiles (env.resolve srcPath)).Perm
      (fs₀.regularFiles (env.resolve srcPath)) := by
    apply (List.perm_ext_iff_of_nodup (fs.regularFiles_nodup _) (fs₀.regularFiles_nodup _)).mpr
    intro rel
    simp only [FileTree.mem_regularFiles, FileTree.fileAt_eq_some,
      hsame _ (List.prefix_append _ _)]
  unfold sourceItems at h ⊢
  rw [hroot] at h
  split at h
  next => cases h
  next =>
    cases h
    exact ⟨_, rfl, List.Perm.refl _⟩
  next =>
    cases h
    exact ⟨_, rfl, hfiles.map _⟩
  next => cases h

theorem storeOutput_spec {fs fs' : FileSystem} {p : Location Name} {output : Option Bytes}
    {result result' : Except Exn Unit} (h : storeOutput fs p output result = (result', fs')) :
    (fs' = fs ∨ ∃ c, fs.writeFile p c = some fs') ∧
      (result' = .ok () → result = .ok () ∧
        ∀ bytes, output = some bytes → ∃ c, c.bytes = bytes ∧ fs.writeFile p c = some fs') := by
  unfold storeOutput at h
  split at h
  next =>
    cases h
    refine ⟨.inl rfl, fun hok => ⟨hok, ?_⟩⟩
    intro _ houtput
    cases houtput
  next bytes =>
    split at h
    next hsize =>
      split at h
      next fs₁ hwrite =>
        cases h
        refine ⟨.inr ⟨_, hwrite⟩, fun hok => ⟨hok, ?_⟩⟩
        intro _ houtput
        cases houtput
        exact ⟨_, rfl, hwrite⟩
      next =>
        cases h
        refine ⟨.inl rfl, ?_⟩
        intro hok
        cases hok
    next =>
      cases h
      refine ⟨.inl rfl, ?_⟩
      intro hok
      cases hok

theorem inverts_of_gcmOf {gcm : GcmLibrary} {dataKey : Bytes} {cipher : GcmCrypto}
    (hgcm : gcm.Inverts) (h : gcmOf gcm dataKey = .ok cipher) : cipher.Inverts := by
  unfold gcmOf at h
  split at h
  · cases h
    exact hgcm.1
  · split at h
    · cases h
      exact hgcm.2
    · cases h

/-- A task that succeeds has written the encrypted file to its destination. -/
theorem encryptItem_eq_ok {env : ProxyEnv} {ivs : Nat → Blob kIvBytes} {destPath dataKey : Bytes}
    {i : SourceItem} {fs fs' : FileSystem}
    (h : encryptItem env ivs destPath dataKey i fs = (.ok (), fs')) :
    ∃ p c cipher, fs.fileAt i.loc = some p ∧ fs.writeFile (i.dest env destPath) c = some fs' ∧
      gcmOf env.gcm dataKey = .ok cipher ∧ 1 ≤ p.bytes.length ∧
      c.bytes = encryptedFile cipher dataKey ivs p.bytes := by
  unfold encryptItem at h
  split at h
  next => cases h
  next p hp =>
    split at h
    next s hrun =>
      obtain ⟨cipher, hcipher, hpos, houtput⟩ := encryptFile_eq_ok hrun
      obtain ⟨c, hbytes, hwrite⟩ := ((storeOutput_spec h).2 rfl).2 _ houtput
      exact ⟨p, c, cipher, hp, hwrite, hcipher, hpos, hbytes⟩
    next e s hrun => cases ((storeOutput_spec h).2 rfl).1

/-- A task changes its destination only; when it succeeds, the file there decrypts. -/
theorem encryptItem_spec {env : ProxyEnv} {ivs : Nat → Blob kIvBytes} {destPath dataKey : Bytes}
    {i : SourceItem} {fs fs' : FileSystem} {result : Except Exn Unit}
    (h : encryptItem env ivs destPath dataKey i fs = (result, fs')) :
    (fs' = fs ∨ ∃ c, fs.writeFile (i.dest env destPath) c = some fs') ∧
      (env.gcm.Inverts → result = .ok () → ∃ p c, fs.fileAt i.loc = some p ∧
        fs.writeFile (i.dest env destPath) c = some fs' ∧
        DecryptsTo env.gcm dataKey c.bytes p.bytes) := by
  constructor
  · unfold encryptItem at h
    split at h
    next =>
      cases h
      exact .inl rfl
    next p hp =>
      split at h
      next => exact (storeOutput_spec h).1
      next => exact (storeOutput_spec h).1
  · rintro hgcm rfl
    obtain ⟨p, c, cipher, hp, hwrite, hcipher, hpos, hbytes⟩ := encryptItem_eq_ok h
    refine ⟨p, c, hp, hwrite, ?_⟩
    intro srcPath destPath hpath
    rw [hbytes]
    exact decryptFile_encryptedFile ivs hpath hcipher (inverts_of_gcmOf hgcm hcipher) hpos p.size

/-! ## Which locations change -/

/-- Two locations of which neither lies under the other. -/
def Apart (a b : Location Name) : Prop := ¬ a <+: b ∧ ¬ b <+: a

theorem Apart.not_under_both {a b p : Location Name} (h : Apart a b) (ha : a <+: p) :
    ¬ b <+: p := by
  intro hb
  rcases List.prefix_or_prefix_of_prefix ha hb with hpre | hpre
  · exact h.1 hpre
  · exact h.2 hpre

/-- Between the two trees, only locations on the way to `root` or under it differ, and no file
    on the way. -/
def ChangedOnlyAt (root : Location Name) (fs fs' : FileSystem) : Prop :=
  ∀ p, fs'.node p = fs.node p ∨ root <+: p ∨ p <+: root ∧ fs'.fileAt p = fs.fileAt p

theorem ChangedOnlyAt.refl (root : Location Name) (fs : FileSystem) : ChangedOnlyAt root fs fs :=
  fun _ => .inl rfl

theorem ChangedOnlyAt.node_eq {root a p : Location Name} {fs fs' : FileSystem}
    (h : ChangedOnlyAt root fs fs') (hapart : Apart a root) (hp : a <+: p) :
    fs'.node p = fs.node p := by
  rcases h p with hsame | hunder | habove
  · exact hsame
  · exact absurd hunder (hapart.not_under_both hp)
  · exact absurd (hp.trans habove.1) hapart.1

theorem changedOnlyAt_writeFile {root dest : Location Name} {fs fs' : FileSystem}
    {c : FileContent} (hroot : root <+: dest) (h : fs.writeFile dest c = some fs') :
    ChangedOnlyAt root fs fs' := by
  intro p
  rw [FileTree.node_writeFile h]
  split
  next heq => exact .inr (.inl (heq ▸ hroot))
  next => exact .inl rfl

theorem changedOnlyAt_createDirectories {root dest p : Location Name} {fs fs' : FileSystem}
    (hroot : root <+: dest) (hp : p <+: dest) (h : fs.createDirectories p = some fs') :
    ChangedOnlyAt root fs fs' := by
  intro q
  have hfile : fs'.fileAt q = fs.fileAt q := FileTree.fileAt_createDirectories h
  rw [FileTree.node_createDirectories h]
  split
  next hq =>
    rcases List.prefix_or_prefix_of_prefix hroot (hq.trans hp) with hunder | habove
    · exact .inr (.inl hunder)
    · exact .inr (.inr ⟨habove, hfile⟩)
  next => exact .inl rfl

theorem dest_eq_staging {env : ProxyEnv} {q : PutResultDataRequest} {s3 : S3Config}
    (hs3 : q.s3Config = some s3) {destPath : Bytes}
    (hpath : q.destPath env.sha256 = .ok destPath) (i : SourceItem) :
    i.dest env destPath = env.staging q.srcPath ++ encLocation i.rel := by
  rw [PutResultDataRequest.destPath, hs3] at hpath
  cases hpath
  rfl

/-- Every step of a request for the object store keeps to its staging directory. -/
theorem step_changedOnlyAt {env : ProxyEnv} {q : PutResultDataRequest} {s3 : S3Config}
    (hs3 : q.s3Config = some s3) {fs fs' : FileSystem} {r r' : RequestState}
    (h : Step env q fs r fs' r') : ChangedOnlyAt (env.staging q.srcPath) fs fs' := by
  have hunder : ∀ {destPath}, q.destPath env.sha256 = .ok destPath →
      ∀ i : SourceItem, env.staging q.srcPath <+: i.dest env destPath := by
    intro destPath hpath i
    rw [dest_eq_staging hs3 hpath]
    exact List.prefix_append _ _
  cases h with
  | launch _ hpath hmake =>
    rw [makeParent] at hmake
    split at hmake
    · exact changedOnlyAt_createDirectories (hunder hpath _) (List.dropLast_prefix _) hmake
    · cases hmake
      exact .refl _ _
  | launchFault e _ hpath hp hfault =>
    rcases hfault with rfl | hmake
    · exact .refl _ _
    · exact changedOnlyAt_createDirectories (hunder hpath _) (hp.trans (List.dropLast_prefix _))
        hmake
  | complete _ hpath hrun =>
    rcases (encryptItem_spec hrun).1 with rfl | ⟨c, hwrite⟩
    · exact .refl _ _
    · exact changedOnlyAt_writeFile (hunder hpath _) hwrite
  | taskFault e _ hpath hfault =>
    rcases hfault with rfl | ⟨c, hwrite⟩
    · exact .refl _ _
    · exact changedOnlyAt_writeFile (hunder hpath _) hwrite
  | remove _ hremove =>
    intro p
    rw [FileTree.node_removeAll hremove]
    split
    next hp => exact .inr (.inl hp)
    next => exact .inl rfl
  | removeFault e _ hpart =>
    intro p
    rcases hpart p with hsame | ⟨hp, _⟩
    · exact .inl hsame
    · exact .inr (.inl hp)
  | _ => exact .refl _ _

/-! ## The staging directory fills up -/

def Phase.beforeListing : Phase → Bool
  | .received | .keyed _ | .failed _ => true
  | _ => false

section Staging

variable (env : ProxyEnv) (q : PutResultDataRequest) (fs₀ : FileSystem) (items : List SourceItem)

def SourceKept (fs : FileSystem) : Prop :=
  ∀ p, env.resolve q.srcPath <+: p → fs.node p = fs₀.node p

def Staged (dataKey : Bytes) (fs : FileSystem) (i : SourceItem) : Prop :=
  ∃ p c, fs₀.fileAt i.loc = some p ∧
    fs.fileAt (env.staging q.srcPath ++ encLocation i.rel) = some c ∧
    DecryptsTo env.gcm dataKey c.bytes p.bytes

/-- Every item waits for its task, is being encrypted, or is staged. -/
def Encrypting (dataKey : Bytes) (todo tasks : List SourceItem) (fs : FileSystem) : Prop :=
  (∀ i ∈ todo ++ tasks, i ∈ items) ∧
    ∀ i ∈ items, i ∈ todo ∨ i ∈ tasks ∨ Staged env q fs₀ dataKey fs i

def PhaseStaged (fs : FileSystem) : Phase → Prop
  | .encrypting dataKey todo tasks none => Encrypting env q fs₀ items dataKey todo tasks fs
  | .encrypted dataKey | .uploading dataKey _ => ∀ i ∈ items, Staged env q fs₀ dataKey fs i
  | _ => True

/-- What a request relies on while it runs: the source is still as it was, and what it
    encrypted is still there. -/
structure Tracked (fs : FileSystem) (r : RequestState) : Prop where
  source : SourceKept env q fs₀ fs
  found : r.phase.beforeListing = true ∨ ∃ items, sourceItems env fs₀ q.srcPath = .ok items
  staged : ∀ items, sourceItems env fs₀ q.srcPath = .ok items →
    PhaseStaged env q fs₀ items fs r.phase

variable {env q fs₀ items}

theorem SourceKept.fileAt_eq {fs : FileSystem} {p : Location Name} (h : SourceKept env q fs₀ fs)
    (hp : env.resolve q.srcPath <+: p) : fs.fileAt p = fs₀.fileAt p := by
  simp only [FileTree.fileAt, h p hp]

theorem SourceKept.step {s3 : S3Config} {fs fs' : FileSystem} {r r' : RequestState}
    (hs3 : q.s3Config = some s3) (hapart : Apart (env.resolve q.srcPath) (env.staging q.srcPath))
    (hstep : Step env q fs r fs' r') (h : SourceKept env q fs₀ fs) : SourceKept env q fs₀ fs' := by
  intro p hp
  rw [(step_changedOnlyAt hs3 hstep).node_eq hapart hp]
  exact h p hp

theorem Staged.frame {dataKey : Bytes} {fs fs' : FileSystem} {i : SourceItem}
    (hsame : ∀ p, env.staging q.srcPath <+: p → fs'.fileAt p = fs.fileAt p)
    (h : Staged env q fs₀ dataKey fs i) : Staged env q fs₀ dataKey fs' i := by
  obtain ⟨p, c, hp, hc, hdecrypts⟩ := h
  rw [← hsame _ (List.prefix_append _ _)] at hc
  exact ⟨p, c, hp, hc, hdecrypts⟩

theorem fileAt_makeParent {destPath : Bytes} {i : SourceItem} {fs fs' : FileSystem}
    {p : Location Name} (h : makeParent env destPath i fs = some fs') :
    fs'.fileAt p = fs.fileAt p := by
  rw [makeParent] at h
  split at h
  · exact FileTree.fileAt_createDirectories h
  · cases h
    rfl

theorem Encrypting.launch {dataKey destPath : Bytes} {i : SourceItem}
    {todo tasks : List SourceItem} {fs fs' : FileSystem}
    (hmake : makeParent env destPath i fs = some fs')
    (h : Encrypting env q fs₀ items dataKey (i :: todo) tasks fs) :
    Encrypting env q fs₀ items dataKey todo (tasks ++ [i]) fs' := by
  constructor
  · intro j hj
    apply h.1
    simp only [List.mem_append, List.mem_cons, List.not_mem_nil, or_false] at hj ⊢
    rcases hj with hj | hj | rfl
    · exact .inl (.inr hj)
    · exact .inr hj
    · exact .inl (.inl rfl)
  · intro j hj
    rcases h.2 j hj with hjtodo | hjtask | hstaged
    · rcases List.mem_cons.mp hjtodo with rfl | hjtodo
      · exact .inr (.inl (List.mem_append_right _ List.mem_cons_self))
      · exact .inl hjtodo
    · exact .inr (.inl (List.mem_append_left _ hjtask))
    · exact .inr (.inr (hstaged.frame fun p _ => fileAt_makeParent hmake))

theorem Encrypting.complete {s3 : S3Config} {dataKey destPath : Bytes} {i : SourceItem}
    {todo before after : List SourceItem} {ivs : Nat → Blob kIvBytes} {fs fs' : FileSystem}
    (hs3 : q.s3Config = some s3) (hgcm : env.gcm.Inverts)
    (hitems : sourceItems env fs₀ q.srcPath = .ok items) (hsource : SourceKept env q fs₀ fs)
    (hpath : q.destPath env.sha256 = .ok destPath)
    (hrun : encryptItem env ivs destPath dataKey i fs = (.ok (), fs'))
    (h : Encrypting env q fs₀ items dataKey todo (before ++ i :: after) fs) :
    Encrypting env q fs₀ items dataKey todo (before ++ after) fs' := by
  obtain ⟨hspec, hnodup⟩ := sourceItems_spec hitems
  have hi : i ∈ items := h.1 i (by simp)
  obtain ⟨p, c, hp, hwrite, hdecrypts⟩ := (encryptItem_spec hrun).2 hgcm rfl
  rw [dest_eq_staging hs3 hpath] at hwrite
  rw [hsource.fileAt_eq (hspec i hi).2.1] at hp
  have hstaged : Staged env q fs₀ dataKey fs' i := by
    refine ⟨p, c, hp, ?_, hdecrypts⟩
    rw [FileTree.fileAt_writeFile hwrite, if_pos rfl]
  constructor
  · intro j hj
    apply h.1
    simp only [List.mem_append, List.mem_cons] at hj ⊢
    rcases hj with hj | hj | hj
    · exact .inl hj
    · exact .inr (.inl hj)
    · exact .inr (.inr (.inr hj))
  · intro j hj
    by_cases hji : j = i
    · exact .inr (.inr (hji ▸ hstaged))
    rcases h.2 j hj with hjtodo | hjtask | hjstaged
    · exact .inl hjtodo
    · refine .inr (.inl ?_)
      rcases List.mem_append.mp hjtask with hjtask | hjtask
      · exact List.mem_append_left _ hjtask
      · rcases List.mem_cons.mp hjtask with heq | hjtask
        · exact absurd heq hji
        · exact List.mem_append_right _ hjtask
    · -- Names of encrypted files are as different as those of the source files.
      obtain ⟨p', c', hp', hc', hdecrypts'⟩ := hjstaged
      refine .inr (.inr ⟨p', c', hp', ?_, hdecrypts'⟩)
      rw [FileTree.fileAt_writeFile hwrite, if_neg, hc']
      intro heq
      have hrel := encLocation_inj (List.append_cancel_left heq)
      exact hji (List.inj_on_of_nodup_map hnodup hj hi hrel)

/-- A request that gets past the listing of its source found a file or a directory there. -/
theorem step_found {fs fs' : FileSystem} {r r' : RequestState} (hstep : Step env q fs r fs' r')
    (hsource : SourceKept env q fs₀ fs)
    (h : r.phase.beforeListing = true ∨ ∃ items, sourceItems env fs₀ q.srcPath = .ok items) :
    r'.phase.beforeListing = true ∨ ∃ items, sourceItems env fs₀ q.srcPath = .ok items := by
  rcases h with hphase | hfound
  · -- Before the listing only its own step leads on; all others fail or choose the key.
    cases hstep with
    | randomKey | decodeKey | encryptFailed | removeFault | throws | fault => exact .inl rfl
    | startEncrypt _ _ hfound _ =>
      obtain ⟨items₀, hitems, _⟩ := sourceItems_perm hsource hfound
      exact .inr ⟨items₀, hitems⟩
    | launch h | launchFault _ h | complete h | taskFault _ h | encryptDone h | startUpload h
    | uploadFile h | upload h | uploadSkip h | uploadDone h | remove h | finish h
    | register h =>
      rw [h] at hphase
      cases hphase
  · exact .inr hfound

theorem step_staged {s3 : S3Config} (hs3 : q.s3Config = some s3) (hgcm : env.gcm.Inverts)
    (hitems : sourceItems env fs₀ q.srcPath = .ok items)
    {fs fs' : FileSystem} {r r' : RequestState} (hstep : Step env q fs r fs' r')
    (hsource : SourceKept env q fs₀ fs) (h : PhaseStaged env q fs₀ items fs r.phase) :
    PhaseStaged env q fs₀ items fs' r'.phase := by
  cases hstep with
  | startEncrypt hphase _ hfound horder =>
    -- The listing happens now, but the source is still that of the start.
    obtain ⟨_, hitems', hperm⟩ := sourceItems_perm hsource hfound
    cases hitems.symm.trans hitems'
    have hsame := horder.trans hperm
    refine ⟨?_, fun i hi => .inl (hsame.mem_iff.mpr hi)⟩
    intro i hi
    rw [List.append_nil] at hi
    exact hsame.mem_iff.mp hi
  | @launch dataKey i todo tasks error _ _ hphase _ hmake =>
    rw [hphase] at h
    cases error with
    | some e => trivial
    | none => exact h.launch hmake
  | @complete dataKey todo before i after error _ _ result _ hphase hpath hrun =>
    rw [hphase] at h
    cases error with
    | some e => cases result <;> trivial
    | none =>
      cases result with
      | error e => trivial
      | ok _ => exact h.complete hs3 hgcm hitems hsource hpath hrun
  | @taskFault _ _ _ _ _ error => cases error <;> trivial
  | encryptDone hphase =>
    -- Nothing waits and no task runs, so every item is staged.
    rw [hphase] at h
    rw [hs3]
    intro i hi
    rcases h.2 i hi with htodo | htask | hstaged
    · exact absurd htodo List.not_mem_nil
    · exact absurd htask List.not_mem_nil
    · exact hstaged
  | startUpload hphase | upload hphase | uploadSkip hphase =>
    rw [hphase] at h
    exact h
  | _ => trivial

theorem Tracked.init (env : ProxyEnv) (q : PutResultDataRequest) (fs₀ : FileSystem) :
    Tracked env q fs₀ fs₀ {} :=
  ⟨fun _ _ => rfl, .inl rfl, fun _ _ => trivial⟩

theorem Tracked.step {s3 : S3Config} (hs3 : q.s3Config = some s3) (hgcm : env.gcm.Inverts)
    (hapart : Apart (env.resolve q.srcPath) (env.staging q.srcPath))
    {fs fs' : FileSystem} {r r' : RequestState} (hstep : Step env q fs r fs' r')
    (h : Tracked env q fs₀ fs r) : Tracked env q fs₀ fs' r' where
  source := h.source.step hs3 hapart hstep
  found := step_found hstep h.source h.found
  staged items hitems := step_staged hs3 hgcm hitems hstep h.source (h.staged items hitems)

theorem Tracked.found_of_succeeded {fs : FileSystem} {r : RequestState} {dataKey : Bytes}
    (h : Tracked env q fs₀ fs r) (hphase : r.phase = .succeeded dataKey) :
    ∃ items, sourceItems env fs₀ q.srcPath = .ok items := by
  rcases h.found with hearly | hfound
  · rw [hphase] at hearly
    cases hearly
  · exact hfound

end Staging

/-! ## A request for a single file -/

section Single

variable {env : ProxyEnv} {q : PutResultDataRequest} {s3 : S3Config} {fs fs₁ fs₂ : FileSystem}

theorem runs_randomKey (dataKey : Blob kKeyBytes) (hkey : q.dataKeyB64 = []) :
    Runs env q fs {} fs { phase := .keyed dataKey.bytes } :=
  (Runs.refl env q fs {}).step (.randomKey dataKey rfl hkey)

theorem runs_encrypt_one {i : SourceItem} {ivs : Nat → Blob kIvBytes} {dataKey : Bytes}
    (hs3 : q.s3Config = some s3) (hitems : sourceItems env fs q.srcPath = .ok [i])
    (hmake : makeParent env (genTempDir env.sha256 q.srcPath) i fs = some fs₁)
    (hrun : encryptItem env ivs (genTempDir env.sha256 q.srcPath) dataKey i fs₁ = (.ok (), fs₂)) :
    Runs env q fs { phase := .keyed dataKey } fs₂ { phase := .encrypted dataKey } := by
  have hpath : q.destPath env.sha256 = .ok (genTempDir env.sha256 q.srcPath) := by
    rw [PutResultDataRequest.destPath, hs3]
  have hstarted := (Runs.refl env q fs { phase := .keyed dataKey }).step
    (.startEncrypt rfl hpath hitems (List.Perm.refl _))
  have hlaunched := hstarted.step (.launch rfl hpath hmake)
  have hcompleted := hlaunched.step (.complete rfl hpath hrun)
  have hdone := hcompleted.step (.encryptDone rfl)
  rwa [hs3] at hdone

theorem runs_upload_one {dataKey : Bytes} {rel : Location Name} {c : FileContent}
    (hs3 : q.s3Config = some s3)
    (hdir : fs.isDirectory (env.staging q.srcPath) = true)
    (hfiles : fs.regularFiles (env.staging q.srcPath) = [rel])
    (hfile : fs.fileAt (env.staging q.srcPath ++ rel) = some c)
    (hremove : fs.removeAll (env.staging q.srcPath) = some fs₁) :
    Runs env q fs { phase := .encrypted dataKey } fs₁
      { phase := .stored dataKey, uploads := [uploadOf s3 (relText rel) c] } := by
  have hstarted : Runs env q fs { phase := .encrypted dataKey } fs
      { phase := .uploading dataKey [rel] } :=
    (Runs.refl env q fs _).step (.startUpload rfl hdir (List.Perm.of_eq hfiles.symm))
  have huploaded := hstarted.step (.upload rfl hs3 hfile)
  have hdone := huploaded.step (.uploadDone rfl)
  exact hdone.step (.remove rfl hremove)

end Single

end TrustFlow.Proxy
