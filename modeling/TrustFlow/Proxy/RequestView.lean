import TrustFlow.Proxy.GetInputData

/-! # What a request sees of the file system

A step of a `PutResultData` or `GetInputData` request depends on nothing but what is
at and below the directories of the request, and changes nothing outside those it
writes to.  `step_seen` and `inputStep_seen` say that the request can take the same
step on any tree that looks the same there; `step_keepsOutside` and
`inputStep_keepsOutside` say what the step leaves alone. -/

namespace TrustFlow.Proxy

open FileTree

/-! ## What the parts of a request see -/

/-- The file lies in one of the directories, and its path relative to the source is not empty. -/
structure SourceItem.Within (roots : List (Location Name)) (i : SourceItem) : Prop where
  rel : i.rel ≠ []
  loc : ∃ root ∈ roots, root <+: i.loc

section Seen

variable {env : ProxyEnv} {roots : List (Location Name)} {root p : Location Name}
  {t t' u : FileSystem} {i : SourceItem} {srcPath destPath dataKey : Bytes}

theorem SourceItem.Within.fileAt_eq (hi : i.Within roots) (h : AgreeOn roots t u) :
    t.fileAt i.loc = u.fileAt i.loc := by
  obtain ⟨root, hroot, hunder⟩ := hi.loc
  exact h.fileAt_eq hroot hunder

theorem prefix_dropLast_append {rel : Location Name} (h : rel ≠ []) :
    root <+: (root ++ rel).dropLast := by
  rw [List.dropLast_append_of_ne_nil h]
  exact List.prefix_append _ _

theorem sourceItems_within {items : List SourceItem} (hroot : env.resolve srcPath ∈ roots)
    (h : sourceItems env t srcPath = .ok items) : ∀ i ∈ items, i.Within roots := by
  intro i hi
  obtain ⟨hrel, hunder, _⟩ := (sourceItems_spec h).1 i hi
  exact ⟨hrel, _, hroot, hunder⟩

theorem sourceItems_ok_seen {items : List SourceItem} (h : AgreeOn roots t u)
    (hroot : env.resolve srcPath ∈ roots) (hitems : sourceItems env t srcPath = .ok items) :
    ∃ items', sourceItems env u srcPath = .ok items' ∧ items.Perm items' :=
  sourceItems_perm (fun _ hp => h.node_eq hroot hp) hitems

theorem sourceItems_error_seen {e : Exn} (h : AgreeOn roots t u)
    (hroot : env.resolve srcPath ∈ roots) (herror : sourceItems env t srcPath = .error e) :
    sourceItems env u srcPath = .error e := by
  simp only [sourceItems, h.node_eq hroot List.prefix_rfl] at herror ⊢
  split
  next hnode =>
    rw [hnode] at herror
    exact herror
  next hnode =>
    rw [hnode] at herror
    cases herror
  next hnode =>
    rw [hnode] at herror
    cases herror
  next hnode =>
    rw [hnode] at herror
    exact herror

theorem storeOutput_seen {output : Option Bytes} {result result' : Except Exn Unit}
    (h : AgreeOn roots t u) (hroot : root ∈ roots) (hp : root <+: p.dropLast)
    (hstore : storeOutput t p output result = (result', t')) :
    ∃ u', storeOutput u p output result = (result', u') ∧ AgreeOn roots t' u' := by
  simp only [storeOutput] at hstore ⊢
  split at hstore
  · cases hstore
    exact ⟨u, rfl, h⟩
  next bytes =>
    split at hstore
    next hsize =>
      have hwrite := h.writeFile hroot hp ⟨bytes, hsize⟩
      rw [dif_pos hsize]
      split at hstore
      next t₁ ht =>
        cases hstore
        obtain ⟨u', hu, hagree⟩ := exists_of_rel_some hwrite ht
        exact ⟨u', by rw [hu], hagree⟩
      next ht =>
        cases hstore
        exact ⟨u, by rw [eq_none_of_rel hwrite ht], h⟩
    next hsize =>
      cases hstore
      exact ⟨u, by rw [dif_neg hsize], h⟩

theorem encryptItem_seen {ivs : Nat → Blob kIvBytes} {result : Except Exn Unit}
    (h : AgreeOn roots t u) (hi : i.Within roots) (hdest : env.resolve destPath ∈ roots)
    (hrun : encryptItem env ivs destPath dataKey i t = (result, t')) :
    ∃ u', encryptItem env ivs destPath dataKey i u = (result, u') ∧ AgreeOn roots t' u' := by
  have hunder : env.resolve destPath <+: (i.dest env destPath).dropLast :=
    prefix_dropLast_append (encLocation_ne_nil hi.rel)
  simp only [encryptItem, ← hi.fileAt_eq h] at hrun ⊢
  split at hrun
  · cases hrun
    exact ⟨u, rfl, h⟩
  · split at hrun
    · exact storeOutput_seen h hdest hunder hrun
    · exact storeOutput_seen h hdest hunder hrun

theorem decLocation_ne_nil {rel : Location Name} (h : rel ≠ []) : decLocation rel ≠ [] := by
  obtain ⟨dir, n, rfl⟩ := (List.eq_nil_or_concat' rel).resolve_left h
  rw [decLocation_concat]
  simp

theorem decryptItem_seen {result : Except Exn Unit} (h : AgreeOn roots t u) (hi : i.Within roots)
    (hdest : env.resolve destPath ∈ roots)
    (hrun : decryptItem env destPath dataKey i t = (result, t')) :
    ∃ u', decryptItem env destPath dataKey i u = (result, u') ∧ AgreeOn roots t' u' := by
  have hunder : env.resolve destPath <+: (i.decDest env destPath).dropLast :=
    prefix_dropLast_append (decLocation_ne_nil hi.rel)
  simp only [decryptItem, ← hi.fileAt_eq h] at hrun ⊢
  split at hrun
  · cases hrun
    exact ⟨u, rfl, h⟩
  · split at hrun
    next hdots =>
      cases hrun
      exact ⟨u, by rw [if_pos hdots], h⟩
    next hdots =>
      rw [if_neg hdots]
      split at hrun
      · exact storeOutput_seen h hdest hunder hrun
      · exact storeOutput_seen h hdest hunder hrun

theorem copyItem_seen {result : Except Exn Unit} (h : AgreeOn roots t u) (hi : i.Within roots)
    (hdest : env.resolve destPath ∈ roots) (hrun : copyItem env destPath i t = (result, t')) :
    ∃ u', copyItem env destPath i u = (result, u') ∧ AgreeOn roots t' u' := by
  have hsame : copyTarget t (env.resolve destPath ++ i.rel) i.name =
      copyTarget u (env.resolve destPath ++ i.rel) i.name := by
    simp only [copyTarget, h.isDirectory_eq hdest (List.prefix_append _ _)]
  have hunder : env.resolve destPath <+:
      (copyTarget u (env.resolve destPath ++ i.rel) i.name).dropLast := by
    simp only [copyTarget]
    split
    · rw [List.append_assoc]
      exact prefix_dropLast_append (by simp)
    · exact prefix_dropLast_append hi.rel
  simp only [copyItem, hsame, ← hi.fileAt_eq h] at hrun ⊢
  split at hrun
  · cases hrun
    exact ⟨u, rfl, h⟩
  next c _ =>
    split at hrun
    next hself =>
      cases hrun
      exact ⟨u, by rw [if_pos hself], h⟩
    next hself =>
      have hwrite := h.writeFile hdest hunder c
      rw [if_neg hself]
      split at hrun
      next ht =>
        cases hrun
        exact ⟨u, by rw [eq_none_of_rel hwrite ht], h⟩
      next t₁ ht =>
        cases hrun
        obtain ⟨u', hu, hagree⟩ := exists_of_rel_some hwrite ht
        exact ⟨u', by rw [hu], hagree⟩

/-- A round of the loop of `DecryptToDir`, for a file that it copies or starts a task for. -/
theorem decryptPool_body_seen {r : Except Exn Bool} (h : AgreeOn roots t u) (hi : i.Within roots)
    (hdest : env.resolve destPath ∈ roots)
    (hbody : (decryptPool env destPath dataKey).body i t = (r, t')) :
    ∃ u', (decryptPool env destPath dataKey).body i u = (r, u') ∧ AgreeOn roots t' u' := by
  have hparent := h.ensureParent (.under hdest (List.prefix_append (env.resolve destPath) i.rel))
  simp only [decryptPool] at hbody ⊢
  split at hbody
  next ht =>
    cases hbody
    exact ⟨u, by rw [eq_none_of_rel hparent ht], h⟩
  next t₁ ht =>
    obtain ⟨u₁, hu, hagree⟩ := exists_of_rel_some hparent ht
    rw [hu]
    simp only
    split at hbody
    next henc =>
      cases hbody
      exact ⟨u₁, by rw [if_pos henc], hagree⟩
    next henc =>
      rw [if_neg henc]
      split at hbody
      next hcopy =>
        cases hbody
        obtain ⟨u₂, hcopy', hagree'⟩ := copyItem_seen hagree hi hdest hcopy
        exact ⟨u₂, by rw [hcopy'], hagree'⟩
      next hcopy =>
        cases hbody
        obtain ⟨u₂, hcopy', hagree'⟩ := copyItem_seen hagree hi hdest hcopy
        exact ⟨u₂, by rw [hcopy'], hagree'⟩

theorem partlyRemoved_seen (h : AgreeOn roots t u) (hroot : root ∈ roots)
    (hremoved : PartlyRemoved root t t') :
    ∃ u', PartlyRemoved root u u' ∧ AgreeOn roots t' u' := by
  have hsome : t'.node root ≠ none → u.node root ≠ none := by
    intro hne
    rw [← h.node_eq hroot List.prefix_rfl]
    rcases hremoved root with hsame | ⟨_, hnone⟩
    · rwa [hsame] at hne
    · exact absurd hnone hne
  refine ⟨graft root t' u hsome, fun p => ?_, fun p hp => ?_⟩
  · simp only [graft]
    split
    next hunder =>
      rw [← h.node_eq hroot hunder]
      exact hremoved p
    next => exact .inl rfl
  · simp only [graft]
    split
    next => exact .inl rfl
    next hunder =>
      have hsame := (hremoved p).resolve_right fun hgone => hunder hgone.1
      rw [hsame]
      exact h p hp

end Seen

/-! ## A request for a result -/

section Put

variable (env : ProxyEnv) (q : PutResultDataRequest)

/-- The directories that a request for a result writes to. -/
def putWrites : List (Location Name) :=
  match q.destPath env.sha256 with
  | .ok destPath => [env.resolve destPath]
  | .error _ => []

def putRoots : List (Location Name) := env.resolve q.srcPath :: putWrites env q

/-- The files of a request lie in its directories, and only a request with an object store goes on
    to upload. -/
def PhaseWithin : Phase → Prop
  | .encrypting _ todo tasks _ => ∀ i ∈ todo ++ tasks, i.Within (putRoots env q)
  | .encrypted _ | .uploading _ _ | .uploaded _ => q.s3Config.isSome = true
  | _ => True

variable {env q} {t t' u : FileSystem} {r r' : RequestState}

theorem mem_putWrites {destPath : Bytes} (h : q.destPath env.sha256 = .ok destPath) :
    env.resolve destPath ∈ putWrites env q := by
  simp [putWrites, h]

theorem staging_mem_putWrites (h : q.s3Config.isSome = true) :
    env.staging q.srcPath ∈ putWrites env q := by
  obtain ⟨s3, hs3⟩ := Option.isSome_iff_exists.mp h
  exact mem_putWrites (by simp [PutResultDataRequest.destPath, hs3])

theorem mem_putRoots {destPath : Bytes} (h : q.destPath env.sha256 = .ok destPath) :
    env.resolve destPath ∈ putRoots env q :=
  List.mem_cons_of_mem _ (mem_putWrites h)

theorem staging_mem_putRoots (h : q.s3Config.isSome = true) :
    env.staging q.srcPath ∈ putRoots env q :=
  List.mem_cons_of_mem _ (staging_mem_putWrites h)

theorem PhaseWithin.of_mem {dataKey : Bytes} {todo tasks todo' tasks' : List SourceItem}
    {error error' : Option Exn} (h : PhaseWithin env q (.encrypting dataKey todo tasks error))
    (hsub : ∀ i ∈ todo' ++ tasks', i ∈ todo ++ tasks) :
    PhaseWithin env q (.encrypting dataKey todo' tasks' error') :=
  fun i hi => h i (hsub i hi)

theorem step_within (hstep : Step env q t r t' r') (h : PhaseWithin env q r.phase) :
    PhaseWithin env q r'.phase := by
  cases hstep with
  | startEncrypt _ _ hitems horder =>
    intro i hi
    rw [List.append_nil] at hi
    exact sourceItems_within List.mem_cons_self hitems i (horder.mem_iff.mp hi)
  | launch hphase =>
    rw [hphase] at h
    refine h.of_mem fun i hi => ?_
    simp only [List.mem_append, List.mem_cons, List.not_mem_nil] at hi ⊢
    tauto
  | launchFault e hphase =>
    rw [hphase] at h
    exact h.of_mem fun i hi => List.mem_append_right _ hi
  | complete hphase =>
    rw [hphase] at h
    refine h.of_mem fun i hi => ?_
    simp only [List.mem_append, List.mem_cons] at hi ⊢
    tauto
  | taskFault e hphase =>
    rw [hphase] at h
    refine h.of_mem fun i hi => ?_
    simp only [List.mem_append, List.mem_cons] at hi ⊢
    tauto
  | encryptDone =>
    simp only
    split
    next hs3 => exact hs3
    next => trivial
  | startUpload hphase | uploadFile hphase | upload hphase | uploadSkip hphase
  | uploadDone hphase =>
    rw [hphase] at h
    exact h
  | _ => trivial

theorem thrown_seen {e : Exn} (h : AgreeOn (putRoots env q) t u)
    (hwithin : PhaseWithin env q r.phase) (hthrown : thrown env q t r.phase = some e) :
    thrown env q u r.phase = some e := by
  have hsrc : env.resolve q.srcPath ∈ putRoots env q := List.mem_cons_self
  cases hphase : r.phase with
  | keyed dataKey =>
    rw [hphase] at hthrown
    simp only [thrown] at hthrown ⊢
    split at hthrown
    next hpath => rw [hpath]; exact hthrown
    next hpath hitems =>
      rw [hpath, sourceItems_error_seen h hsrc hitems]
      exact hthrown
    next => cases hthrown
  | encrypted dataKey =>
    rw [hphase] at hthrown hwithin
    simp only [thrown, h.node_eq (staging_mem_putRoots hwithin) List.prefix_rfl] at hthrown
    exact hthrown
  | _ =>
    rw [hphase] at hthrown
    exact hthrown

/-- The request can take the same step on a tree that looks the same in its directories. -/
theorem step_seen (hstep : Step env q t r t' r') (hwithin : PhaseWithin env q r.phase)
    (h : AgreeOn (putRoots env q) t u) :
    ∃ u', Step env q u r u' r' ∧ AgreeOn (putRoots env q) t' u' := by
  have hsrc : env.resolve q.srcPath ∈ putRoots env q := List.mem_cons_self
  cases hstep with
  | randomKey dataKey hphase hkey => exact ⟨u, .randomKey dataKey hphase hkey, h⟩
  | decodeKey hphase hkey hdecode => exact ⟨u, .decodeKey hphase hkey hdecode, h⟩
  | startEncrypt hphase hpath hitems horder =>
    obtain ⟨items', hitems', hperm⟩ := sourceItems_ok_seen h hsrc hitems
    exact ⟨u, .startEncrypt hphase hpath hitems' (horder.trans hperm), h⟩
  | launch hphase hpath hmake =>
    obtain ⟨u', hu, hagree⟩ := exists_of_rel_some
      (h.ensureParent (.under (mem_putRoots hpath) (List.prefix_append _ _))) hmake
    exact ⟨u', .launch hphase hpath hu, hagree⟩
  | launchFault e hphase hpath hp hfault =>
    rcases hfault with rfl | hmake
    · exact ⟨u, .launchFault e hphase hpath hp (.inl rfl), h⟩
    · have haround := (Around.under (mem_putRoots hpath) (List.prefix_append _ _)).above
        (hp.trans (List.dropLast_prefix _))
      obtain ⟨u', hu, hagree⟩ := exists_of_rel_some (h.createDirectories haround) hmake
      exact ⟨u', .launchFault e hphase hpath hp (.inr hu), hagree⟩
  | complete hphase hpath hrun =>
    rw [hphase] at hwithin
    obtain ⟨u', hu, hagree⟩ := encryptItem_seen h (hwithin _ (by simp)) (mem_putRoots hpath) hrun
    exact ⟨u', .complete hphase hpath hu, hagree⟩
  | taskFault e hphase hpath hfault =>
    rcases hfault with rfl | ⟨c, hwrite⟩
    · exact ⟨u, .taskFault e hphase hpath (.inl rfl), h⟩
    · rw [hphase] at hwithin
      obtain ⟨u', hu, hagree⟩ := exists_of_rel_some (h.writeFile (mem_putRoots hpath)
        (prefix_dropLast_append (encLocation_ne_nil (hwithin _ (by simp)).rel)) c) hwrite
      exact ⟨u', .taskFault e hphase hpath (.inr ⟨c, hu⟩), hagree⟩
  | encryptFailed hphase => exact ⟨u, .encryptFailed hphase, h⟩
  | encryptDone hphase => exact ⟨u, .encryptDone hphase, h⟩
  | startUpload hphase hdir horder =>
    rw [hphase] at hwithin
    rw [h.isDirectory_eq (staging_mem_putRoots hwithin) List.prefix_rfl] at hdir
    have hperm := h.regularFiles_perm (staging_mem_putRoots hwithin) List.prefix_rfl
    exact ⟨u, .startUpload hphase hdir (horder.trans hperm), h⟩
  | uploadFile hphase hs3 hfile =>
    rw [hphase] at hwithin
    rw [h.fileAt_eq (staging_mem_putRoots hwithin) List.prefix_rfl] at hfile
    exact ⟨u, .uploadFile hphase hs3 hfile, h⟩
  | upload hphase hs3 hfile =>
    rw [hphase] at hwithin
    rw [h.fileAt_eq (staging_mem_putRoots hwithin) (List.prefix_append _ _)] at hfile
    exact ⟨u, .upload hphase hs3 hfile, h⟩
  | uploadSkip hphase hnone =>
    rw [hphase] at hwithin
    rw [h.fileAt_eq (staging_mem_putRoots hwithin) (List.prefix_append _ _)] at hnone
    exact ⟨u, .uploadSkip hphase hnone, h⟩
  | uploadDone hphase => exact ⟨u, .uploadDone hphase, h⟩
  | remove hphase hremove =>
    obtain ⟨u', hu, hagree⟩ := exists_of_rel_some (h.removeAll _) hremove
    exact ⟨u', .remove hphase hu, hagree⟩
  | removeFault e hphase hremoved =>
    rw [hphase] at hwithin
    obtain ⟨u', hu, hagree⟩ := partlyRemoved_seen h (staging_mem_putRoots hwithin) hremoved
    exact ⟨u', .removeFault e hphase hu, hagree⟩
  | finish hphase huri => exact ⟨u, .finish hphase huri, h⟩
  | register hphase huri hcheck => exact ⟨u, .register hphase huri hcheck, h⟩
  | throws hthrown => exact ⟨u, .throws (thrown_seen h hwithin hthrown), h⟩
  | fault e hphase => exact ⟨u, .fault e hphase, h⟩

theorem step_keepsOutside (hstep : Step env q t r t' r') (hwithin : PhaseWithin env q r.phase) :
    t.KeepsOutside (putWrites env q) t' := by
  have hitem : ∀ (destPath : Bytes) (i : SourceItem),
      env.resolve destPath <+: i.dest env destPath :=
    fun destPath i => List.prefix_append _ _
  cases hstep with
  | launch hphase hpath hmake =>
    exact keepsOutside_ensureParent (mem_putWrites hpath) (hitem _ _) hmake
  | launchFault e hphase hpath hp hfault =>
    rcases hfault with rfl | hmake
    · exact .refl _ _
    · have hp' := hp.trans (List.dropLast_prefix _)
      exact keepsOutside_createDirectories (mem_putWrites hpath)
        (List.prefix_or_prefix_of_prefix (hitem _ _) hp') hmake
  | complete hphase hpath hrun =>
    rcases (encryptItem_spec hrun).1 with rfl | ⟨c, hwrite⟩
    · exact .refl _ _
    · exact keepsOutside_writeFile (mem_putWrites hpath) (hitem _ _) hwrite
  | taskFault e hphase hpath hfault =>
    rcases hfault with rfl | ⟨c, hwrite⟩
    · exact .refl _ _
    · exact keepsOutside_writeFile (mem_putWrites hpath) (hitem _ _) hwrite
  | remove hphase hremove =>
    rw [hphase] at hwithin
    exact keepsOutside_removeAll (staging_mem_putWrites hwithin) hremove
  | removeFault e hphase hremoved =>
    rw [hphase] at hwithin
    intro p hp
    exact .inl ((hremoved p).resolve_right fun hgone =>
      hp _ (staging_mem_putWrites hwithin) hgone.1)
  | _ => exact .refl _ _

end Put

/-! ## A request for input data -/

section Get

variable (env : InputEnv) (q : GetInputDataRequest)

/-- The directory that a request for input data reads, beside those that it writes to. -/
def getReads : List (Location Name) :=
  match q.s3Config, q.localFsConfig with
  | none, some path => [env.resolve path]
  | _, _ => []

def getRoots : List (Location Name) := getReads env q ++ inputRoots env q

/-- The files of a request lie in its directories, and it downloads what it has listed. -/
def InputWithin : InputPhase → Prop
  | .called _ srcPath => env.resolve srcPath ∈ getRoots env q
  | .decrypting _ p => ∀ i ∈ p.todo ++ p.tasks, i.Within (getRoots env q)
  | phase => PhaseListed env q phase

variable {env q} {t t' u : FileSystem} {phase phase' : InputPhase}

theorem dest_mem_getRoots : env.resolve q.destPath ∈ getRoots env q := by
  simp [getRoots, inputRoots]

theorem staging_mem_getRoots : env.staging q.destPath ∈ getRoots env q := by
  simp [getRoots, inputRoots]

theorem InputWithin.listed (h : InputWithin env q phase) : PhaseListed env q phase := by
  cases phase with
  | called | decrypting => trivial
  | _ => exact h

theorem removeStaging_phase (h : InputWithin env q phase) :
    InputWithin env q (removeStaging env q t phase).2 := by
  unfold removeStaging
  split
  · exact h
  · trivial

theorem inputNext_decrypting {dataKey : Bytes} {p : PoolState SourceItem Exn}
    {a : FileSystem × InputPhase} (h : inputNext env q t (.decrypting dataKey p) = some a) :
    p = ⟨[], [], p.error⟩ ∧ a = (t, afterDecrypt q p.error) := by
  obtain ⟨todo, tasks, error⟩ := p
  cases todo with
  | cons i todo => cases h
  | nil =>
    cases tasks with
    | cons i tasks => cases h
    | nil => exact ⟨rfl, (Option.some.inj h).symm⟩

theorem inputNext_within {a : FileSystem × InputPhase} (hnext : inputNext env q t phase = some a)
    (h : InputWithin env q phase) : InputWithin env q a.2 := by
  cases phase with
  | received =>
    simp only [inputNext] at hnext
    split at hnext <;> cases hnext <;> trivial
  | keyed dataKey =>
    simp only [inputNext] at hnext
    split at hnext
    next s3 hs3 =>
      cases hnext
      exact removeStaging_phase hs3
    next path hs3 hpath =>
      cases hnext
      simp [InputWithin, getRoots, getReads, hs3, hpath]
    · cases hnext
      trivial
  | cleared dataKey s3 =>
    simp only [inputNext] at hnext
    split at hnext
    · cases hnext
      trivial
    · split at hnext
      · cases hnext
        exact ⟨h, fun object hobject => List.mem_of_mem_take hobject⟩
      · cases hnext
        trivial
  | downloading dataKey s3 todo =>
    cases todo with
    | nil =>
      cases hnext
      exact staging_mem_getRoots
    | cons object todo =>
      simp only [inputNext] at hnext
      split at hnext
      · cases hnext
        exact ⟨h.1, fun o ho => h.2 o (List.mem_cons_of_mem _ ho)⟩
      · cases hnext
        trivial
  | called dataKey srcPath =>
    simp only [inputNext] at hnext
    split at hnext
    · cases hnext
      trivial
    · cases hnext
  | decrypting dataKey p =>
    obtain ⟨_, rfl⟩ := inputNext_decrypting hnext
    cases p.error with
    | some e => trivial
    | none =>
      simp only [afterDecrypt]
      split <;> trivial
  | decrypted =>
    cases hnext
    exact removeStaging_phase trivial
  | finished error => cases hnext

theorem inputStep_within {a b : FileSystem × InputPhase} (hstep : InputStep env q a b)
    (h : InputWithin env q a.2) : InputWithin env q b.2 := by
  cases hstep with
  | next hnext => exact inputNext_within hnext h
  | list hitems horder =>
    intro i hi
    rw [List.append_nil] at hi
    exact sourceItems_within h hitems i (horder.mem_iff.mp hi)
  | pool hstep => exact fun i hi => h i (hstep.mem hi)

theorem removeStaging_seen (phase : InputPhase) (h : AgreeOn (getRoots env q) t u) :
    (removeStaging env q u phase).2 = (removeStaging env q t phase).2 ∧
      AgreeOn (getRoots env q) (removeStaging env q t phase).1
        (removeStaging env q u phase).1 := by
  have hremove := h.removeAll (env.staging q.destPath)
  unfold removeStaging
  cases ht : t.removeAll (env.staging q.destPath) with
  | some t' =>
    obtain ⟨u', hu, hagree⟩ := exists_of_rel_some hremove ht
    rw [hu]
    exact ⟨rfl, hagree⟩
  | none =>
    rw [eq_none_of_rel hremove ht]
    exact ⟨rfl, h⟩

theorem downloadObject_seen (hplain : env.Plain) {s3 : S3Config} {object : OssObject}
    {names : List Name} (hbelow : IsBelow (env.oss s3) s3.path object.key names)
    (h : AgreeOn (getRoots env q) t u) {result : Except Exn Unit} {s : DownloadState}
    (hround : downloadObject (env.oss s3) s3.path (downloadTempPath env q) object ⟨t, []⟩ =
      (result, s)) :
    ∃ s', downloadObject (env.oss s3) s3.path (downloadTempPath env q) object ⟨u, []⟩ =
      (result, s') ∧ AgreeOn (getRoots env q) s.fs s'.fs := by
  have habsolute : (pathParts (downloadTempPath env q)).absolute = true := by
    simp [pathParts, downloadTempPath, genTempDir_head]
  have hloc : destLocation (env.oss s3) s3.path (downloadTempPath env q) object =
      env.staging q.destPath ++ names := by
    rw [destLocation_of_isBelow _ hbelow, ProxyEnv.staging, hplain s3]
    rfl
  have hparent := h.ensureParent
    (.under staging_mem_getRoots (List.prefix_append (env.staging q.destPath) names))
  simp only [downloadObject_of_isBelow hbelow habsolute, hloc] at hround ⊢
  split at hround
  next ht =>
    cases hround
    exact ⟨_, by rw [eq_none_of_rel hparent ht], h⟩
  next t₁ ht =>
    obtain ⟨u₁, hu, hagree⟩ := exists_of_rel_some hparent ht
    have hwrite := hagree.writeFile staging_mem_getRoots (prefix_dropLast_append hbelow.1)
      object.content
    rw [hu]
    simp only
    split at hround
    · cases hround
      exact ⟨_, rfl, hagree⟩
    · split at hround
      next ht' =>
        cases hround
        exact ⟨_, by rw [eq_none_of_rel hwrite ht'], hagree⟩
      next t₂ ht' =>
        cases hround
        obtain ⟨u₂, hu', hagree'⟩ := exists_of_rel_some hwrite ht'
        exact ⟨_, by rw [hu'], hagree'⟩

theorem inputNext_seen (hplain : env.Plain)
    (hkeys : ∀ s3, q.s3Config = some s3 → KeysBelow (env.oss s3) s3.path)
    (hnext : inputNext env q t phase = some (t', phase')) (hwithin : InputWithin env q phase)
    (h : AgreeOn (getRoots env q) t u) :
    ∃ u', inputNext env q u phase = some (u', phase') ∧ AgreeOn (getRoots env q) t' u' := by
  cases phase with
  | received =>
    simp only [inputNext] at hnext ⊢
    split at hnext <;> cases hnext <;> exact ⟨u, rfl, h⟩
  | keyed dataKey =>
    simp only [inputNext] at hnext ⊢
    split at hnext
    next s3 hs3 =>
      obtain ⟨hphase, hagree⟩ := removeStaging_seen (.cleared dataKey s3) h
      rw [Option.some.inj hnext] at hphase hagree
      exact ⟨_, congrArg some (Prod.ext rfl hphase), hagree⟩
    · cases hnext
      exact ⟨u, rfl, h⟩
    · cases hnext
      exact ⟨u, rfl, h⟩
  | cleared dataKey s3 =>
    simp only [inputNext] at hnext ⊢
    split at hnext
    · cases hnext
      exact ⟨u, rfl, h⟩
    · split at hnext
      next hpage =>
        cases hnext
        exact ⟨u, if_pos hpage, h⟩
      next hpage =>
        cases hnext
        exact ⟨u, if_neg hpage, h⟩
  | downloading dataKey s3 todo =>
    cases todo with
    | nil =>
      cases hnext
      exact ⟨u, rfl, h⟩
    | cons object todo =>
      obtain ⟨names, hbelow⟩ := hkeys s3 hwithin.1 object (hwithin.2 object List.mem_cons_self)
      simp only [inputNext] at hnext ⊢
      split at hnext
      next s hround =>
        cases hnext
        obtain ⟨s', hround', hagree⟩ := downloadObject_seen hplain hbelow h hround
        exact ⟨s'.fs, by rw [hround'], hagree⟩
      next e s hround =>
        cases hnext
        obtain ⟨s', hround', hagree⟩ := downloadObject_seen hplain hbelow h hround
        exact ⟨s'.fs, by rw [hround'], hagree⟩
  | called dataKey srcPath =>
    simp only [inputNext] at hnext ⊢
    split at hnext
    next e herror =>
      cases hnext
      exact ⟨u, by rw [sourceItems_error_seen h hwithin herror], h⟩
    next => cases hnext
  | decrypting dataKey p =>
    obtain ⟨hp, hresult⟩ := inputNext_decrypting hnext
    cases hresult
    rw [hp]
    exact ⟨u, rfl, h⟩
  | decrypted =>
    obtain ⟨hphase, hagree⟩ := removeStaging_seen (.finished none) h
    rw [inputNext, Option.some.injEq] at hnext
    rw [hnext] at hphase hagree
    exact ⟨_, congrArg some (Prod.ext rfl hphase), hagree⟩
  | finished error => cases hnext

/-- The request can take the same step on a tree that looks the same in its directories. -/
theorem inputStep_seen (hplain : env.Plain)
    (hkeys : ∀ s3, q.s3Config = some s3 → KeysBelow (env.oss s3) s3.path)
    (hstep : InputStep env q (t, phase) (t', phase')) (hwithin : InputWithin env q phase)
    (h : AgreeOn (getRoots env q) t u) :
    ∃ u', InputStep env q (u, phase) (u', phase') ∧ AgreeOn (getRoots env q) t' u' := by
  cases hstep with
  | next hnext =>
    obtain ⟨u', hnext', hagree⟩ := inputNext_seen hplain hkeys hnext hwithin h
    exact ⟨u', .next hnext', hagree⟩
  | list hitems horder =>
    obtain ⟨items', hitems', hperm⟩ := sourceItems_ok_seen h hwithin hitems
    exact ⟨u, .list hitems' (horder.trans hperm), h⟩
  | pool hstep =>
    obtain ⟨u', hstep', hagree⟩ := hstep.simulate (u := u)
      (fun i hi _ hbody => decryptPool_body_seen h (hwithin i (List.mem_append_left _ hi))
        dest_mem_getRoots hbody)
      (fun i hi _ htask => decryptItem_seen h (hwithin i (List.mem_append_right _ hi))
        dest_mem_getRoots htask)
    exact ⟨u', .pool hstep', hagree⟩

theorem inputStep_keepsOutside (hplain : env.Plain)
    (hkeys : ∀ s3, q.s3Config = some s3 → KeysBelow (env.oss s3) s3.path)
    (hstep : InputStep env q (t, phase) (t', phase')) (hwithin : InputWithin env q phase) :
    t.KeepsOutside (inputRoots env q) t' := by
  rcases (inputStep_effect hplain hkeys hwithin.listed hstep).change with hdest | ⟨hstaging, _⟩
  · exact hdest.mono (by simp [inputRoots])
  · exact hstaging.mono (by simp [inputRoots])

end Get

end TrustFlow.Proxy
