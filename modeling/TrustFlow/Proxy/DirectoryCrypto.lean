import TrustFlow.FilePlacement
import TrustFlow.Proxy.StagedUpload
import TrustFlow.TaskPool

/-! # Encrypting and decrypting directories

`EncryptToDir` and `DecryptToDir` as task pools on the file system.  Encryption
starts a task for every regular file of the source.  Decryption starts a task for
a file whose extension is `.enc` and copies any other file in the loop itself. -/

namespace TrustFlow.Proxy

/-! ## `EncryptToDir` -/

def encryptPool (env : ProxyEnv) (destPath dataKey : Bytes) :
    TaskPool SourceItem FileSystem Exn where
  body i fs :=
    match fs.ensureParent (i.dest env destPath) with
    | none => (.error (ioError "cannot create directories"), fs)
    | some fs' => (.ok true, fs')
  task i fs result fs' := ∃ ivs, encryptItem env ivs destPath dataKey i fs = (result, fs')
  task_total _ _ := ⟨_, _, fun _ => zeroIv, rfl⟩

/-- Every run of `EncryptToDir` ends with `Q`, in whatever order the source is listed. -/
def EncryptToDir (env : ProxyEnv) (fs : FileSystem) (srcPath destPath dataKey : Bytes)
    (Q : FileSystem → Option Exn → Prop) : Prop :=
  match sourceItems env fs srcPath with
  | .error e => Q fs (some e)
  | .ok items => ∀ todo, todo.Perm items →
      (encryptPool env destPath dataKey).EndsIn Q fs ⟨todo, [], none⟩

/-- The loop of `EncryptToDir` in a request for a result is this pool. -/
theorem step_of_encryptPool {env : ProxyEnv} {q : PutResultDataRequest} {destPath dataKey : Bytes}
    {fs fs' : FileSystem} {p p' : PoolState SourceItem Exn} (r : RequestState)
    (hpath : q.destPath env.sha256 = .ok destPath)
    (hstep : (encryptPool env destPath dataKey).Step fs p fs' p') :
    Step env q fs { r with phase := .encrypting dataKey p.todo p.tasks p.error }
      fs' { r with phase := .encrypting dataKey p'.todo p'.tasks p'.error } := by
  cases hstep with
  | launch hbody =>
    simp only [encryptPool] at hbody
    split at hbody
    next => cases hbody
    next fs₁ hparent =>
      cases hbody
      exact .launch rfl hpath hparent
  | inline hbody =>
    simp only [encryptPool] at hbody
    split at hbody <;> cases hbody
  | throws hbody =>
    simp only [encryptPool] at hbody
    split at hbody
    next =>
      cases hbody
      exact .launchFault _ rfl hpath List.prefix_rfl (.inl rfl)
    next => cases hbody
  | complete before after htask =>
    obtain ⟨ivs, hrun⟩ := htask
    exact .complete rfl hpath hrun
  | fails before after htask =>
    obtain ⟨ivs, hrun⟩ := htask
    exact .complete rfl hpath hrun

/-! ## `DecryptToDir` -/

def SourceItem.name (i : SourceItem) : Name := i.rel.getLastD []

def SourceItem.isEnc (i : SourceItem) : Bool := extension i.name = kEncSuffix

/-- Where the decrypted file goes. -/
def SourceItem.decDest (env : ProxyEnv) (destPath : Bytes) (i : SourceItem) : Location Name :=
  env.resolve destPath ++ decLocation i.rel

/-- `DecryptFile` on the file system. -/
def decryptItem (env : ProxyEnv) (destPath dataKey : Bytes) (i : SourceItem) (fs : FileSystem) :
    Except Exn Unit × FileSystem :=
  match fs.fileAt i.loc with
  | none => (.error (ioError "cannot open input file"), fs)
  | some c =>
    -- A path that ends in one of the dots is the path of a directory.
    if isDots (stem i.name) then (.error (ioError "cannot open output file"), fs)
    else
      match (decryptFile env.gcm i.path (pathAppend destPath (relText (decLocation i.rel)))
          dataKey).run (FileM.start c.bytes) with
      | .ok () s => storeOutput fs (i.decDest env destPath) s.output (.ok ())
      | .error e s => storeOutput fs (i.decDest env destPath) s.output (.error e)

/-- Where `std::filesystem::copy` puts a file: under a directory if it finds one. -/
def copyTarget (fs : FileSystem) (dest : Location Name) (name : Name) : Location Name :=
  if fs.isDirectory dest then dest ++ [name] else dest

/-- `std::filesystem::copy` with `overwrite_existing`. -/
def copyItem (env : ProxyEnv) (destPath : Bytes) (i : SourceItem) (fs : FileSystem) :
    Except Exn Unit × FileSystem :=
  let target := copyTarget fs (env.resolve destPath ++ i.rel) i.name
  match fs.fileAt i.loc with
  | none => (.error (ioError "cannot copy file"), fs)
  | some c =>
    if target = i.loc then (.error (ioError "cannot copy file to itself"), fs)
    else
      match fs.writeFile target c with
      | none => (.error (ioError "cannot copy file"), fs)
      | some fs' => (.ok (), fs')

def decryptPool (env : ProxyEnv) (destPath dataKey : Bytes) :
    TaskPool SourceItem FileSystem Exn where
  body i fs :=
    match fs.ensureParent (env.resolve destPath ++ i.rel) with
    | none => (.error (ioError "cannot create directories"), fs)
    | some fs₁ =>
      if i.isEnc then (.ok true, fs₁)
      else
        match copyItem env destPath i fs₁ with
        | (.ok (), fs₂) => (.ok false, fs₂)
        | (.error e, fs₂) => (.error e, fs₂)
  task i fs result fs' := decryptItem env destPath dataKey i fs = (result, fs')
  task_total _ _ := ⟨_, _, rfl⟩

/-- Every run of `DecryptToDir` ends with `Q`, in whatever order the source is listed. -/
def DecryptToDir (env : ProxyEnv) (fs : FileSystem) (srcPath destPath dataKey : Bytes)
    (Q : FileSystem → Option Exn → Prop) : Prop :=
  match sourceItems env fs srcPath with
  | .error e => Q fs (some e)
  | .ok items => ∀ todo, todo.Perm items →
      (decryptPool env destPath dataKey).EndsIn Q fs ⟨todo, [], none⟩

theorem DecryptToDir.mono {env : ProxyEnv} {fs : FileSystem} {srcPath destPath dataKey : Bytes}
    {Q Q' : FileSystem → Option Exn → Prop} (himp : ∀ fs error, Q fs error → Q' fs error)
    (h : DecryptToDir env fs srcPath destPath dataKey Q) :
    DecryptToDir env fs srcPath destPath dataKey Q' := by
  unfold DecryptToDir at h ⊢
  split
  next e hitems =>
    rw [hitems] at h
    exact himp _ _ h
  next items hitems =>
    rw [hitems] at h
    exact fun todo hperm => (h todo hperm).mono himp

/-! ## The parts -/

section Parts

variable {t t' : FileSystem} {p : Location Name}

theorem storeOutput_of_writeFile {c : FileContent}
    (h : t.writeFile p c = some t') (result : Except Exn Unit) :
    storeOutput t p (some c.bytes) result = (result, t') := by
  rw [storeOutput]
  simp only [dif_pos c.size, h]

theorem kindsKept_storeOutput {output : Option Bytes}
    {result result' : Except Exn Unit} (h : storeOutput t p output result = (result', t')) :
    t.KindsKept t' := by
  rcases (storeOutput_spec h).1 with rfl | ⟨c, hwrite⟩
  · exact .refl _
  · exact .writeFile hwrite

theorem changedOnlyAt_ensureParent {root : Location Name} (hroot : root <+: p)
    (h : t.ensureParent p = some t') : ChangedOnlyAt root t t' := by
  rw [FileTree.ensureParent] at h
  split at h
  · exact changedOnlyAt_createDirectories hroot (List.dropLast_prefix _) h
  · cases h
    exact .refl _ _

end Parts

/-! ## The items of a directory -/

def dirItem (env : ProxyEnv) (srcPath : Bytes) (rel : Location Name) : SourceItem :=
  ⟨rel, env.resolve srcPath ++ rel, pathAppend srcPath (relText rel)⟩

def dirItems (env : ProxyEnv) (fs : FileSystem) (srcPath : Bytes) : List SourceItem :=
  (fs.regularFiles (env.resolve srcPath)).map (dirItem env srcPath)

section Items

variable {env : ProxyEnv} {fs : FileSystem} {srcPath destPath : Bytes} {i : SourceItem}

theorem sourceItems_of_dir (h : fs.node (env.resolve srcPath) = some .dir) :
    sourceItems env fs srcPath = .ok (dirItems env fs srcPath) := by
  simp only [sourceItems, h]
  rfl

theorem mem_dirItems :
    i ∈ dirItems env fs srcPath ↔
      ∃ rel c, i = dirItem env srcPath rel ∧ fs.fileAt (env.resolve srcPath ++ rel) = some c := by
  simp only [dirItems, List.mem_map, FileTree.mem_regularFiles]
  constructor
  · rintro ⟨rel, ⟨c, hc⟩, rfl⟩
    exact ⟨rel, c, rfl, hc⟩
  · rintro ⟨rel, c, rfl, hc⟩
    exact ⟨rel, ⟨c, hc⟩, rfl⟩

theorem rel_ne_nil (hdir : fs.node (env.resolve srcPath) = some .dir) {rel : Location Name}
    {c : FileContent} (h : fs.fileAt (env.resolve srcPath ++ rel) = some c) : rel ≠ [] := by
  rintro rfl
  rw [List.append_nil, FileTree.fileAt_eq_some, hdir] at h
  cases h

/-- Every name below the directory is one that a directory entry can have. -/
def ValidNamesUnder (fs : FileSystem) (root : Location Name) : Prop :=
  ∀ rel, fs.node (root ++ rel) ≠ none → ∀ n ∈ rel, ValidName n

/-- The paths of two files in different directories are different texts. -/
theorem path_ne {path path' : Bytes} {rel rel' : Location Name}
    (hresolve : ResolvesNames env.resolve)
    (hapart : Apart (env.resolve path) (env.resolve path')) (hrel : ∀ n ∈ rel, ValidName n)
    (hrel' : ∀ n ∈ rel', ValidName n) :
    pathAppend path (relText rel) ≠ pathAppend path' (relText rel') := by
  intro heq
  have hloc := congrArg env.resolve heq
  rw [hresolve path rel hrel, hresolve path' rel' hrel'] at hloc
  have hunder := List.prefix_append (env.resolve path) rel
  rw [hloc] at hunder
  exact hapart.not_under_both hunder (List.prefix_append _ rel')

theorem validNamesUnder_of_listed {root : Location Name}
    (h : ∀ p ∈ fs.listed, ∀ n ∈ p, ValidName n) : ValidNamesUnder fs root :=
  fun _ hnode n hn => h _ (fs.mem_listed _ hnode) n (List.mem_append_right root hn)

end Items

/-! ## A concrete environment -/

def directEnv : ProxyEnv where
  gcm := ⟨plainGcm, plainGcm⟩
  sha256 := paddingSha256
  base64Decode text := .ok text
  resolve := pathComponents

def fileX : FileContent := ⟨str "x", by decide⟩

def fileY : FileContent := ⟨str "y", by decide⟩

/-- A file system with the given files and, for each, the directories on the way. -/
def treeOf (files : List (Location Name × FileContent)) : FileSystem :=
  files.foldl (fun fs file =>
    ((fs.createDirectories file.1.dropLast).bind (·.writeFile file.1 file.2)).getD fs) .empty

end TrustFlow.Proxy
