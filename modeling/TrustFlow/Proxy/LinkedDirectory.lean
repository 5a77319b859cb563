import TrustFlow.LinkedTree
import TrustFlow.Proxy.PutResultData

/-! # Directories with symbolic links

`EncryptToDir` and `DecryptToDir` on a source with symbolic links.  The loop finds an
entry by its path in the source and looks through a link at what it leads to, but where
the output goes is computed from where the entry really is, relative to where the source
really is. -/

namespace TrustFlow.Proxy

abbrev LinkedFs := LinkedTree Name FileContent

structure LinkedEnv where
  gcm : GcmLibrary
  cwd : Location Name
  maxLinks : Nat := 40

/-- What the caller asks for. -/
structure DirCall where
  env : LinkedEnv
  encrypts : Bool
  srcPath : Bytes
  destPath : Bytes
  dataKey : Bytes

/-- What the loop visits: a source that is a file itself, or something below it. -/
inductive Entry where
  | source
  | under (rel : Location Name)
deriving DecidableEq

/-- A file to write: the entry it is for, and its path relative to `dest_path`. -/
structure Output where
  entry : Entry
  placement : PathParts Name
deriving DecidableEq

structure DirState where
  tree : LinkedFs
  created : List Output
  todo : List Entry
  tasks : List Output
  error : Option Exn

/-! ## Paths -/

def elemText : PathElem Name → Name
  | .empty => []
  | .dot => str "."
  | .dotdot => str ".."
  | .name n => n

/-- Changes the file name of a path. -/
def mapFilename (f : Name → Name) (path : PathParts Name) : PathParts Name :=
  { path with
    elems := path.elems.dropLast ++
      (path.elems.getLast?.map fun e => pathElem (f (elemText e))).toList }

def Entry.path (srcPath : Bytes) : Entry → Bytes
  | .source => srcPath
  | .under rel => pathAppend srcPath (relText rel)

def Entry.name (srcPath : Bytes) : Entry → Name
  | .source => filename srcPath
  | .under rel => rel.getLastD []

def Output.dest (destPath : Bytes) (out : Output) : PathParts Name :=
  (pathParts destPath).append out.placement

def Output.destText (destPath : Bytes) (out : Output) : Bytes :=
  pathAppend destPath (relText (out.placement.elems.map elemText))

/-! ## Looking -/

def LinkedEnv.find (env : LinkedEnv) (t : LinkedFs) (path : Bytes) :
    Except WalkError (Location Name) :=
  t.find env.maxLinks env.cwd (pathParts path)

def LinkedEnv.status (env : LinkedEnv) (t : LinkedFs) (path : PathParts Name) :
    Except Exn (Option (Node FileContent)) :=
  match t.status env.maxLinks env.cwd path with
  | .ok node => .ok node
  | .error _ => .error (ioError "Too many levels of symbolic links")

def isRegularFile (env : LinkedEnv) (t : LinkedFs) (path : Bytes) : Except Exn Bool := do
  let node ← env.status t (pathParts path)
  match node with
  | some (.file _) => return true
  | _ => return false

/-- `std::filesystem::weakly_canonical` of a path that leads somewhere. -/
def weaklyCanonical (env : LinkedEnv) (t : LinkedFs) (path : Bytes) :
    Except Exn (PathParts Name) :=
  match env.find t path with
  | .ok p => .ok ⟨true, p.map .name⟩
  | .error _ => .error (ioError "cannot make canonical path")

/-- `std::filesystem::relative`. -/
def relative (env : LinkedEnv) (t : LinkedFs) (path base : Bytes) :
    Except Exn (PathParts Name) := do
  let p ← weaklyCanonical env t path
  let b ← weaklyCanonical env t base
  return p.lexicallyRelative b

def relativePathOf (env : LinkedEnv) (t : LinkedFs) (srcPath : Bytes) :
    Entry → Except Exn (PathParts Name)
  | .source => .ok ⟨false, [pathElem (filename srcPath)]⟩
  | .under rel => relative env t (Entry.path srcPath (.under rel)) srcPath

/-- What `recursive_directory_iterator` yields; it does not go into directories behind links. -/
def entriesUnder (t : LinkedFs) (base : Location Name) : List Entry :=
  (t.listed.filter fun p => base <+: p && p ≠ base && (t.node p).isSome).map fun p =>
    .under (p.drop base.length)

def linkedEntries (env : LinkedEnv) (t : LinkedFs) (srcPath : Bytes) :
    Except Exn (List Entry) := do
  let node ← env.status t (pathParts srcPath)
  match node with
  | none => .error ⟨.enforceNotMet, str "src_path " ++ srcPath ++ str " not exists"⟩
  | some (.file _) => return [.source]
  | some .dir =>
    match env.find t srcPath with
    | .ok base => return entriesUnder t base
    | .error _ => .error (ioError "cannot open directory")
  | some .other => yaclThrow (str "src_path " ++ srcPath ++ str " is not a file or directory")

/-! ## Writing -/

/-- The missing directories above a path, with what is left when they cannot be made. -/
def makeParentDir (env : LinkedEnv) (t : LinkedFs) (dest : PathParts Name) :
    Except Exn Unit × LinkedFs :=
  match env.status t (parentPath dest) with
  | .error e => (.error e, t)
  | .ok (some _) => (.ok (), t)
  | .ok none =>
    match t.createDirectories env.maxLinks env.cwd (parentPath dest) with
    | (true, t') => (.ok (), t')
    | (false, t') => (.error (ioError "cannot create directories"), t')

def DirState.write (s : DirState) (q : DirCall) (out : Output) (content : FileContent) :
    Option DirState :=
  match s.tree.writeTo q.env.maxLinks q.env.cwd (out.dest q.destPath) content with
  | none => none
  | some t => some { s with tree := t, created := s.created ++ [out] }

/-- What the output stream of a task leaves. -/
def DirState.store (s : DirState) (q : DirCall) (out : Output) (output : Option Bytes)
    (result : Except Exn Unit) : Except Exn Unit × DirState :=
  match output with
  | none => (result, s)
  | some bytes =>
    if h : bytes.length < 2 ^ 63 then
      match s.write q out ⟨bytes, h⟩ with
      | some s' => (result, s')
      | none => (.error (ioError "cannot open output file"), s)
    else (.error (ioError "file too large"), s)

/-- `EncryptFile` or `DecryptFile`. -/
def DirCall.cipher (q : DirCall) (ivs : Nat → Blob kIvBytes) (out : Output) : FileM Unit :=
  if q.encrypts then
    encryptFile q.env.gcm ivs (out.entry.path q.srcPath) (out.destText q.destPath) q.dataKey
  else decryptFile q.env.gcm (out.entry.path q.srcPath) (out.destText q.destPath) q.dataKey

/-- A task, on the input as it is when the task takes effect. -/
def DirState.runTask (s : DirState) (q : DirCall) (ivs : Nat → Blob kIvBytes) (out : Output) :
    Except Exn Unit × DirState :=
  match q.env.find s.tree (out.entry.path q.srcPath) with
  | .error _ => (.error (ioError "cannot open input file"), s)
  | .ok p =>
    match s.tree.fileAt p with
    | none => (.error (ioError "cannot open input file"), s)
    | some c =>
      match (q.cipher ivs out).run (FileM.start c.bytes) with
      | .ok () streams => s.store q out streams.output (.ok ())
      | .error e streams => s.store q out streams.output (.error e)

/-- A task gets as far as its output: it is not in place, there is an input, and `EncryptFile`
    does not refuse an empty one. -/
def DirState.OpensOutput (s : DirState) (q : DirCall) (out : Output) : Prop :=
  out.entry.path q.srcPath ≠ out.destText q.destPath ∧
    ∃ p c, q.env.find s.tree (out.entry.path q.srcPath) = .ok p ∧ s.tree.fileAt p = some c ∧
      (q.encrypts = true → c.bytes ≠ [])

/-- Where `std::filesystem::copy` puts a file: under a directory if it finds one. -/
def copyPlacement (q : DirCall) (t : LinkedFs) (entry : Entry) (relativePath : PathParts Name) :
    Except Exn (PathParts Name) := do
  let node ← q.env.status t ((pathParts q.destPath).append relativePath)
  match node with
  | some .dir => return relativePath.append ⟨false, [.name (entry.name q.srcPath)]⟩
  | _ => return relativePath

/-- `std::filesystem::copy` with `overwrite_existing`. -/
def DirState.copy (s : DirState) (q : DirCall) (entry : Entry) (relativePath : PathParts Name) :
    Except Exn Unit × DirState :=
  match copyPlacement q s.tree entry relativePath, q.env.find s.tree (entry.path q.srcPath) with
  | .error e, _ => (.error e, s)
  | .ok _, .error _ => (.error (ioError "cannot copy file"), s)
  | .ok placement, .ok p =>
    match s.tree.fileAt p with
    | none => (.error (ioError "cannot copy file"), s)
    | some c =>
      if s.tree.find q.env.maxLinks q.env.cwd (Output.dest q.destPath ⟨entry, placement⟩) =
          .ok p then
        (.error (ioError "cannot copy file to itself"), s)
      else
        match s.write q ⟨entry, placement⟩ c with
        | none => (.error (ioError "cannot copy file"), s)
        | some s' => (.ok (), s')

/-! ## The loop -/

/-- One iteration, and the task that it starts. -/
def DirState.visit (s : DirState) (q : DirCall) (entry : Entry) :
    Except Exn (Option Output) × DirState :=
  match isRegularFile q.env s.tree (entry.path q.srcPath) with
  | .error e => (.error e, s)
  | .ok false => (.ok none, s)
  | .ok true =>
    match relativePathOf q.env s.tree q.srcPath entry with
    | .error e => (.error e, s)
    | .ok relativePath =>
      match makeParentDir q.env s.tree ((pathParts q.destPath).append relativePath) with
      | (.error e, t) => (.error e, { s with tree := t })
      | (.ok (), t) =>
        if q.encrypts then
          (.ok (some ⟨entry, mapFilename (· ++ kEncSuffix) relativePath⟩), { s with tree := t })
        else if extension (entry.name q.srcPath) = kEncSuffix then
          (.ok (some ⟨entry, mapFilename stem relativePath⟩), { s with tree := t })
        else
          match DirState.copy { s with tree := t } q entry relativePath with
          | (.error e, s') => (.error e, s')
          | (.ok (), s') => (.ok none, s')

/-- After an iteration: an exception ends the loop, and the tasks are waited for. -/
def DirState.visited (s : DirState) (todo : List Entry) :
    Except Exn (Option Output) → DirState
  | .error e => { s with todo := [], error := some e }
  | .ok none => { s with todo := todo }
  | .ok (some out) => { s with todo := todo, tasks := s.tasks ++ [out] }

def DirState.finished (s : DirState) (tasks : List Output) : Except Exn Unit → DirState
  | .error e => { s with tasks := tasks, error := s.error.or (some e) }
  | .ok () => { s with tasks := tasks }

inductive DirStep (q : DirCall) : DirState → DirState → Prop where
  | visit {s s' entry todo result} : s.todo = entry :: todo → s.visit q entry = (result, s') →
      DirStep q s (s'.visited todo result)
  | task {s s' out before after result} (ivs : Nat → Blob kIvBytes) :
      s.tasks = before ++ out :: after → s.runTask q ivs out = (result, s') →
      DirStep q s (s'.finished (before ++ after) result)
  /-- The operating system fails a task, which leaves anything or nothing at its path. -/
  | taskFault {s s' out before after} (e : Exn) : s.tasks = before ++ out :: after →
      (s' = s ∨ s.OpensOutput q out ∧ ∃ content, s.write q out content = some s') →
      DirStep q s (s'.finished (before ++ after) (.error e))

def DirState.start (t : LinkedFs) (todo : List Entry) : DirState := ⟨t, [], todo, [], none⟩

/-- What a call can come to while it goes through the given entries. -/
def DirRuns (q : DirCall) (t : LinkedFs) (todo : List Entry) (s : DirState) : Prop :=
  Relation.ReflTransGen (DirStep q) (.start t todo) s

end TrustFlow.Proxy
