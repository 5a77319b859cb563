import TrustFlow.Proxy.DecryptGrammar
import TrustFlow.Proxy.DecryptScheduling

/-! # Failed decryption

`DecryptFile` on two paths of the file system.  The output is opened, and so emptied, before the
header of the input is looked at, and every block is written as soon as it is open.

* `decryptFile_output` — what the output stream holds at the end, however the run ends;
* `decryptFileAt_keepsDest_iff` — when a failure leaves the destination as it was.
-/

namespace TrustFlow.Proxy

/-! ## What is written -/

/-- The plaintexts of the blocks in front of the first one that does not open. -/
def openedFront (gcm : GcmLibrary) (dataKey : Bytes) : List Bytes → List Bytes
  | [] => []
  | piece :: pieces =>
    match decryptDataBlock gcm piece dataKey with
    | .ok plain => plain :: openedFront gcm dataKey pieces
    | .error _ => []

theorem framed_iff_and {file : Bytes} :
    Framed file ↔ headerLen < file.length ∧ 1 ≤ packetCnt file ∧ 1 ≤ blockLen file ∧
      packetCnt file * blockLen file < 2 ^ 64 ∧
      (packetCnt file - 1) * blockLen file ≤ file.length - headerLen ∧
      file.length - headerLen ≤ packetCnt file * blockLen file :=
  ⟨fun h => ⟨h.header, h.packets, h.blocks, h.noOverflow, h.front, h.back⟩,
    fun ⟨h₁, h₂, h₃, h₄, h₅, h₆⟩ => ⟨h₁, h₂, h₃, h₄, h₅, h₆⟩⟩

instance (file : Bytes) : Decidable (Framed file) := decidable_of_iff _ framed_iff_and.symm

/-- All that reaches the output: nothing before the header is accepted, then block by block. -/
def writtenPlain (gcm : GcmLibrary) (dataKey file : Bytes) : Bytes :=
  if Framed file then (openedFront gcm dataKey (filePieces file)).flatten else []

section Output

variable {gcm : GcmLibrary} {dataKey : Bytes}

theorem decryptLastBlock_output {buf written : Bytes} {last : Nat} {s : FileStreams}
    (hlen : s.pos + last = s.input.length) (houtput : s.output = some written) :
    (FileM.finalState ((decryptLastBlock gcm dataKey last buf).run s)).output =
      some (written ++ (openedFront gcm dataKey [s.input.drop s.pos]).flatten) := by
  rw [decryptLastBlock_run gcm dataKey buf hlen, FileM.finalState_lift_bind]
  cases hplain : decryptDataBlock gcm (s.input.drop s.pos) dataKey with
  | ok plain => simp [openedFront, hplain, FileM.finalState, houtput]
  | error e => simp [openedFront, hplain, houtput]

theorem decryptBlocks_output {b last : Nat} :
    ∀ (n : Nat) {buf written : Bytes} {s : FileStreams}, buf.length = b →
      s.pos + n * b + last = s.input.length → s.output = some written →
      (FileM.finalState
          ((decryptBlocks gcm dataKey n buf >>= decryptLastBlock gcm dataKey last).run s)).output =
        some (written ++ (openedFront gcm dataKey (cut b n (s.input.drop s.pos))).flatten) := by
  -- Induction on the full blocks that are left: one that opens is written before the next is
  -- read, one that does not ends the run.
  intro n
  induction n with
  | zero =>
    intro buf written s hbuf hlen houtput
    rw [decryptBlocks, pure_bind]
    exact decryptLastBlock_output (by omega) houtput
  | succ n ih =>
    intro buf written s hbuf hlen houtput
    rw [Nat.succ_mul] at hlen
    have hpiece : (slice s.input s.pos b).length = b := slice_length (by omega)
    rw [decryptBlocks_succ_run hbuf (by omega), FileM.finalState_lift_bind, cut_drop_succ,
      openedFront]
    cases hplain : decryptDataBlock gcm (slice s.input s.pos b) dataKey with
    | error e => simp [houtput]
    | ok plain =>
      simp only
      rw [FileM.bind_of_ok (FileM.run_write _ _), houtput, Option.map_some,
        ih hpiece (by simp only; omega) rfl]
      simp

theorem parseFileHeader_output (s : FileStreams) :
    (FileM.finalState (parseFileHeader.run s)).output = s.output := by
  -- A read always returns; only the position moves until one of the checks throws.
  have hread : ∀ (buf : Bytes) (t : FileStreams), ∃ got pos,
      (FileM.read buf).run t = .ok got { t with pos } := fun _ _ => ⟨_, _, rfl⟩
  rw [parseFileHeader, FileM.bind_of_ok (FileM.run_seekg _ _)]
  obtain ⟨cntBytes, pos₁, hcnt⟩ := hread (List.replicate kPacketCntBytes 0)
    { s with pos := kVersionBytes + kSchemaBytes }
  rw [FileM.bind_of_ok hcnt, FileM.finalState_lift_bind]
  split
  next packets _ =>
    rw [FileM.finalState_enforce_bind]
    split
    · obtain ⟨lenBytes, pos₂, hlen⟩ := hread (resize cntBytes kBlockLenBytes)
        { s with pos := pos₁ }
      rw [FileM.bind_of_ok hlen, FileM.finalState_lift_bind]
      split <;> rfl
    · rfl
  next => rfl

/-- A file that is not framed is refused before the first block is read. -/
theorem decryptFile_output_of_not_framed {srcPath destPath file : Bytes}
    (hpath : srcPath ≠ destPath) (hnot : ¬ Framed file) :
    (FileM.finalState ((decryptFile gcm srcPath destPath dataKey).run
        (FileM.start file))).output = some [] := by
  rw [decryptFile, FileM.finalState_enforce_bind, if_pos hpath,
    FileM.bind_of_ok (FileM.run_openOutput _), FileM.bind_of_ok (FileM.run_getLength _),
    FileM.finalState_enforce_bind]
  split
  next hheader =>
    have hkept := parseFileHeader_output { FileM.start file with output := some [] }
    cases hparse : parseFileHeader.run { FileM.start file with output := some [] } with
    | error e s =>
      rw [hparse] at hkept
      rw [FileM.bind_of_error hparse]
      exact hkept
    | ok header s =>
      obtain ⟨hpackets, rfl, rfl⟩ := (parseFileHeader_eq_ok hheader).mp hparse
      rw [FileM.bind_of_ok hparse, FileM.finalState_lift_bind]
      cases hlengths : checkLengths file.length (packetCnt file) (blockLen file) with
      | error e => simp only [FileM.start, hlengths]
      | ok u => exact absurd (framed_iff.mpr ⟨hheader, hpackets, hlengths⟩) hnot
  next => rfl

theorem decryptFile_output_of_framed {srcPath destPath file : Bytes}
    (hpath : srcPath ≠ destPath) (hframed : Framed file) :
    (FileM.finalState ((decryptFile gcm srcPath destPath dataKey).run
        (FileM.start file))).output =
      some (openedFront gcm dataKey (filePieces file)).flatten := by
  obtain ⟨hheader, hpackets, hlengths⟩ := framed_iff.mp hframed
  have hparse := (parseFileHeader_eq_ok (s := { FileM.start file with output := some [] })
    hheader).mpr ⟨hpackets, rfl, rfl⟩
  rw [decryptFile, FileM.finalState_enforce_bind, if_pos hpath,
    FileM.bind_of_ok (FileM.run_openOutput _), FileM.bind_of_ok (FileM.run_getLength _),
    FileM.finalState_enforce_bind,
    if_pos (show headerLen < (FileM.start file).input.length from hheader),
    FileM.bind_of_ok hparse, FileM.finalState_lift_bind]
  simp only [FileM.start, hlengths]
  rw [decryptBlocks_output _ (resize_length _ _) hframed.covers rfl]
  rfl

/-- However a run ends, its output holds the plaintexts of the blocks it could open. -/
theorem decryptFile_output (gcm : GcmLibrary) (dataKey : Bytes) {srcPath destPath : Bytes}
    (hpath : srcPath ≠ destPath) (file : Bytes) :
    (FileM.finalState ((decryptFile gcm srcPath destPath dataKey).run
        (FileM.start file))).output = some (writtenPlain gcm dataKey file) := by
  rw [writtenPlain]
  split
  next hframed => exact decryptFile_output_of_framed hpath hframed
  next hnot => exact decryptFile_output_of_not_framed hpath hnot

end Output

/-! ## On the file system -/

def emptyFile : FileContent := ⟨[], by decide⟩

/-- `DecryptFile`. -/
def decryptFileAt (env : ProxyEnv) (srcPath destPath dataKey : Bytes) (fs : FileSystem) :
    Except Exn Unit × FileSystem :=
  if srcPath = destPath then
    (.error ⟨.enforceNotMet, str "Inplace decryption is not allowed"⟩, fs)
  else
    match fs.fileAt (env.resolve srcPath) with
    | none => (.error (ioError "cannot open input file"), fs)
    | some _ =>
      match fs.writeFile (env.resolve destPath) emptyFile with
      | none => (.error (ioError "cannot open output file"), fs)
      | some opened =>
        -- If the two names lead to one file, opening the output has emptied the input.
        let input := (opened.fileAt (env.resolve srcPath)).elim [] FileContent.bytes
        let run := (decryptFile env.gcm srcPath destPath dataKey).run (FileM.start input)
        storeOutput opened (env.resolve destPath) (FileM.finalState run).output
          (FileM.outcome run)

/-- What `DecryptFile` finds in its input, once both files are open. -/
def inputBytes (env : ProxyEnv) (srcPath destPath : Bytes) (fs : FileSystem) : Bytes :=
  if env.resolve srcPath = env.resolve destPath then []
  else (fs.fileAt (env.resolve srcPath)).elim [] FileContent.bytes

/-- The header is accepted and every block opens. -/
def FullyOpens (gcm : GcmLibrary) (dataKey file : Bytes) : Prop :=
  Framed file ∧ ∃ plains, Opens gcm dataKey (filePieces file) plains

section FileSystem

variable {env : ProxyEnv} {srcPath destPath dataKey : Bytes} {fs opened : FileSystem}

theorem inputBytes_length (env : ProxyEnv) (srcPath destPath : Bytes) (fs : FileSystem) :
    (inputBytes env srcPath destPath fs).length < 2 ^ 63 := by
  rw [inputBytes]
  split
  · decide
  · cases fs.fileAt (env.resolve srcPath) with
    | none => decide
    | some c => exact c.size

theorem decryptDataBlock_length {gcm : GcmLibrary} (h128 : FillsBuffer gcm.aes128)
    (h256 : FillsBuffer gcm.aes256) {block plain : Bytes}
    (h : decryptDataBlock gcm block dataKey = .ok plain) : plain.length ≤ block.length := by
  obtain ⟨-, cipher, hcipher, hopen⟩ := decryptDataBlock_eq_ok.mp h
  have hfills : FillsBuffer cipher := by
    rw [gcmOf] at hcipher
    split at hcipher
    · cases hcipher
      exact h128
    · split at hcipher
      · cases hcipher
        exact h256
      · cases hcipher
  rw [hfills _ _ _ _ _ _ hopen, List.length_drop]
  exact Nat.sub_le _ _

theorem openedFront_length {gcm : GcmLibrary} (dataKey : Bytes)
    (h128 : FillsBuffer gcm.aes128) (h256 : FillsBuffer gcm.aes256) (pieces : List Bytes) :
    (openedFront gcm dataKey pieces).flatten.length ≤ pieces.flatten.length := by
  induction pieces with
  | nil => exact Nat.le_refl _
  | cons piece pieces ih =>
    rw [openedFront]
    cases hplain : decryptDataBlock gcm piece dataKey with
    | error e => exact Nat.zero_le _
    | ok plain =>
      have hlen := decryptDataBlock_length h128 h256 hplain
      simp only [List.flatten_cons, List.length_append]
      omega

theorem writtenPlain_length {gcm : GcmLibrary} (h128 : FillsBuffer gcm.aes128)
    (h256 : FillsBuffer gcm.aes256) (file : Bytes) :
    (writtenPlain gcm dataKey file).length ≤ file.length := by
  rw [writtenPlain]
  split
  · have hfront := openedFront_length dataKey h128 h256 (filePieces file)
    rw [filePieces_flatten, List.length_drop] at hfront
    omega
  · exact Nat.zero_le _

theorem storeOutput_of_opened {p : Location Name} {c : FileContent}
    (hopen : fs.writeFile p c = some opened) {output : Bytes} (hsize : output.length < 2 ^ 63)
    (result : Except Exn Unit) :
    ∃ fs', storeOutput opened p (some output) result = (result, fs') ∧
      fs.writeFile p ⟨output, hsize⟩ = some fs' := by
  obtain ⟨fs', hwrite⟩ := FileTree.exists_writeFile ⟨output, hsize⟩
    (FileTree.writeFile_parent hopen) (FileTree.writeFile_room hopen)
  have hagain := FileTree.writeFile_writeFile hopen ⟨output, hsize⟩
  exact ⟨fs', storeOutput_of_writeFile (hagain.trans hwrite) result, hwrite⟩

theorem storeOutput_of_unopened {p : Location Name} {c : FileContent}
    (hopen : fs.writeFile p c = none) {output : Bytes} (hsize : output.length < 2 ^ 63)
    (result : Except Exn Unit) :
    storeOutput fs p (some output) result = (.error (ioError "cannot open output file"), fs) := by
  -- Whether a file can be opened does not depend on what is written to it.
  have hnone : fs.writeFile p ⟨output, hsize⟩ = none := by
    cases hwrite : fs.writeFile p ⟨output, hsize⟩ with
    | none => rfl
    | some fs' =>
      obtain ⟨_, hsome⟩ := FileTree.exists_writeFile c (FileTree.writeFile_parent hwrite)
        (FileTree.writeFile_room hwrite)
      rw [hopen] at hsome
      cases hsome
  simp only [storeOutput, dif_pos hsize, hnone]

/-- Once both files are open, the destination gets what was written, and the run succeeds exactly
    if there was nothing to object to. -/
theorem decryptFileAt_of_opened (dataKey : Bytes) (h128 : FillsBuffer env.gcm.aes128)
    (h256 : FillsBuffer env.gcm.aes256) (hpath : srcPath ≠ destPath) {c : FileContent}
    (hsrc : fs.fileAt (env.resolve srcPath) = some c)
    (hopen : fs.writeFile (env.resolve destPath) emptyFile = some opened) :
    ∃ result fs' left, decryptFileAt env srcPath destPath dataKey fs = (result, fs') ∧
      left.bytes = writtenPlain env.gcm dataKey (inputBytes env srcPath destPath fs) ∧
      fs.writeFile (env.resolve destPath) left = some fs' ∧
      (result = .ok () ↔
        FullyOpens env.gcm dataKey (inputBytes env srcPath destPath fs)) := by
  set input := inputBytes env srcPath destPath fs with hinput
  have hread : (opened.fileAt (env.resolve srcPath)).elim [] FileContent.bytes = input := by
    rw [FileTree.fileAt_writeFile hopen, hinput, inputBytes]
    split <;> rfl
  have hsize : (writtenPlain env.gcm dataKey input).length < 2 ^ 63 :=
    lt_of_le_of_lt (writtenPlain_length h128 h256 input)
      (inputBytes_length env srcPath destPath fs)
  have hresult : FileM.outcome ((decryptFile env.gcm srcPath destPath dataKey).run
      (FileM.start input)) = .ok () ↔ FullyOpens env.gcm dataKey input := by
    constructor
    · intro hok
      cases hrun : (decryptFile env.gcm srcPath destPath dataKey).run (FileM.start input) with
      | ok u s =>
        obtain ⟨-, hframed, plains, hopens, -⟩ := decryptFile_eq_ok.mp hrun
        exact ⟨hframed, plains, hopens⟩
      | error e s =>
        rw [hrun] at hok
        cases hok
    · rintro ⟨hframed, plains, hopens⟩
      rw [decryptFile_eq_ok.mpr ⟨hpath, hframed, plains, hopens, rfl⟩]
      rfl
  obtain ⟨fs', hstore, hwrite⟩ := storeOutput_of_opened hopen hsize (FileM.outcome
    ((decryptFile env.gcm srcPath destPath dataKey).run (FileM.start input)))
  refine ⟨_, fs', ⟨_, hsize⟩, ?_, rfl, hwrite, hresult⟩
  simp only [decryptFileAt, if_neg hpath, hsrc, hopen, hread,
    decryptFile_output env.gcm dataKey hpath, hstore]

end FileSystem

/-- The task of `DecryptToDir` for a file is `DecryptFile` on its two paths. -/
theorem decryptItem_eq_decryptFileAt {env : ProxyEnv} {destPath : Bytes} {i : SourceItem}
    {fs : FileSystem} (dataKey : Bytes) (h128 : FillsBuffer env.gcm.aes128)
    (h256 : FillsBuffer env.gcm.aes256) (hsrc : env.resolve i.path = i.loc)
    (hdest : env.resolve (pathAppend destPath (relText (decLocation i.rel))) =
      i.decDest env destPath)
    (hapart : i.loc ≠ i.decDest env destPath) (hdots : isDots (stem i.name) = false) :
    decryptItem env destPath dataKey i fs =
      decryptFileAt env i.path (pathAppend destPath (relText (decLocation i.rel))) dataKey fs := by
  set outPath := pathAppend destPath (relText (decLocation i.rel)) with hout
  have hpath : i.path ≠ outPath := by
    intro heq
    rw [← hsrc, ← hdest, heq] at hapart
    exact hapart rfl
  simp only [decryptFileAt, if_neg hpath, hsrc, hdest]
  cases hc : fs.fileAt i.loc with
  | none => simp only [decryptItem, hc]
  | some c =>
    have hitem : decryptItem env destPath dataKey i fs =
        storeOutput fs (i.decDest env destPath) (some (writtenPlain env.gcm dataKey c.bytes))
          (FileM.outcome ((decryptFile env.gcm i.path outPath dataKey).run
            (FileM.start c.bytes))) := by
      rw [← decryptFile_output env.gcm dataKey hpath c.bytes]
      simp only [decryptItem, hc, hdots, Bool.false_eq_true, if_false, ← hout]
      cases (decryptFile env.gcm i.path outPath dataKey).run (FileM.start c.bytes) <;> rfl
    have hsize : (writtenPlain env.gcm dataKey c.bytes).length < 2 ^ 63 :=
      lt_of_le_of_lt (writtenPlain_length h128 h256 c.bytes) c.size
    rw [hitem]
    cases hopen : fs.writeFile (i.decDest env destPath) emptyFile with
    | none => rw [storeOutput_of_unopened hopen hsize]
    | some opened =>
      have hread : opened.fileAt i.loc = some c := by
        rw [FileTree.fileAt_writeFile hopen, if_neg hapart, hc]
      obtain ⟨fs', hstore, hwrite⟩ := storeOutput_of_opened hopen hsize (FileM.outcome
        ((decryptFile env.gcm i.path outPath dataKey).run (FileM.start c.bytes)))
      simp only [hread, Option.elim_some, decryptFile_output env.gcm dataKey hpath, hstore]
      exact storeOutput_of_writeFile hwrite _

theorem decryptFileAt_fails {env : ProxyEnv} {srcPath destPath : Bytes} {fs : FileSystem}
    (dataKey : Bytes) (h128 : FillsBuffer env.gcm.aes128)
    (h256 : FillsBuffer env.gcm.aes256) (hpath : srcPath ≠ destPath) {c : FileContent}
    (hsrc : fs.fileAt (env.resolve srcPath) = some c)
    (hdir : fs.node (env.resolve destPath).dropLast = some .dir)
    (hroom : fs.node (env.resolve destPath) = none ∨
      ∃ c', fs.node (env.resolve destPath) = some (.file c'))
    (hnot : ¬ FullyOpens env.gcm dataKey (inputBytes env srcPath destPath fs)) :
    ∃ e fs' left, decryptFileAt env srcPath destPath dataKey fs = (.error e, fs') ∧
      left.bytes = writtenPlain env.gcm dataKey (inputBytes env srcPath destPath fs) ∧
      fs'.fileAt (env.resolve destPath) = some left := by
  obtain ⟨opened, hopen⟩ := FileTree.exists_writeFile emptyFile hdir hroom
  obtain ⟨result, fs', left, hrun, hleft, hwrite, hok⟩ :=
    decryptFileAt_of_opened dataKey h128 h256 hpath hsrc hopen
  have hafter : fs'.fileAt (env.resolve destPath) = some left := by
    rw [FileTree.fileAt_writeFile hwrite, if_pos rfl]
  cases result with
  | ok u => exact absurd (hok.mp rfl) hnot
  | error e => exact ⟨e, fs', left, hrun, hleft, hafter⟩

/-- A failure does no harm: nothing was opened for writing, or the destination was a file of just
    the bytes that are written before the failure. -/
def SparesDest (env : ProxyEnv) (srcPath destPath dataKey : Bytes) (fs : FileSystem) : Prop :=
  srcPath = destPath ∨ fs.fileAt (env.resolve srcPath) = none ∨
    fs.writeFile (env.resolve destPath) emptyFile = none ∨
    (fs.fileAt (env.resolve destPath)).map FileContent.bytes =
      some (writtenPlain env.gcm dataKey (inputBytes env srcPath destPath fs))

/-- A decryption that fails leaves the destination as it was exactly if `SparesDest`. -/
theorem decryptFileAt_keepsDest_iff (env : ProxyEnv) (h128 : FillsBuffer env.gcm.aes128)
    (h256 : FillsBuffer env.gcm.aes256) (srcPath destPath dataKey : Bytes) (fs : FileSystem) :
    ((∃ e, (decryptFileAt env srcPath destPath dataKey fs).1 = .error e) →
        (decryptFileAt env srcPath destPath dataKey fs).2.node (env.resolve destPath) =
          fs.node (env.resolve destPath)) ↔
      FullyOpens env.gcm dataKey (inputBytes env srcPath destPath fs) ∨
        SparesDest env srcPath destPath dataKey fs := by
  by_cases hpath : srcPath = destPath
  · simp [decryptFileAt, SparesDest, hpath]
  cases hsrc : fs.fileAt (env.resolve srcPath) with
  | none => simp [decryptFileAt, SparesDest, hpath, hsrc]
  | some c =>
    cases hopen : fs.writeFile (env.resolve destPath) emptyFile with
    | none => simp [decryptFileAt, SparesDest, hpath, hsrc, hopen]
    | some opened =>
      obtain ⟨result, fs', left, hrun, hleft, hwrite, hok⟩ :=
        decryptFileAt_of_opened dataKey h128 h256 hpath hsrc hopen
      -- Both files are open, so the destination holds `left` and nothing else.
      have hafter : fs'.node (env.resolve destPath) = some (.file left) := by
        rw [FileTree.node_writeFile hwrite, if_pos rfl]
      simp only [hrun, hafter, SparesDest, hpath, hsrc, hopen, reduceCtorEq, false_or, ← hleft]
      constructor
      · intro hkeeps
        cases hresult : result with
        | ok u => exact .inl (hok.mp hresult)
        | error e =>
          have hnode := hkeeps ⟨e, hresult⟩
          rw [FileTree.fileAt_eq_some.mpr hnode.symm]
          exact .inr rfl
      · rintro (hopens | hsame) ⟨e, herror⟩
        · rw [hok.mpr hopens] at herror
          cases herror
        · obtain ⟨c', hc', hbytes⟩ := Option.map_eq_some_iff.mp hsame
          rw [FileContent.ext hbytes] at hc'
          exact (FileTree.fileAt_eq_some.mp hc').symm

/-! ## Two failures -/

/-- A cipher that opens what has a tag of zeros. -/
def zeroTagGcm : GcmCrypto := { plainGcm with
  decrypt := fun _ _ ciphertext _ mac =>
    if mac = List.replicate 16 0 then .ok ciphertext
    else .error ⟨.runtimeError, str "tag mismatch"⟩ }

theorem fillsBuffer_zeroTagGcm : FillsBuffer zeroTagGcm := by
  intro _ _ _ _ _ _ h
  simp only [zeroTagGcm] at h
  split at h
  · cases h
    rfl
  · cases h

def zeroTagEnv : ProxyEnv := { directEnv with gcm := ⟨zeroTagGcm, zeroTagGcm⟩ }

def goodBlock : Bytes := sealBlock zeroTagGcm directKey zeroIv (str "a")

/-- The same block with another tag. -/
def badBlock : Bytes := goodBlock.set 34 1

theorem goodBlock_length : goodBlock.length = 67 := sealBlock_length _ _ _ _

theorem badBlock_length : badBlock.length = 67 := by
  rw [badBlock, List.length_set, goodBlock_length]

theorem goodBlock_opens : decryptDataBlock zeroTagEnv.gcm goodBlock directKey = .ok (str "a") :=
  decryptDataBlock_sealBlock rfl rfl

theorem badBlock_fails : ∃ e, decryptDataBlock zeroTagEnv.gcm badBlock directKey = .error e :=
  ⟨_, rfl⟩

theorem tamperedFile_length :
    (fileHeader 2 67 ++ (goodBlock ++ badBlock)).length = 154 := by
  rw [List.length_append, List.length_append, fileHeader_length, goodBlock_length, badBlock_length]
  rfl

def tamperedFile : FileContent :=
  ⟨fileHeader 2 67 ++ (goodBlock ++ badBlock), by rw [tamperedFile_length]; decide⟩

theorem framed_tamperedFile : Framed tamperedFile.bytes := by
  have hcnt : packetCnt tamperedFile.bytes = 2 := packetCnt_header (by decide) _ _
  have hlen : blockLen tamperedFile.bytes = 67 := blockLen_header (by decide) _ _
  apply framed_iff_and.mpr
  rw [hcnt, hlen, show tamperedFile.bytes.length = 154 from tamperedFile_length]
  decide

theorem filePieces_tamperedFile : filePieces tamperedFile.bytes = [goodBlock, badBlock] := by
  have hcnt : packetCnt tamperedFile.bytes = 2 := packetCnt_header (by decide) _ _
  have hlen : blockLen tamperedFile.bytes = 67 := blockLen_header (by decide) _ _
  have hcut : cut 67 1 ([goodBlock].flatten ++ badBlock) = [goodBlock] ++ [badBlock] :=
    cut_flatten_append badBlock
      (show ∀ piece ∈ [goodBlock], piece.length = 67 by simp [goodBlock_length])
  rw [filePieces, hcnt, hlen, tamperedFile, List.drop_left' (fileHeader_length 2 67)]
  simpa using hcut

theorem tamperedFile_written :
    writtenPlain zeroTagEnv.gcm directKey tamperedFile.bytes = str "a" := by
  obtain ⟨e, hbad⟩ := badBlock_fails
  rw [writtenPlain, if_pos framed_tamperedFile, filePieces_tamperedFile]
  simp [openedFront, goodBlock_opens, hbad]

theorem tamperedFile_not_fullyOpens :
    ¬ FullyOpens zeroTagEnv.gcm directKey tamperedFile.bytes := by
  rintro ⟨-, plains, hopens⟩
  obtain ⟨e, hbad⟩ := badBlock_fails
  rw [filePieces_tamperedFile, Opens, List.forall₂_cons_left_iff] at hopens
  obtain ⟨_, _, -, hrest, -⟩ := hopens
  obtain ⟨_, _, hopen, -, -⟩ := List.forall₂_cons_left_iff.mp hrest
  rw [hbad] at hopen
  cases hopen

/-- The input `a.enc` in the root directory, with no file `a` beside it. -/
def besideTree (input : FileContent) : FileSystem := treeOf [([str "a.enc"], input)]

def overTree (input old : FileContent) : FileSystem :=
  treeOf [([str "a.enc"], input), ([str "a"], old)]

theorem fileY_not_framed : ¬ Framed fileY.bytes := by
  intro hframed
  exact absurd hframed.header (by decide)

/-- A file that is no encrypted file empties the destination. -/
theorem fileY_empties_dest (old : FileContent) :
    ∃ e fs', decryptFileAt zeroTagEnv (str "/a.enc") (str "/a") directKey
        (overTree fileY old) = (.error e, fs') ∧
      (overTree fileY old).fileAt [str "a"] = some old ∧
      fs'.fileAt [str "a"] = some emptyFile := by
  have hfills := fillsBuffer_zeroTagGcm
  have hinput : inputBytes zeroTagEnv (str "/a.enc") (str "/a") (overTree fileY old) =
      fileY.bytes := rfl
  have hsrc : (overTree fileY old).fileAt (zeroTagEnv.resolve (str "/a.enc")) = some fileY := rfl
  have hold : (overTree fileY old).fileAt [str "a"] = some old := rfl
  obtain ⟨e, fs', left, hrun, hleft, hafter⟩ := decryptFileAt_fails directKey hfills hfills
    (show str "/a.enc" ≠ str "/a" by decide) hsrc (overTree fileY old).root
    (.inr ⟨_, FileTree.fileAt_eq_some.mp hold⟩)
    (fun hopens => fileY_not_framed (hinput ▸ hopens.1))
  rw [hinput, writtenPlain, if_neg fileY_not_framed] at hleft
  refine ⟨e, fs', hrun, hold, ?_⟩
  rwa [FileContent.ext (show left.bytes = emptyFile.bytes from hleft)] at hafter

/-- A file that is no encrypted file costs the destination its content, and a wrong tag in the
    second block leaves the first one under the final name. -/
theorem failedDecryption_changes_dest :
    (∃ e fs', decryptFileAt zeroTagEnv (str "/a.enc") (str "/a") directKey
        (overTree fileY fileX) = (.error e, fs') ∧
      (overTree fileY fileX).fileAt [str "a"] = some fileX ∧
      fs'.fileAt [str "a"] = some emptyFile) ∧
    ∃ e fs' left, decryptFileAt zeroTagEnv (str "/a.enc") (str "/a") directKey
        (besideTree tamperedFile) = (.error e, fs') ∧
      (besideTree tamperedFile).node [str "a"] = none ∧
      fs'.fileAt [str "a"] = some left ∧ left.bytes = str "a" := by
  refine ⟨fileY_empties_dest fileX, ?_⟩
  have hfills := fillsBuffer_zeroTagGcm
  have hinput : inputBytes zeroTagEnv (str "/a.enc") (str "/a") (besideTree tamperedFile) =
      tamperedFile.bytes := rfl
  have hsrc : (besideTree tamperedFile).fileAt (zeroTagEnv.resolve (str "/a.enc")) =
      some tamperedFile := rfl
  have hnone : (besideTree tamperedFile).node [str "a"] = none := rfl
  obtain ⟨e, fs', left, hrun, hleft, hafter⟩ := decryptFileAt_fails directKey hfills hfills
    (show str "/a.enc" ≠ str "/a" by decide) hsrc (besideTree tamperedFile).root
    (.inl hnone) (hinput ▸ tamperedFile_not_fullyOpens)
  rw [hinput, tamperedFile_written] at hleft
  exact ⟨e, fs', left, hrun, hnone, hafter, hleft⟩

/-- A destination that is empty already has nothing to lose. -/
theorem failedDecryption_spares_empty :
    (∃ e, (decryptFileAt zeroTagEnv (str "/a.enc") (str "/a") directKey
        (overTree fileY emptyFile)).1 = .error e) ∧
      (decryptFileAt zeroTagEnv (str "/a.enc") (str "/a") directKey
          (overTree fileY emptyFile)).2.node [str "a"] = some (.file emptyFile) := by
  have hfills := fillsBuffer_zeroTagGcm
  have hspares : SparesDest zeroTagEnv (str "/a.enc") (str "/a") directKey
      (overTree fileY emptyFile) := by
    refine .inr (.inr (.inr ?_))
    rw [show inputBytes zeroTagEnv (str "/a.enc") (str "/a") (overTree fileY emptyFile) =
      fileY.bytes from rfl, writtenPlain, if_neg fileY_not_framed]
    rfl
  have herror : ∃ e, (decryptFileAt zeroTagEnv (str "/a.enc") (str "/a") directKey
      (overTree fileY emptyFile)).1 = .error e := by
    obtain ⟨e, fs', hrun, -, -⟩ := fileY_empties_dest emptyFile
    exact ⟨e, by rw [hrun]⟩
  refine ⟨herror, ?_⟩
  exact (decryptFileAt_keepsDest_iff zeroTagEnv hfills hfills (str "/a.enc") (str "/a") directKey
    (overTree fileY emptyFile)).mpr (.inr hspares) herror

end TrustFlow.Proxy
