import TrustFlow.Data.Lists
import TrustFlow.Proxy.DataBlock
import Mathlib.Data.List.Forall2

/-! # Encrypted files

`EncryptFile` and `DecryptFile` of `crypto_util.cc`.  A file is a header of 20
bytes and a sequence of data blocks, all of one length but the last.  The encoder
takes its cuts from the length of the plaintext; the decoder recomputes them from
the packet count, the block length and the length of the file. -/

namespace TrustFlow.Proxy

def kVersion : Nat := 1
def kSchema : Nat := 1
def kVersionBytes : Nat := 4
def kSchemaBytes : Nat := 4
def kBlockBytes : Nat := 0x2000
def kPacketCntBytes : Nat := 8
def kBlockLenBytes : Nat := 4

def headerLen : Nat := kVersionBytes + kSchemaBytes + kPacketCntBytes + kBlockLenBytes

def blockDataLen : Nat := kBlockBytes - blockHeaderLen

/-! ## The encoder -/

def encryptBlocks (gcm : GcmLibrary) (ivs : Nat → Blob kIvBytes) (blockLen : Nat)
    (dataKey : Bytes) : Nat → FileM Unit
  | 0 => pure ()
  | n + 1 => do
    encryptDataBlock gcm ivs blockLen dataKey
    encryptBlocks gcm ivs blockLen dataKey n

def packetCntOf (fileLen : Nat) : Nat :=
  fileLen / blockDataLen + if fileLen % blockDataLen ≠ 0 then 1 else 0

def encryptFile (gcm : GcmLibrary) (ivs : Nat → Blob kIvBytes)
    (srcPath destPath dataKey : Bytes) : FileM Unit := do
  enforce (srcPath ≠ destPath) (str "Inplace encryption is not allowed")
  let fileLen ← FileM.getLength
  let packetCnt := packetCntOf fileLen
  enforce (1 ≤ packetCnt) (str "Pack cnt less than 1")
  FileM.openOutput
  FileM.write (leBytes kVersionBytes kVersion)
  FileM.write (leBytes kSchemaBytes kSchema)
  FileM.write (leBytes kPacketCntBytes packetCnt)
  FileM.write (leBytes kBlockLenBytes kBlockBytes)
  encryptBlocks gcm ivs blockDataLen dataKey (packetCnt - 1)
  -- The length of the last block is passed as a 32-bit number.
  encryptDataBlock gcm ivs ((fileLen - (packetCnt - 1) * blockDataLen) % 2 ^ 32) dataKey

/-! ## The decoder -/

def resize (buf : Bytes) (n : Nat) : Bytes := buf.take n ++ List.replicate (n - buf.length) 0

theorem resize_length (buf : Bytes) (n : Nat) : (resize buf n).length = n := by
  simp only [resize, List.length_append, List.length_take, List.length_replicate]
  omega

/-- The loop over the blocks of full length; the buffer is reused. -/
def decryptBlocks (gcm : GcmLibrary) (dataKey : Bytes) : Nat → Bytes → FileM Bytes
  | 0, buf => pure buf
  | n + 1, buf => do
    let buf ← FileM.read buf
    let decryptedData ← decryptDataBlock gcm buf dataKey
    FileM.write decryptedData
    decryptBlocks gcm dataKey n buf

def decryptLastBlock (gcm : GcmLibrary) (dataKey : Bytes) (len : Nat) (buf : Bytes) :
    FileM Unit := do
  let buf ← FileM.read (resize buf len)
  let decryptedData ← decryptDataBlock gcm buf dataKey
  FileM.write decryptedData

/-- The packet count and the block length, with the buffer they were read into. -/
def parseFileHeader : FileM (Nat × Nat × Bytes) := do
  FileM.seekg (kVersionBytes + kSchemaBytes)
  let buf ← FileM.read (List.replicate kPacketCntBytes 0)
  let packetCnt ← bytes2Int 8 buf
  enforce (1 ≤ packetCnt) (str "Packet cnt is less than 1")
  let buf ← FileM.read (resize buf kBlockLenBytes)
  let blockLen ← bytes2Int 4 buf
  return (packetCnt, blockLen, buf)

/-- The overflow and length checks; the products are of type `uint64_t`. -/
def checkLengths (fileLen packetCnt blockLen : Nat) : Except Exn Unit := do
  enforce (blockLen ≠ 0) (str "block len should not be 0")
  enforce ((packetCnt - 1) * blockLen % 2 ^ 64 / blockLen = packetCnt - 1)
    (str "uint64 overflow in DecryptFile")
  enforce (packetCnt * blockLen % 2 ^ 64 / blockLen = packetCnt)
    (str "uint64 overflow in DecryptFile")
  enforce ((packetCnt - 1) * blockLen % 2 ^ 64 ≤ fileLen - headerLen)
    (str "N - 1 Data block len is more than required file length")
  enforce (fileLen - headerLen ≤ blockLen * packetCnt % 2 ^ 64)
    (str "N Data block len is less than required file length")

def decryptFile (gcm : GcmLibrary) (srcPath destPath dataKey : Bytes) : FileM Unit := do
  enforce (srcPath ≠ destPath) (str "Inplace decryption is not allowed")
  FileM.openOutput
  let fileLen ← FileM.getLength
  enforce (headerLen < fileLen)
    (str "File length " ++ decimal fileLen ++ str " is less than required header length " ++
      decimal headerLen)
  let (packetCnt, blockLen, buf) ← parseFileHeader
  checkLengths fileLen packetCnt blockLen
  let buf ← decryptBlocks gcm dataKey (packetCnt - 1) (resize buf blockLen)
  decryptLastBlock gcm dataKey (fileLen - headerLen - (packetCnt - 1) * blockLen % 2 ^ 64) buf

/-! ## What the encoder writes -/

/-- The blocks for consecutive pieces of plaintext, with the IVs from number `i` on. -/
def sealBlocks (cipher : GcmCrypto) (dataKey : Bytes) (ivs : Nat → Blob kIvBytes) :
    Nat → List Bytes → List Bytes
  | _, [] => []
  | i, piece :: pieces =>
    sealBlock cipher dataKey (ivs i) piece :: sealBlocks cipher dataKey ivs (i + 1) pieces

def fileHeader (packetCnt blockLen : Nat) : Bytes :=
  leBytes kVersionBytes kVersion ++ leBytes kSchemaBytes kSchema ++
    leBytes kPacketCntBytes packetCnt ++ leBytes kBlockLenBytes blockLen

def payloads (plaintext : Bytes) : List Bytes :=
  cut blockDataLen (packetCntOf plaintext.length - 1) plaintext

def encryptedFile (cipher : GcmCrypto) (dataKey : Bytes) (ivs : Nat → Blob kIvBytes)
    (plaintext : Bytes) : Bytes :=
  fileHeader (packetCntOf plaintext.length) kBlockBytes ++
    (sealBlocks cipher dataKey ivs 0 (payloads plaintext)).flatten

theorem blockDataLen_eq : blockDataLen = 8126 := rfl

theorem sealBlocks_length (cipher : GcmCrypto) (dataKey : Bytes) (ivs : Nat → Blob kIvBytes)
    (i : Nat) (pieces : List Bytes) :
    (sealBlocks cipher dataKey ivs i pieces).length = pieces.length := by
  induction pieces generalizing i with
  | nil => rfl
  | cons piece pieces ih => rw [sealBlocks, List.length_cons, ih, List.length_cons]

theorem packetCntOf_bounds {len : Nat} (h : 1 ≤ len) :
    1 ≤ packetCntOf len ∧ (packetCntOf len - 1) * blockDataLen < len ∧
      len ≤ (packetCntOf len - 1) * blockDataLen + blockDataLen := by
  rw [packetCntOf, blockDataLen_eq]
  split <;> omega

/-- The loop of the encoder and the last block together seal the pieces of what is left. -/
theorem encryptBlocks_run {gcm : GcmLibrary} (ivs : Nat → Blob kIvBytes) {dataKey : Bytes}
    {cipher : GcmCrypto} (hcipher : gcmOf gcm dataKey = .ok cipher) {b last : Nat} :
    ∀ (n : Nat) {s : FileStreams} {written : Bytes},
      s.pos + n * b + last = s.input.length → s.output = some written →
      (encryptBlocks gcm ivs b dataKey n >>= fun _ =>
        encryptDataBlock gcm ivs last dataKey).run s = .ok () { s with
          pos := s.input.length
          output := some (written ++
            (sealBlocks cipher dataKey ivs s.drawn (cut b n (s.input.drop s.pos))).flatten)
          drawn := s.drawn + n + 1 } := by
  -- Induction on the full blocks that are left; the rest of the input is what they cover.
  intro n
  induction n with
  | zero =>
    intro s written hlen houtput
    have hrest : slice s.input s.pos last = s.input.drop s.pos :=
      List.take_of_length_le (by rw [List.length_drop]; omega)
    rw [encryptBlocks, pure_bind, encryptDataBlock_run ivs hcipher (by omega) houtput, hrest]
    simp only [cut, sealBlocks, List.flatten_cons, List.flatten_nil, List.append_nil]
    rw [show s.pos + last = s.input.length by omega]
  | succ n ih =>
    intro s written hlen houtput
    rw [Nat.succ_mul] at hlen
    have hstep := encryptDataBlock_run ivs hcipher (show s.pos + b ≤ _ by omega) houtput
    rw [encryptBlocks, bind_assoc, FileM.bind_of_ok hstep, ih (by simp only; omega) rfl]
    simp only [cut, sealBlocks, List.flatten_cons, List.append_assoc, List.drop_drop, slice,
      Nat.add_right_comm, Nat.add_assoc]

theorem encryptFile_run {gcm : GcmLibrary} (ivs : Nat → Blob kIvBytes)
    {srcPath destPath dataKey plaintext : Bytes} {cipher : GcmCrypto}
    (hpath : srcPath ≠ destPath) (hcipher : gcmOf gcm dataKey = .ok cipher)
    (hlen : 1 ≤ plaintext.length) :
    ∃ s, (encryptFile gcm ivs srcPath destPath dataKey).run (FileM.start plaintext) = .ok () s ∧
      s.output = some (encryptedFile cipher dataKey ivs plaintext) := by
  obtain ⟨hcnt, hfront, hback⟩ := packetCntOf_bounds hlen
  -- The last piece is at most one block long, so its 32-bit length loses nothing.
  have hlast : (plaintext.length - (packetCntOf plaintext.length - 1) * blockDataLen) % 2 ^ 32 =
      plaintext.length - (packetCntOf plaintext.length - 1) * blockDataLen := by
    apply Nat.mod_eq_of_lt
    rw [blockDataLen_eq] at hback ⊢
    omega
  rw [encryptFile, FileM.bind_of_ok (FileM.lift_of_ok (enforce_pos _ hpath) _),
    FileM.bind_of_ok (FileM.run_getLength _), FileM.start,
    FileM.bind_of_ok (FileM.lift_of_ok (enforce_pos _ hcnt) _),
    FileM.bind_of_ok (FileM.run_openOutput _)]
  simp only [FileM.bind_of_ok (FileM.run_write _ _)]
  rw [hlast, encryptBlocks_run ivs hcipher _ (by simp only; omega) rfl]
  refine ⟨_, rfl, ?_⟩
  simp only [encryptedFile, fileHeader, payloads, List.nil_append, List.drop_zero]

theorem encryptFile_eq_ok {gcm : GcmLibrary} {ivs : Nat → Blob kIvBytes}
    {srcPath destPath dataKey plaintext : Bytes} {s : FileStreams}
    (h : (encryptFile gcm ivs srcPath destPath dataKey).run (FileM.start plaintext) = .ok () s) :
    ∃ cipher, gcmOf gcm dataKey = .ok cipher ∧ 1 ≤ plaintext.length ∧
      s.output = some (encryptedFile cipher dataKey ivs plaintext) := by
  -- The run shows which checks passed, and `encryptFile_run` what such a run leaves.
  have hrun := h
  simp only [encryptFile, FileM.enforce_bind_eq_ok, FileM.bind_of_ok (FileM.run_getLength _),
    FileM.bind_of_ok (FileM.run_openOutput _), FileM.bind_of_ok (FileM.run_write _ _)] at h
  obtain ⟨hpath, hcnt, h⟩ := h
  obtain ⟨_, _, _, h⟩ := FileM.bind_eq_ok.mp h
  obtain ⟨cipher, hcipher⟩ := gcmOf_of_encryptDataBlock h
  have hpos : 1 ≤ plaintext.length := by
    by_contra hempty
    rw [Nat.not_le, Nat.lt_one_iff] at hempty
    rw [FileM.start, hempty] at hcnt
    exact absurd hcnt (by decide)
  obtain ⟨s', hrun', houtput⟩ := encryptFile_run ivs hpath hcipher hpos
  rw [hrun'] at hrun
  cases hrun
  exact ⟨cipher, hcipher, hpos, houtput⟩

/-! ## What the decoder accepts -/

def packetCnt (file : Bytes) : Nat := leNat (slice file 8 8)

def blockLen (file : Bytes) : Nat := leNat (slice file 16 4)

/-- The header fits the length of the file, and no product of its numbers overflows. -/
structure Framed (file : Bytes) : Prop where
  header : headerLen < file.length
  packets : 1 ≤ packetCnt file
  blocks : 1 ≤ blockLen file
  noOverflow : packetCnt file * blockLen file < 2 ^ 64
  front : (packetCnt file - 1) * blockLen file ≤ file.length - headerLen
  back : file.length - headerLen ≤ packetCnt file * blockLen file

def filePieces (file : Bytes) : List Bytes :=
  cut (blockLen file) (packetCnt file - 1) (file.drop headerLen)

/-- Every piece opens, to the plaintext at its place in `plains`. -/
def Opens (gcm : GcmLibrary) (dataKey : Bytes) (pieces plains : List Bytes) : Prop :=
  List.Forall₂ (fun piece plain => decryptDataBlock gcm piece dataKey = .ok plain) pieces plains

/-- Dividing a wrapped product by a factor gives the other one back only if nothing wrapped. -/
theorem mul_mod_div_eq_iff {x b : Nat} (hb : 1 ≤ b) :
    x * b % 2 ^ 64 / b = x ↔ x * b < 2 ^ 64 := by
  constructor
  · intro h
    have hle : x * b ≤ x * b % 2 ^ 64 := by
      have hdiv := Nat.div_mul_le_self (x * b % 2 ^ 64) b
      rwa [h] at hdiv
    exact lt_of_le_of_lt hle (Nat.mod_lt _ (by decide))
  · intro h
    rw [Nat.mod_eq_of_lt h, Nat.mul_div_cancel _ hb]

/-- The last block reads what is left of the input. -/
theorem decryptLastBlock_run (gcm : GcmLibrary) (dataKey buf : Bytes) {last : Nat}
    {s : FileStreams} (hlen : s.pos + last = s.input.length) :
    (decryptLastBlock gcm dataKey last buf).run s = (do
      let decryptedData ← decryptDataBlock gcm (s.input.drop s.pos) dataKey
      FileM.write decryptedData : FileM Unit).run { s with pos := s.input.length } := by
  have hbuf : (resize buf last).length = last := resize_length buf last
  have hread := FileM.run_read (s := s) (show s.pos + (resize buf last).length ≤ _ by omega)
  have hrest : slice s.input s.pos last = s.input.drop s.pos :=
    List.take_of_length_le (by rw [List.length_drop]; omega)
  rw [hbuf, hlen, hrest] at hread
  rw [decryptLastBlock, FileM.bind_of_ok hread]

/-- A round of the loop reads as many bytes as the buffer has. -/
theorem decryptBlocks_succ_run {gcm : GcmLibrary} {dataKey buf : Bytes} {b : Nat}
    {s : FileStreams} (hbuf : buf.length = b) (hlen : s.pos + b ≤ s.input.length) (n : Nat)
    (rest : Bytes → FileM Unit) :
    (decryptBlocks gcm dataKey (n + 1) buf >>= rest).run s = (do
      let decryptedData ← decryptDataBlock gcm (slice s.input s.pos b) dataKey
      FileM.write decryptedData
      decryptBlocks gcm dataKey n (slice s.input s.pos b) >>= rest : FileM Unit).run
        { s with pos := s.pos + b } := by
  subst hbuf
  rw [decryptBlocks, bind_assoc, FileM.bind_of_ok (FileM.run_read hlen)]
  simp only [bind_assoc]

theorem cut_drop_succ (b n : Nat) (input : Bytes) (pos : Nat) :
    cut b (n + 1) (input.drop pos) = slice input pos b :: cut b n (input.drop (pos + b)) := by
  rw [cut, List.drop_drop, slice]

theorem decryptLastBlock_eq_ok {gcm : GcmLibrary} {dataKey buf written : Bytes} {last : Nat}
    {s s' : FileStreams} (hlen : s.pos + last = s.input.length)
    (houtput : s.output = some written) :
    (decryptLastBlock gcm dataKey last buf).run s = .ok () s' ↔
      ∃ plain, decryptDataBlock gcm (s.input.drop s.pos) dataKey = .ok plain ∧
        s' = { s with pos := s.input.length, output := some (written ++ plain) } := by
  rw [decryptLastBlock_run gcm dataKey buf hlen]
  simp only [FileM.lift_bind_eq_ok, FileM.run_write, houtput]
  constructor
  · rintro ⟨plain, hplain, h⟩
    cases h
    exact ⟨plain, hplain, rfl⟩
  · rintro ⟨plain, hplain, rfl⟩
    exact ⟨plain, hplain, rfl⟩

theorem decryptBlocks_eq_ok {gcm : GcmLibrary} {dataKey : Bytes} {b last : Nat} :
    ∀ (n : Nat) {buf written : Bytes} {s s' : FileStreams}, buf.length = b →
      s.pos + n * b + last = s.input.length → s.output = some written →
      ((decryptBlocks gcm dataKey n buf >>= decryptLastBlock gcm dataKey last).run s =
          .ok () s' ↔
        ∃ plains, Opens gcm dataKey (cut b n (s.input.drop s.pos)) plains ∧
          s' = { s with pos := s.input.length, output := some (written ++ plains.flatten) }) := by
  -- As for the encoder; the buffer keeps the block length from one round to the next.
  intro n
  induction n with
  | zero =>
    intro buf written s s' hbuf hlen houtput
    rw [decryptBlocks, pure_bind, decryptLastBlock_eq_ok (by omega) houtput]
    simp only [cut, Opens, List.forall₂_cons_left_iff, List.forall₂_nil_left_iff]
    constructor
    · rintro ⟨plain, hplain, rfl⟩
      exact ⟨[plain], ⟨plain, [], hplain, rfl, rfl⟩, by simp⟩
    · rintro ⟨_, ⟨plain, _, hplain, rfl, rfl⟩, rfl⟩
      exact ⟨plain, hplain, by simp⟩
  | succ n ih =>
    intro buf written s s' hbuf hlen houtput
    rw [Nat.succ_mul] at hlen
    have hpiece : (slice s.input s.pos b).length = b := slice_length (by omega)
    rw [decryptBlocks_succ_run hbuf (by omega), cut_drop_succ]
    simp only [FileM.lift_bind_eq_ok, Opens, List.forall₂_cons_left_iff]
    constructor
    · rintro ⟨plain, hplain, h⟩
      rw [FileM.bind_of_ok (FileM.run_write _ _), houtput] at h
      obtain ⟨plains, hplains, rfl⟩ := (ih hpiece (by simp only; omega) rfl).mp h
      exact ⟨_, ⟨plain, plains, hplain, hplains, rfl⟩, by simp⟩
    · rintro ⟨_, ⟨plain, plains, hplain, hplains, rfl⟩, rfl⟩
      refine ⟨plain, hplain, ?_⟩
      rw [FileM.bind_of_ok (FileM.run_write _ _), houtput]
      exact (ih hpiece (by simp only; omega) rfl).mpr ⟨plains, hplains, by simp⟩

theorem parseFileHeader_eq_ok {s s' : FileStreams} {header : Nat × Nat × Bytes}
    (h : headerLen < s.input.length) :
    parseFileHeader.run s = .ok header s' ↔
      1 ≤ packetCnt s.input ∧
        header = (packetCnt s.input, blockLen s.input, slice s.input 16 4) ∧
        s' = { s with pos := headerLen } := by
  have hlen : 20 < s.input.length := h
  have hcnt : bytes2Int 8 (slice s.input 8 8) = .ok (packetCnt s.input) :=
    bytes2Int_of_le (List.length_take_le 8 _)
  have hblock : bytes2Int 4 (slice s.input 16 4) = .ok (blockLen s.input) :=
    bytes2Int_of_le (List.length_take_le 4 _)
  have hread₁ : (FileM.read (List.replicate kPacketCntBytes 0)).run
      { s with pos := kVersionBytes + kSchemaBytes } =
        .ok (slice s.input 8 8) { s with pos := 16 } :=
    FileM.run_read (s := { s with pos := 8 }) (show 8 + 8 ≤ s.input.length by omega)
  have hread₂ : (FileM.read (resize (slice s.input 8 8) kBlockLenBytes)).run { s with pos := 16 } =
      .ok (slice s.input 16 4) { s with pos := headerLen } := by
    have hread := FileM.run_read (s := { s with pos := 16 })
      (show 16 + (resize (slice s.input 8 8) kBlockLenBytes).length ≤ s.input.length by
        rw [resize_length, kBlockLenBytes]
        omega)
    rwa [resize_length] at hread
  rw [parseFileHeader, FileM.bind_of_ok (FileM.run_seekg _ _), FileM.bind_of_ok hread₁,
    FileM.bind_of_ok (FileM.lift_of_ok hcnt _)]
  by_cases hpackets : 1 ≤ packetCnt s.input
  · rw [FileM.bind_of_ok (FileM.lift_of_ok (enforce_pos _ hpackets) _), FileM.bind_of_ok hread₂,
      FileM.bind_of_ok (FileM.lift_of_ok hblock _)]
    constructor
    · intro hok
      cases hok
      exact ⟨hpackets, rfl, rfl⟩
    · rintro ⟨_, rfl, rfl⟩
      rfl
  · simp only [FileM.enforce_bind_eq_ok, hpackets, false_and]

theorem Framed.front_lt {file : Bytes} (h : Framed file) :
    (packetCnt file - 1) * blockLen file < 2 ^ 64 :=
  lt_of_le_of_lt (Nat.mul_le_mul_right _ (Nat.sub_le _ _)) h.noOverflow

/-- The header, the full blocks and the last block, at the length computed for it, are the whole
    file. -/
theorem Framed.covers {file : Bytes} (h : Framed file) :
    headerLen + (packetCnt file - 1) * blockLen file +
      (file.length - headerLen - (packetCnt file - 1) * blockLen file % 2 ^ 64) = file.length := by
  have hheader := h.header
  have hfront := h.front
  rw [Nat.mod_eq_of_lt h.front_lt]
  omega

theorem framed_iff {file : Bytes} :
    Framed file ↔
      headerLen < file.length ∧ 1 ≤ packetCnt file ∧
        checkLengths file.length (packetCnt file) (blockLen file) = .ok () := by
  simp only [checkLengths, bind_eq_ok, enforce_eq_ok]
  constructor
  · intro h
    have hfront := h.front_lt
    refine ⟨h.header, h.packets, (), Nat.ne_of_gt h.blocks, (),
      (mul_mod_div_eq_iff h.blocks).mpr hfront, (),
      (mul_mod_div_eq_iff h.blocks).mpr h.noOverflow, (), ?_, ?_⟩
    · rw [Nat.mod_eq_of_lt hfront]
      exact h.front
    · rw [Nat.mul_comm, Nat.mod_eq_of_lt h.noOverflow]
      exact h.back
  · rintro ⟨hheader, hpackets, _, hblocks, _, hdiv, _, hdiv', _, hfront, hback⟩
    have hpos : 1 ≤ blockLen file := Nat.one_le_iff_ne_zero.mpr hblocks
    -- Once the divisions show that nothing wrapped, the checks are about the true products.
    rw [mul_mod_div_eq_iff hpos] at hdiv hdiv'
    rw [Nat.mod_eq_of_lt hdiv] at hfront
    rw [Nat.mul_comm, Nat.mod_eq_of_lt hdiv'] at hback
    exact ⟨hheader, hpackets, hpos, hdiv', hfront, hback⟩

/-- The decoder accepts exactly the framed files whose pieces all open, and writes their
    plaintexts in order. -/
theorem decryptFile_eq_ok {gcm : GcmLibrary} {srcPath destPath dataKey file : Bytes}
    {s : FileStreams} :
    (decryptFile gcm srcPath destPath dataKey).run (FileM.start file) = .ok () s ↔
      srcPath ≠ destPath ∧ Framed file ∧ ∃ plains, Opens gcm dataKey (filePieces file) plains ∧
        s = { input := file, pos := file.length, output := some plains.flatten, drawn := 0 } := by
  -- Behind the header both sides ask for the same pieces.
  have hbody : Framed file → ∀ buf, buf.length = blockLen file →
      ((decryptBlocks gcm dataKey (packetCnt file - 1) buf >>= decryptLastBlock gcm dataKey
          (file.length - headerLen - (packetCnt file - 1) * blockLen file % 2 ^ 64)).run
            { input := file, pos := headerLen, output := some [], drawn := 0 } = .ok () s ↔
        ∃ plains, Opens gcm dataKey (filePieces file) plains ∧
          s = { input := file, pos := file.length, output := some plains.flatten,
                drawn := 0 }) := by
    intro hframed buf hbuf
    have hcovers : (FileStreams.mk file headerLen (some []) 0).pos +
        (packetCnt file - 1) * blockLen file +
        (file.length - headerLen - (packetCnt file - 1) * blockLen file % 2 ^ 64) = file.length :=
      hframed.covers
    exact decryptBlocks_eq_ok _ hbuf hcovers rfl
  simp only [decryptFile, FileM.start, FileM.enforce_bind_eq_ok,
    FileM.bind_of_ok (FileM.run_openOutput _), FileM.bind_of_ok (FileM.run_getLength _)]
  constructor
  · rintro ⟨hpath, hheader, h⟩
    obtain ⟨_, _, hparse, h⟩ := FileM.bind_eq_ok.mp h
    obtain ⟨hpackets, rfl, rfl⟩ := (parseFileHeader_eq_ok hheader).mp hparse
    obtain ⟨_, hlengths, h⟩ := FileM.lift_bind_eq_ok.mp h
    have hframed := framed_iff.mpr ⟨hheader, hpackets, hlengths⟩
    exact ⟨hpath, hframed, (hbody hframed _ (resize_length _ _)).mp h⟩
  · rintro ⟨hpath, hframed, h⟩
    obtain ⟨hheader, hpackets, hlengths⟩ := framed_iff.mp hframed
    refine ⟨hpath, hheader, FileM.bind_eq_ok.mpr
      ⟨_, _, (parseFileHeader_eq_ok hheader).mpr ⟨hpackets, rfl, rfl⟩, ?_⟩⟩
    exact FileM.lift_bind_eq_ok.mpr
      ⟨(), hlengths, (hbody hframed _ (resize_length _ _)).mpr h⟩

end TrustFlow.Proxy
