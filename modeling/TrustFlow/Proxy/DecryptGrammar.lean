import TrustFlow.Proxy.FileRoundTrip

/-! # The grammar of encrypted files

Which files `DecryptFile` accepts, in terms of the bytes of the file alone, and
what its arithmetic on the header has established once it has accepted one. -/

namespace TrustFlow.Proxy

/-- `Decrypt` is handed a buffer of the ciphertext's length and fills it. -/
def FillsBuffer (cipher : GcmCrypto) : Prop :=
  ∀ key iv ciphertext aad mac plain,
    cipher.decrypt key iv ciphertext aad mac = .ok plain → plain.length = ciphertext.length

/-- What the cipher makes of a block, once the block is known to have its header. -/
def openBlock (cipher : GcmCrypto) (dataKey block : Bytes) : Except Exn Bytes :=
  cipher.decrypt dataKey (blockIv block) (block.drop blockHeaderLen) [] (blockMac block)

/-- An encrypted file: the header fits the length of the file, and every block has a block
    header and opens. -/
structure IsEncryptedFile (cipher : GcmCrypto) (dataKey file : Bytes) : Prop where
  framed : Framed file
  opens : ∀ block ∈ filePieces file, 66 ≤ block.length ∧
    ∃ plain, openBlock cipher dataKey block = .ok plain

/-- The 64-bit products and differences of `DecryptFile` are those of the natural numbers. -/
structure ExactArithmetic (fileLen packetCnt blockLen : Nat) : Prop where
  frontProduct : (packetCnt - 1) * blockLen % 2 ^ 64 = (packetCnt - 1) * blockLen
  product : packetCnt * blockLen % 2 ^ 64 = packetCnt * blockLen
  packetsLeft : 1 ≤ packetCnt
  bodyLeft : headerLen ≤ fileLen
  lastLeft : (packetCnt - 1) * blockLen ≤ fileLen - headerLen

/-! ## The blocks of a file -/

theorem filePieces_length {file : Bytes} (h : Framed file) :
    (filePieces file).length = packetCnt file := by
  rw [filePieces, cut_length, Nat.sub_add_cancel h.packets]

theorem filePieces_flatten (file : Bytes) : (filePieces file).flatten = file.drop headerLen :=
  cut_flatten _ _ _

theorem exactArithmetic_of_framed {file : Bytes} (h : Framed file) :
    ExactArithmetic file.length (packetCnt file) (blockLen file) where
  frontProduct := Nat.mod_eq_of_lt h.front_lt
  product := Nat.mod_eq_of_lt h.noOverflow
  packetsLeft := h.packets
  bodyLeft := h.header.le
  lastLeft := h.front

/-! ## What the blocks open to -/

section Opening

variable {gcm : GcmLibrary} {cipher : GcmCrypto} {dataKey : Bytes}

theorem decryptDataBlock_iff_openBlock (hcipher : gcmOf gcm dataKey = .ok cipher)
    {block plain : Bytes} :
    decryptDataBlock gcm block dataKey = .ok plain ↔
      66 ≤ block.length ∧ openBlock cipher dataKey block = .ok plain := by
  rw [decryptDataBlock_eq_ok]
  constructor
  · rintro ⟨hlen, cipher', hcipher', hopen⟩
    rw [hcipher] at hcipher'
    cases hcipher'
    exact ⟨hlen, hopen⟩
  · rintro ⟨hlen, hopen⟩
    exact ⟨hlen, cipher, hcipher, hopen⟩

theorem exists_opens_iff (hcipher : gcmOf gcm dataKey = .ok cipher) {blocks : List Bytes} :
    (∃ plains, Opens gcm dataKey blocks plains) ↔
      ∀ block ∈ blocks, 66 ≤ block.length ∧
        ∃ plain, openBlock cipher dataKey block = .ok plain := by
  induction blocks with
  | nil => simp [Opens]
  | cons block blocks ih =>
    simp only [Opens, List.forall₂_cons_left_iff, List.forall_mem_cons,
      decryptDataBlock_iff_openBlock hcipher] at ih ⊢
    rw [← ih]
    constructor
    · rintro ⟨_, plain, plains, ⟨hlen, hopen⟩, hplains, rfl⟩
      exact ⟨⟨hlen, plain, hopen⟩, plains, hplains⟩
    · rintro ⟨⟨hlen, plain, hopen⟩, plains, hplains⟩
      exact ⟨plain :: plains, plain, plains, ⟨hlen, hopen⟩, hplains, rfl⟩

/-- Each block loses its header and nothing else. -/
theorem opens_flatten_length (hcipher : gcmOf gcm dataKey = .ok cipher)
    (hfills : FillsBuffer cipher) {blocks plains : List Bytes}
    (h : Opens gcm dataKey blocks plains) :
    plains.flatten.length + 66 * blocks.length = blocks.flatten.length := by
  induction h with
  | nil => rfl
  | @cons block plain blocks plains hopen _ ih =>
    obtain ⟨hlen, hopen⟩ := (decryptDataBlock_iff_openBlock hcipher).mp hopen
    have hplain : plain.length = block.length - 66 := by
      rw [hfills _ _ _ _ _ _ hopen, List.length_drop]
      rfl
    simp only [List.flatten_cons, List.length_append, List.length_cons]
    omega

end Opening

/-! ## Acceptance -/

/-- `DecryptFile` succeeds exactly on encrypted files.  Then its arithmetic was exact, the blocks
    it decrypted are the bytes behind the header, cut at the block length, and its output is
    their plaintexts in order, 66 bytes shorter for each block. -/
theorem decryptFile_accepts_iff (gcm : GcmLibrary) (cipher : GcmCrypto)
    (srcPath destPath dataKey file : Bytes)
    (hkey : dataKey.length = 16 ∧ cipher = gcm.aes128 ∨
      dataKey.length = 32 ∧ cipher = gcm.aes256)
    (hfills : FillsBuffer cipher) :
    ((∃ s, (decryptFile gcm srcPath destPath dataKey).run (FileM.start file) = .ok () s) ↔
      srcPath ≠ destPath ∧ IsEncryptedFile cipher dataKey file) ∧
    ∀ s, (decryptFile gcm srcPath destPath dataKey).run (FileM.start file) = .ok () s →
      ExactArithmetic file.length (packetCnt file) (blockLen file) ∧
      (∃ front last, filePieces file = front ++ [last] ∧ front.length = packetCnt file - 1 ∧
        (∀ block ∈ front, block.length = blockLen file) ∧
        last.length = (file.drop 20).length - (packetCnt file - 1) * blockLen file) ∧
      (filePieces file).flatten = file.drop 20 ∧ s.pos = file.length ∧
      ∃ plains, List.Forall₂ (fun block plain => openBlock cipher dataKey block = .ok plain)
          (filePieces file) plains ∧
        s.output = some plains.flatten ∧
        plains.flatten.length + 20 + 66 * packetCnt file = file.length := by
  have hcipher : gcmOf gcm dataKey = .ok cipher := by
    rcases hkey with ⟨hlen, rfl⟩ | ⟨hlen, rfl⟩
    · simp [gcmOf, hlen, kAes128KeyLen]
    · simp [gcmOf, hlen, kAes128KeyLen, kAes256KeyLen]
  constructor
  · simp only [decryptFile_eq_ok]
    constructor
    · rintro ⟨s, hpath, hframed, plains, hopens, _⟩
      exact ⟨hpath, hframed, (exists_opens_iff hcipher).mp ⟨plains, hopens⟩⟩
    · rintro ⟨hpath, hfile⟩
      obtain ⟨plains, hopens⟩ := (exists_opens_iff hcipher).mpr hfile.opens
      exact ⟨_, hpath, hfile.framed, plains, hopens, rfl⟩
  · intro s hrun
    obtain ⟨_, hframed, plains, hopens, rfl⟩ := decryptFile_eq_ok.mp hrun
    have hbody : (packetCnt file - 1) * blockLen file ≤ (file.drop headerLen).length := by
      rw [List.length_drop]
      exact hframed.front
    obtain ⟨front, last, hcut, hcount, hsize, hlast⟩ := cut_eq_append _ _ hbody
    have hlen := opens_flatten_length hcipher hfills hopens
    have hheader : 20 < file.length := hframed.header
    rw [filePieces_length hframed, filePieces_flatten, List.length_drop] at hlen
    refine ⟨exactArithmetic_of_framed hframed, ⟨front, last, hcut, hcount, hsize, hlast⟩,
      filePieces_flatten file, rfl, plains, ?_, rfl, ?_⟩
    · exact hopens.imp fun _ _ h => ((decryptDataBlock_iff_openBlock hcipher).mp h).2
    · simp only [headerLen, kVersionBytes, kSchemaBytes, kPacketCntBytes, kBlockLenBytes] at hlen
      omega

/-- A file of two blocks of 67 and 66 bytes. -/
def twoBlockFile : Bytes := fileHeader 2 67 ++ List.replicate 133 0

theorem decryptFile_accepts_twoBlockFile : ∃ s,
    (decryptFile ⟨plainGcm, plainGcm⟩ (str "a.enc") (str "a") (List.replicate 16 1)).run
      (FileM.start twoBlockFile) = .ok () s ∧ s.pos = 153 := by
  have hfills : FillsBuffer plainGcm := by
    intro _ _ _ _ _ _ h
    cases h
    rfl
  obtain ⟨haccepts, hresult⟩ := decryptFile_accepts_iff ⟨plainGcm, plainGcm⟩ plainGcm
    (str "a.enc") (str "a") (List.replicate 16 1) twoBlockFile (.inl ⟨rfl, rfl⟩) hfills
  have hframed : Framed twoBlockFile := by
    constructor <;> decide +kernel
  have hsizes : ∀ block ∈ filePieces twoBlockFile, 66 ≤ block.length := by decide
  obtain ⟨s, hrun⟩ := haccepts.mpr
    ⟨by decide, hframed, fun block hblock => ⟨hsizes block hblock, _, rfl⟩⟩
  exact ⟨s, hrun, (hresult s hrun).2.2.2.1⟩

end TrustFlow.Proxy
