import TrustFlow.Proxy.EncryptedFile
import Mathlib.Tactic.Linarith

/-! # Round trip of encrypted files

What the encoder writes for a non-empty plaintext is framed, the decoder cuts it
into the sealed blocks again, and each of them opens to its piece. -/

namespace TrustFlow.Proxy

/-! ## The header -/

theorem fileHeader_length (cnt len : Nat) : (fileHeader cnt len).length = headerLen := by
  simp only [fileHeader, List.length_append, leBytes_length, headerLen]

theorem packetCnt_header {cnt : Nat} (h : cnt < 2 ^ 64) (len : Nat) (body : Bytes) :
    packetCnt (fileHeader cnt len ++ body) = cnt := by
  have hslice : slice (fileHeader cnt len ++ body) 8 8 = leBytes 8 cnt := by
    rw [fileHeader, List.append_assoc, List.append_assoc, slice_append_right (by
      simp only [List.length_append, leBytes_length, kVersionBytes, kSchemaBytes])]
    exact List.take_left' (leBytes_length _ _)
  rw [packetCnt, hslice]
  exact leNat_leBytes_of_lt h

theorem blockLen_header {len : Nat} (h : len < 2 ^ 32) (cnt : Nat) (body : Bytes) :
    blockLen (fileHeader cnt len ++ body) = len := by
  have hslice : slice (fileHeader cnt len ++ body) 16 4 = leBytes 4 len := by
    rw [fileHeader, List.append_assoc, slice_append_right (by
      simp only [List.length_append, leBytes_length, kVersionBytes, kSchemaBytes,
        kPacketCntBytes])]
    exact List.take_left' (leBytes_length _ _)
  rw [blockLen, hslice]
  exact leNat_leBytes_of_lt h

/-! ## The blocks -/

section Blocks

variable {gcm : GcmLibrary} {cipher : GcmCrypto} {dataKey : Bytes} (ivs : Nat → Blob kIvBytes)

theorem sealBlocks_flatten_length (i : Nat) (pieces : List Bytes) :
    (sealBlocks cipher dataKey ivs i pieces).flatten.length =
      pieces.length * blockHeaderLen + pieces.flatten.length := by
  induction pieces generalizing i with
  | nil => simp [sealBlocks]
  | cons piece pieces ih =>
    simp only [sealBlocks, List.flatten_cons, List.length_append, List.length_cons,
      sealBlock_length, ih, Nat.succ_mul]
    omega

/-- Full pieces give full blocks, so the decoder's cuts fall between the blocks. -/
theorem cut_sealBlocks (n : Nat) :
    ∀ (i : Nat) {l : Bytes}, n * blockDataLen ≤ l.length →
      cut kBlockBytes n (sealBlocks cipher dataKey ivs i (cut blockDataLen n l)).flatten =
        sealBlocks cipher dataKey ivs i (cut blockDataLen n l) := by
  induction n with
  | zero =>
    intro i l _
    simp [cut, sealBlocks]
  | succ n ih =>
    intro i l hlen
    rw [Nat.succ_mul] at hlen
    -- A full piece makes a full block, which is where the decoder cuts.
    have hblock : (sealBlock cipher dataKey (ivs i) (l.take blockDataLen)).length =
        kBlockBytes := by
      rw [sealBlock_length, List.length_take, Nat.min_eq_left (by omega)]
      rfl
    have hrest := ih (i + 1) (show n * blockDataLen ≤ (l.drop blockDataLen).length by
      rw [List.length_drop]
      omega)
    simp only [cut, sealBlocks, List.flatten_cons]
    rw [List.take_left' hblock, List.drop_left' hblock, hrest]

theorem opens_sealBlocks (hcipher : gcmOf gcm dataKey = .ok cipher) (hinverts : cipher.Inverts)
    (i : Nat) (pieces : List Bytes) :
    Opens gcm dataKey (sealBlocks cipher dataKey ivs i pieces) pieces := by
  induction pieces generalizing i with
  | nil => exact .nil
  | cons piece pieces ih =>
    exact .cons (decryptDataBlock_sealBlock hcipher (hinverts _ _ _ _)) (ih (i + 1))

end Blocks

theorem gcmOf_of_length {gcm : GcmLibrary} {dataKey : Bytes} (hgcm : gcm.Inverts)
    (h : dataKey.length = kAes128KeyLen ∨ dataKey.length = kAes256KeyLen) :
    ∃ cipher, gcmOf gcm dataKey = .ok cipher ∧ cipher.Inverts := by
  rcases h with h | h
  · exact ⟨gcm.aes128, by simp [gcmOf, h], hgcm.1⟩
  · exact ⟨gcm.aes256, by simp [gcmOf, h, kAes128KeyLen, kAes256KeyLen], hgcm.2⟩

/-! ## The file -/

section File

variable {cipher : GcmCrypto} {dataKey plaintext : Bytes} {ivs : Nat → Blob kIvBytes}

theorem packetCnt_encryptedFile (hlen : plaintext.length < 2 ^ 63) :
    packetCnt (encryptedFile cipher dataKey ivs plaintext) = packetCntOf plaintext.length := by
  apply packetCnt_header
  rw [packetCntOf, blockDataLen_eq]
  split <;> omega

theorem blockLen_encryptedFile :
    blockLen (encryptedFile cipher dataKey ivs plaintext) = kBlockBytes :=
  blockLen_header (by decide) _ _

theorem encryptedFile_length (hpos : 1 ≤ plaintext.length) :
    (encryptedFile cipher dataKey ivs plaintext).length =
      headerLen + (packetCntOf plaintext.length * blockHeaderLen + plaintext.length) := by
  obtain ⟨hcnt, _, _⟩ := packetCntOf_bounds hpos
  rw [encryptedFile, List.length_append, fileHeader_length, sealBlocks_flatten_length ivs, payloads,
    cut_length, cut_flatten, Nat.sub_add_cancel hcnt]

/-- The packet count is the number of blocks it takes to reach the end, and no product of it
    with the block length overflows for a file below 2^63 bytes. -/
theorem framed_encryptedFile (hpos : 1 ≤ plaintext.length) (hlen : plaintext.length < 2 ^ 63) :
    Framed (encryptedFile cipher dataKey ivs plaintext) := by
  obtain ⟨hcnt, hfront, hback⟩ := packetCntOf_bounds hpos
  rw [blockDataLen_eq] at hfront hback
  -- All blocks but one are covered by the plaintext, which is short of 2^63 bytes.
  have hproduct : packetCntOf plaintext.length * 8192 < 2 ^ 64 := by
    obtain ⟨m, hm⟩ := Nat.exists_eq_add_of_le hcnt
    rw [hm, Nat.add_sub_cancel_left] at hfront
    rw [hm]
    linarith
  have hbody : (encryptedFile cipher dataKey ivs plaintext).length - headerLen =
      packetCntOf plaintext.length * 66 + plaintext.length := by
    rw [encryptedFile_length hpos, Nat.add_sub_cancel_left]
    rfl
  have hcut : packetCnt (encryptedFile cipher dataKey ivs plaintext) = _ :=
    packetCnt_encryptedFile hlen
  have hblock : blockLen (encryptedFile cipher dataKey ivs plaintext) = 8192 :=
    blockLen_encryptedFile
  constructor
  case header => omega
  case packets => rwa [hcut]
  case blocks => omega
  case noOverflow =>
    rw [hcut, hblock]
    exact hproduct
  case front =>
    rw [hcut, hblock, hbody]
    omega
  case back =>
    rw [hcut, hblock, hbody]
    omega

theorem filePieces_encryptedFile (hpos : 1 ≤ plaintext.length)
    (hlen : plaintext.length < 2 ^ 63) :
    filePieces (encryptedFile cipher dataKey ivs plaintext) =
      sealBlocks cipher dataKey ivs 0 (payloads plaintext) := by
  obtain ⟨_, hfront, _⟩ := packetCntOf_bounds hpos
  rw [filePieces, packetCnt_encryptedFile hlen, blockLen_encryptedFile, encryptedFile,
    List.drop_left' (fileHeader_length _ _)]
  exact cut_sealBlocks ivs _ 0 (le_of_lt hfront)

end File

theorem decryptFile_encryptedFile {gcm : GcmLibrary} {cipher : GcmCrypto}
    {srcPath destPath dataKey plaintext : Bytes} (ivs : Nat → Blob kIvBytes)
    (hpath : srcPath ≠ destPath) (hcipher : gcmOf gcm dataKey = .ok cipher)
    (hinverts : cipher.Inverts) (hpos : 1 ≤ plaintext.length)
    (hlen : plaintext.length < 2 ^ 63) :
    ∃ s, (decryptFile gcm srcPath destPath dataKey).run
        (FileM.start (encryptedFile cipher dataKey ivs plaintext)) = .ok () s ∧
      s.output = some plaintext := by
  have hopens := opens_sealBlocks ivs hcipher hinverts 0 (payloads plaintext)
  rw [← filePieces_encryptedFile hpos hlen] at hopens
  refine ⟨_, decryptFile_eq_ok.mpr
    ⟨hpath, framed_encryptedFile hpos hlen, _, hopens, rfl⟩, ?_⟩
  rw [payloads, cut_flatten]

/-- Encrypting a file and decrypting the result gives the file back. -/
theorem encryptFile_decryptFile_roundtrip (gcm : GcmLibrary) (hgcm : gcm.Inverts)
    (ivs : Nat → Blob kIvBytes) (srcPath encPath destPath dataKey plaintext : Bytes)
    (henc : srcPath ≠ encPath) (hdec : encPath ≠ destPath)
    (hkey : dataKey.length = kAes128KeyLen ∨ dataKey.length = kAes256KeyLen)
    (hpos : 1 ≤ plaintext.length) (hlen : plaintext.length < 2 ^ 63) :
    ∃ s file s',
      (encryptFile gcm ivs srcPath encPath dataKey).run (FileM.start plaintext) = .ok () s ∧
      s.output = some file ∧
      (decryptFile gcm encPath destPath dataKey).run (FileM.start file) = .ok () s' ∧
      s'.output = some plaintext := by
  obtain ⟨cipher, hcipher, hinverts⟩ := gcmOf_of_length hgcm hkey
  obtain ⟨s, hencrypt, hfile⟩ := encryptFile_run ivs henc hcipher hpos
  obtain ⟨s', hdecrypt, hplain⟩ :=
    decryptFile_encryptedFile ivs hdec hcipher hinverts hpos hlen
  exact ⟨s, _, s', hencrypt, hfile, hdecrypt, hplain⟩

/-- A cipher for evaluating the model: the ciphertext is the plaintext, every tag is zero. -/
def plainGcm : GcmCrypto where
  encrypt _ _ plaintext _ := (plaintext, List.replicate 16 0)
  decrypt _ _ ciphertext _ _ := .ok ciphertext
  ciphertext_length _ _ _ _ := rfl
  mac_length _ _ _ _ := List.length_replicate

/-- Two full blocks and a part of a third. -/
def threeBlocks : Bytes := (List.range 20000).map UInt8.ofNat

theorem threeBlocks_length : threeBlocks.length = 20000 := by
  rw [threeBlocks, List.length_map, List.length_range]

def countingIv (i : Nat) : Blob kIvBytes := ⟨List.replicate 12 (UInt8.ofNat i), rfl⟩

theorem encryptFile_decryptFile_roundtrip_blocks :
    packetCntOf threeBlocks.length = 3 ∧ ∃ s file s',
      (encryptFile ⟨plainGcm, plainGcm⟩ countingIv (str "a") (str "a.enc")
        (List.replicate 16 1)).run (FileM.start threeBlocks) = .ok () s ∧
      s.output = some file ∧
      (decryptFile ⟨plainGcm, plainGcm⟩ (str "a.enc") (str "b")
        (List.replicate 16 1)).run (FileM.start file) = .ok () s' ∧
      s'.output = some threeBlocks := by
  have hlength := threeBlocks_length
  refine ⟨by rw [hlength]; decide, ?_⟩
  exact encryptFile_decryptFile_roundtrip ⟨plainGcm, plainGcm⟩
    ⟨fun _ _ _ _ => rfl, fun _ _ _ _ => rfl⟩ _ _ _ _ _ _ (by decide) (by decide)
    (.inl (by decide)) (by omega) (by omega)

end TrustFlow.Proxy
