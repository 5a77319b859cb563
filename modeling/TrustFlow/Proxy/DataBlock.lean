import TrustFlow.Crypto
import TrustFlow.Stream
import Mathlib.Data.Nat.Bitwise

/-! # Encrypted data blocks

A block of an encrypted file (`crypto_util.cc`) is a header of fixed size and the
ciphertext.  The header has a length byte and a field of 32 bytes for the IV, and
the same for the MAC; the rest of each field is padding. -/

namespace TrustFlow.Proxy

def kIvBytes : Nat := 12

/-- An IV for evaluating the model. -/
def zeroIv : Blob kIvBytes := ⟨List.replicate 12 0, rfl⟩
def kMacBytes : Nat := 16
def kIvFieldBytes : Nat := 32
def kMacFieldBytes : Nat := 32
def kAes128KeyLen : Nat := 16
def kAes256KeyLen : Nat := 32
def kIvLenBytes : Nat := 1
def kMacLenBytes : Nat := 1

def blockHeaderLen : Nat := kIvLenBytes + kIvFieldBytes + kMacLenBytes + kMacFieldBytes

/-! ## Integers -/

/-- `Bytes2Int<T>`, with `T` an unsigned type of `sizeofT` bytes. -/
def bytes2Int (sizeofT : Nat) (bytes : Bytes) : Except Exn Nat := do
  enforce (bytes.length ≤ sizeofT) (str "Converting bytes to integer overflow")
  return bytes.reverse.foldl (fun ret b => (ret <<< 8 ||| b.toNat) % 2 ^ (8 * sizeofT)) 0

/-- The shifted accumulator never loses a bit, so the loop reads a little-endian number. -/
theorem bytes2Int_of_le {sizeofT : Nat} {bytes : Bytes} (h : bytes.length ≤ sizeofT) :
    bytes2Int sizeofT bytes = .ok (leNat bytes) := by
  -- The loop runs from the last byte on; as a right fold it follows `leNat`.
  have hfold : ∀ bs : Bytes, bs.length ≤ sizeofT →
      bs.foldr (fun b ret => (ret <<< 8 ||| b.toNat) % 2 ^ (8 * sizeofT)) 0 = leNat bs := by
    intro bs hbs
    induction bs with
    | nil => rfl
    | cons b bs ih =>
      rw [List.length_cons] at hbs
      have hfits : leNat (b :: bs) < 2 ^ (8 * sizeofT) := by
        have hlt := leNat_lt (b :: bs)
        have hmono : 256 ^ (b :: bs).length ≤ 256 ^ sizeofT :=
          Nat.pow_le_pow_right (by decide) (by simpa using hbs)
        rw [Nat.pow_mul]
        exact lt_of_lt_of_le hlt hmono
      rw [List.foldr_cons, ih (by omega),
        ← Nat.shiftLeft_add_eq_or_of_lt (show b.toNat < 2 ^ 8 from b.toNat_lt),
        Nat.shiftLeft_eq]
      have hsum : leNat bs * 2 ^ 8 + b.toNat = leNat (b :: bs) := by
        rw [leNat]
        omega
      rw [hsum, Nat.mod_eq_of_lt hfits]
  rw [bytes2Int, enforce_pos _ h, ok_bind, List.foldl_reverse, hfold bytes h]
  rfl

/-! ## Encryption and decryption of one block -/

def gcmOf (gcm : GcmLibrary) (dataKey : Bytes) : Except Exn GcmCrypto :=
  if dataKey.length = kAes128KeyLen then .ok gcm.aes128
  else if dataKey.length = kAes256KeyLen then .ok gcm.aes256
  else yaclThrow (str "data_key size error got " ++ decimal dataKey.length)

/-- `DecryptDataBlock`.  A `subspan` that is longer than what is left is cut off. -/
def decryptDataBlock (gcm : GcmLibrary) (dataBlock dataKey : Bytes) : Except Exn Bytes := do
  enforce (kIvLenBytes ≤ dataBlock.length) (str "Data block format is not correct")
  let offset := 0
  let ivLen ← bytes2Int 8 (slice dataBlock offset kIvLenBytes)
  let offset := offset + kIvLenBytes
  enforce (offset + kIvFieldBytes ≤ dataBlock.length) (str "Data block format is not correct")
  let iv := slice dataBlock offset ivLen
  let offset := offset + kIvFieldBytes
  enforce (offset + kMacLenBytes ≤ dataBlock.length) (str "Data block format is not correct")
  let macLen ← bytes2Int 8 (slice dataBlock offset kMacLenBytes)
  let offset := offset + kMacLenBytes
  enforce (offset + kMacFieldBytes ≤ dataBlock.length) (str "Data block format is not correct")
  let mac := slice dataBlock offset macLen
  let offset := offset + kMacFieldBytes
  let encryptedData := dataBlock.drop offset
  let cipher ← gcmOf gcm dataKey
  cipher.decrypt dataKey iv encryptedData [] mac

/-- `EncryptDataBlock`, with the sequence of IVs that the random generator returns. -/
def encryptDataBlock (gcm : GcmLibrary) (ivs : Nat → Blob kIvBytes) (blockLen : Nat)
    (dataKey : Bytes) : FileM Unit := do
  -- The buffer is zeroed; a short read would leave zeros at its end.
  let rawData ← FileM.read (List.replicate blockLen 0)
  let iv ← FileM.randBytes ivs
  let cipher ← gcmOf gcm dataKey
  let (encryptedData, mac) := cipher.encrypt dataKey iv.bytes rawData []
  FileM.write [UInt8.ofNat kIvBytes]
  FileM.write iv.bytes
  FileM.write (List.replicate (kIvFieldBytes - iv.bytes.length) 0)
  FileM.write [UInt8.ofNat kMacBytes]
  FileM.write mac
  FileM.write (List.replicate (kMacFieldBytes - mac.length) 0)
  FileM.write encryptedData

/-! ## What decryption reads -/

def blockIv (dataBlock : Bytes) : Bytes := slice dataBlock 1 (leNat (slice dataBlock 0 1))

def blockMac (dataBlock : Bytes) : Bytes := slice dataBlock 34 (leNat (slice dataBlock 33 1))

theorem decryptDataBlock_eq_ok {gcm : GcmLibrary} {dataBlock dataKey rawData : Bytes} :
    decryptDataBlock gcm dataBlock dataKey = .ok rawData ↔
      blockHeaderLen ≤ dataBlock.length ∧
        ∃ cipher, gcmOf gcm dataKey = .ok cipher ∧
          cipher.decrypt dataKey (blockIv dataBlock) (dataBlock.drop blockHeaderLen) []
            (blockMac dataBlock) = .ok rawData := by
  -- A length byte always converts.
  have hint : ∀ off, bytes2Int 8 (slice dataBlock off 1) = .ok (leNat (slice dataBlock off 1)) :=
    fun off => bytes2Int_of_le (le_trans (List.length_take_le 1 _) (by decide))
  simp only [decryptDataBlock, bind_eq_ok, enforce_eq_ok]
  simp only [kIvLenBytes, kIvFieldBytes, kMacLenBytes, kMacFieldBytes, blockHeaderLen, hint]
  constructor
  · rintro ⟨_, _, _, hiv, _, _, _, _, _, hmac, _, hlen, cipher, hcipher, hdecrypt⟩
    cases hiv
    cases hmac
    exact ⟨by omega, cipher, hcipher, hdecrypt⟩
  · rintro ⟨hlen, cipher, hcipher, hdecrypt⟩
    exact ⟨(), by omega, _, rfl, (), by omega, (), by omega, _, rfl, (), by omega, cipher,
      hcipher, hdecrypt⟩

/-! ## What encryption writes -/

def sealBlock (cipher : GcmCrypto) (dataKey : Bytes) (iv : Blob kIvBytes) (rawData : Bytes) :
    Bytes :=
  let (encryptedData, mac) := cipher.encrypt dataKey iv.bytes rawData []
  [12] ++ (iv.bytes ++ (List.replicate 20 0 ++
    ([16] ++ (mac ++ (List.replicate 16 0 ++ encryptedData)))))

section Seal

variable (cipher : GcmCrypto) (dataKey : Bytes) (iv : Blob kIvBytes) (rawData : Bytes)

theorem sealBlock_length :
    (sealBlock cipher dataKey iv rawData).length = blockHeaderLen + rawData.length := by
  simp only [sealBlock, List.length_append, List.length_replicate, List.length_singleton, iv.size,
    cipher.mac_length, cipher.ciphertext_length, kIvBytes, blockHeaderLen, kIvLenBytes,
    kIvFieldBytes, kMacLenBytes, kMacFieldBytes]
  omega

theorem blockIv_sealBlock : blockIv (sealBlock cipher dataKey iv rawData) = iv.bytes := by
  -- The length byte is a literal, so the field starts with the twelve bytes of the IV.
  show List.take 12 (iv.bytes ++ _) = iv.bytes
  exact List.take_left' iv.size

theorem slice_sealBlock {off : Nat} (k len : Nat) (h : off = 33 + k) :
    slice (sealBlock cipher dataKey iv rawData) off len =
      slice ([16] ++ ((cipher.encrypt dataKey iv.bytes rawData []).2 ++
        (List.replicate 16 0 ++ (cipher.encrypt dataKey iv.bytes rawData []).1))) k len := by
  have hiv : iv.bytes.length = 12 := iv.size
  -- Skip the length byte, the IV and its padding.
  rw [sealBlock, slice_append_skip (32 + k) (by rw [h, List.length_singleton]; omega),
    slice_append_skip (20 + k) (by rw [hiv]; omega),
    slice_append_skip k (by rw [List.length_replicate])]

theorem blockMac_sealBlock :
    blockMac (sealBlock cipher dataKey iv rawData) =
      (cipher.encrypt dataKey iv.bytes rawData []).2 := by
  rw [blockMac, slice_sealBlock cipher dataKey iv rawData 0 1 rfl,
    slice_sealBlock cipher dataKey iv rawData 1 _ rfl]
  show List.take 16 ((cipher.encrypt dataKey iv.bytes rawData []).2 ++ _) = _
  exact List.take_left' (cipher.mac_length dataKey iv.bytes rawData [])

theorem drop_sealBlock :
    (sealBlock cipher dataKey iv rawData).drop blockHeaderLen =
      (cipher.encrypt dataKey iv.bytes rawData []).1 := by
  have hiv : iv.bytes.length = 12 := iv.size
  simp only [sealBlock, ← List.append_assoc]
  apply List.drop_left'
  simp only [List.length_append, List.length_replicate, List.length_singleton, hiv,
    cipher.mac_length]
  rfl

end Seal

theorem decryptDataBlock_sealBlock {gcm : GcmLibrary} {dataKey rawData : Bytes}
    {cipher : GcmCrypto} {iv : Blob kIvBytes} (hcipher : gcmOf gcm dataKey = .ok cipher)
    (hopen : cipher.decrypt dataKey iv.bytes (cipher.encrypt dataKey iv.bytes rawData []).1 []
      (cipher.encrypt dataKey iv.bytes rawData []).2 = .ok rawData) :
    decryptDataBlock gcm (sealBlock cipher dataKey iv rawData) dataKey = .ok rawData := by
  apply decryptDataBlock_eq_ok.mpr
  refine ⟨?_, cipher, hcipher, ?_⟩
  · rw [sealBlock_length]
    exact Nat.le_add_right _ _
  · rw [blockIv_sealBlock, blockMac_sealBlock, drop_sealBlock]
    exact hopen

theorem encryptDataBlock_run {gcm : GcmLibrary} (ivs : Nat → Blob kIvBytes) {blockLen : Nat}
    {dataKey : Bytes} {cipher : GcmCrypto} {s : FileStreams} {written : Bytes}
    (hcipher : gcmOf gcm dataKey = .ok cipher) (hread : s.pos + blockLen ≤ s.input.length)
    (houtput : s.output = some written) :
    (encryptDataBlock gcm ivs blockLen dataKey).run s =
      .ok () { s with
        pos := s.pos + blockLen
        output := some (written ++
          sealBlock cipher dataKey (ivs s.drawn) (slice s.input s.pos blockLen))
        drawn := s.drawn + 1 } := by
  have hiv : (ivs s.drawn).bytes.length = 12 := (ivs s.drawn).size
  have hbuf : (List.replicate blockLen (0 : UInt8)).length = blockLen := List.length_replicate
  have hfill := FileM.run_read (s := s) (show s.pos + (List.replicate blockLen 0).length ≤ _ by
    rwa [hbuf])
  rw [hbuf] at hfill
  rw [encryptDataBlock, FileM.bind_of_ok hfill, FileM.bind_of_ok (FileM.run_randBytes _ _),
    FileM.bind_of_ok (FileM.lift_of_ok hcipher _)]
  simp only [FileM.bind_of_ok (FileM.run_write _ _), FileM.run_write, houtput, hiv,
    cipher.mac_length, sealBlock, Option.map_some, List.append_assoc]
  rfl

theorem gcmOf_of_encryptDataBlock {gcm : GcmLibrary} {ivs : Nat → Blob kIvBytes} {blockLen : Nat}
    {dataKey : Bytes} {s s' : FileStreams}
    (h : (encryptDataBlock gcm ivs blockLen dataKey).run s = .ok () s') :
    ∃ cipher, gcmOf gcm dataKey = .ok cipher := by
  obtain ⟨_, _, _, h⟩ := FileM.bind_eq_ok.mp h
  obtain ⟨_, _, _, h⟩ := FileM.bind_eq_ok.mp h
  obtain ⟨cipher, hcipher, _⟩ := FileM.lift_bind_eq_ok.mp h
  exact ⟨cipher, hcipher⟩

end TrustFlow.Proxy
