import TrustFlow.Proxy.FileRoundTrip

/-! # Rearranged blocks

Each block of an encrypted file is sealed on its own, with no associated data, and
the header of the file is not authenticated.  So a file made of another file's
blocks, in any order and with repetitions, decrypts as soon as its header fits
them.  It fails under every other header: with an ideal cipher the decoder's cuts
have to fall between the blocks. -/

namespace TrustFlow.Proxy

/-! ## The blocks of a file -/

def sealedPairs (ivs : Nat → Blob kIvBytes) : Nat → List Bytes → List (Bytes × Bytes)
  | _, [] => []
  | i, piece :: pieces => ((ivs i).bytes, piece) :: sealedPairs ivs (i + 1) pieces

def pieceBlock (cipher : GcmCrypto) (dataKey : Bytes) (ivs : Nat → Blob kIvBytes)
    (pieces : List Bytes) (i : Fin pieces.length) : Bytes :=
  sealBlock cipher dataKey (ivs i) (pieces.get i)

/-- A header of any content, and the blocks of the encrypted plaintext with the numbers in
    `order`. -/
structure Rearranged (cipher : GcmCrypto) (dataKey : Bytes) (ivs : Nat → Blob kIvBytes)
    (plaintext : Bytes) where
  header : Blob headerLen
  order : List (Fin (payloads plaintext).length)

section Rearranged

variable {cipher : GcmCrypto} {dataKey : Bytes} {ivs : Nat → Blob kIvBytes} {plaintext : Bytes}

def Rearranged.pieces (r : Rearranged cipher dataKey ivs plaintext) : List Bytes :=
  r.order.map (payloads plaintext).get

def Rearranged.blocks (r : Rearranged cipher dataKey ivs plaintext) : List Bytes :=
  r.order.map (pieceBlock cipher dataKey ivs (payloads plaintext))

def Rearranged.file (r : Rearranged cipher dataKey ivs plaintext) : Bytes :=
  r.header.bytes ++ r.blocks.flatten

/-- The header counts the blocks, and its block length is that of every block but the last,
    which may be shorter. -/
def Rearranged.HeaderFits (r : Rearranged cipher dataKey ivs plaintext) : Prop :=
  r.blocks ≠ [] ∧ packetCnt r.header.bytes = r.blocks.length ∧
    (∀ block ∈ r.blocks.dropLast, block.length = blockLen r.header.bytes) ∧
    ∀ block ∈ r.blocks.getLast?, block.length ≤ blockLen r.header.bytes

end Rearranged

theorem sealBlocks_eq_map (cipher : GcmCrypto) (dataKey : Bytes) (ivs : Nat → Blob kIvBytes)
    (pieces : List Bytes) :
    sealBlocks cipher dataKey ivs 0 pieces =
      (List.finRange pieces.length).map (pieceBlock cipher dataKey ivs pieces) := by
  have hget : ∀ (pieces : List Bytes) (first k : Nat) (hk : k < pieces.length),
      (sealBlocks cipher dataKey ivs first pieces)[k]? =
        some (sealBlock cipher dataKey (ivs (first + k)) pieces[k]) := by
    intro pieces
    induction pieces with
    | nil =>
      intro first k hk
      exact absurd hk (Nat.not_lt_zero k)
    | cons piece pieces ih =>
      intro first k hk
      cases k with
      | zero => rfl
      | succ k =>
        have htail := ih (first + 1) k (Nat.lt_of_succ_lt_succ hk)
        rw [Nat.add_assoc, Nat.add_comm 1 k] at htail
        exact htail
  apply List.ext_getElem
  · rw [sealBlocks_length, List.length_map, List.length_finRange]
  · intro k hk _
    have hlen : k < pieces.length := by rwa [sealBlocks_length] at hk
    have h := hget pieces 0 k hlen
    rw [List.getElem?_eq_getElem hk, Nat.zero_add] at h
    rw [Option.some.inj h, List.getElem_map, List.getElem_finRange]
    rfl

/-- Every block once, in order, behind the header of the encoder. -/
def Rearranged.original (cipher : GcmCrypto) (dataKey : Bytes) (ivs : Nat → Blob kIvBytes)
    (plaintext : Bytes) : Rearranged cipher dataKey ivs plaintext where
  header := ⟨_, fileHeader_length (packetCntOf plaintext.length) kBlockBytes⟩
  order := List.finRange (payloads plaintext).length

theorem encryptedFile_eq_original (cipher : GcmCrypto) (dataKey : Bytes)
    (ivs : Nat → Blob kIvBytes) (plaintext : Bytes) :
    encryptedFile cipher dataKey ivs plaintext =
      (Rearranged.original cipher dataKey ivs plaintext).file := by
  rw [encryptedFile, sealBlocks_eq_map]
  rfl

theorem mem_sealedPairs (ivs : Nat → Blob kIvBytes) (first : Nat) (pieces : List Bytes)
    (i : Fin pieces.length) :
    ((ivs (first + i)).bytes, pieces.get i) ∈ sealedPairs ivs first pieces := by
  induction pieces generalizing first with
  | nil => exact i.elim0
  | cons piece pieces ih =>
    obtain ⟨i, hi⟩ := i
    cases i with
    | zero => exact List.mem_cons_self
    | succ i =>
      have htail := ih (first + 1) ⟨i, Nat.lt_of_succ_lt_succ hi⟩
      rw [Nat.add_assoc, Nat.add_comm 1 i] at htail
      exact List.mem_cons_of_mem _ htail

/-! ## The cuts fall between the blocks -/

section Cuts

variable {gcm : GcmLibrary} {cipher : GcmCrypto} {dataKey : Bytes}
  {pairs : List (Bytes × Bytes)}

/-- A piece that starts with the header of a sealed block and opens is that block: its tag
    belongs to one ciphertext only. -/
theorem eq_sealBlock_of_opens (hcipher : gcmOf gcm dataKey = .ok cipher)
    (hideal : cipher.Ideal dataKey pairs) {iv : Blob kIvBytes} {rawData piece plain : Bytes}
    (hmem : (iv.bytes, rawData) ∈ pairs)
    (hheader : piece.take blockHeaderLen =
      (sealBlock cipher dataKey iv rawData).take blockHeaderLen)
    (hopens : decryptDataBlock gcm piece dataKey = .ok plain) :
    piece = sealBlock cipher dataKey iv rawData ∧ plain = rawData := by
  obtain ⟨_, cipher', hcipher', hdecrypt⟩ := decryptDataBlock_eq_ok.mp hopens
  obtain rfl : cipher = cipher' := by
    rw [hcipher] at hcipher'
    exact Except.ok.inj hcipher'
  -- IV and MAC are read from the header, which the two have in common.
  have hfield : ∀ off len, off + len ≤ blockHeaderLen →
      slice piece off len = slice (sealBlock cipher dataKey iv rawData) off len := by
    intro off len hle
    rw [← slice_take hle, hheader, slice_take hle]
  have hiv : blockIv piece = iv.bytes := by
    rw [blockIv, hfield 0 1 (by decide), ← blockIv_sealBlock cipher dataKey iv rawData]
    exact hfield 1 12 (by decide)
  have hmac : blockMac piece = (cipher.encrypt dataKey iv.bytes rawData []).2 := by
    rw [blockMac, hfield 33 1 (by decide), ← blockMac_sealBlock cipher dataKey iv rawData,
      blockMac, slice_sealBlock cipher dataKey iv rawData 0 1 rfl]
    exact hfield 34 16 (by decide)
  rw [hiv, hmac] at hdecrypt
  -- What opens was sealed, and under one IV the tag tells the plaintexts apart.
  obtain ⟨hsealed, hencrypt⟩ := (hideal.opens_iff _ _ _ _).mp hdecrypt
  have hplain : plain = rawData :=
    hideal.tag_binds iv.bytes plain rawData hsealed hmem (by rw [hencrypt])
  subst hplain
  have hbody : (sealBlock cipher dataKey iv plain).drop blockHeaderLen =
      piece.drop blockHeaderLen :=
    (drop_sealBlock cipher dataKey iv plain).trans (congrArg Prod.fst hencrypt)
  have hpiece : piece = sealBlock cipher dataKey iv plain :=
    calc piece = piece.take blockHeaderLen ++ piece.drop blockHeaderLen :=
          (List.take_append_drop _ _).symm
      _ = (sealBlock cipher dataKey iv plain).take blockHeaderLen ++
            (sealBlock cipher dataKey iv plain).drop blockHeaderLen := by rw [hheader, hbody]
      _ = sealBlock cipher dataKey iv plain := List.take_append_drop _ _
  exact ⟨hpiece, rfl⟩

theorem not_opens_cut_nil (b n : Nat) (plains : List Bytes) :
    ¬ Opens gcm dataKey (cut b n []) plains := by
  intro h
  cases n with
  | zero =>
    cases h with
    | cons hopens _ => exact absurd (decryptDataBlock_eq_ok.mp hopens).1 (by decide)
  | succ n =>
    rw [cut, List.take_nil] at h
    cases h with
    | cons hopens _ => exact absurd (decryptDataBlock_eq_ok.mp hopens).1 (by decide)

/-! The cuts only depend on how blocks are told apart, so the blocks are any family here. -/

variable {ι : Type} {block payload : ι → Bytes}

theorem flatten_map_eq_nil (hlen : ∀ i, blockHeaderLen ≤ (block i).length) {order : List ι}
    (h : (order.map block).flatten = []) : order = [] := by
  cases order with
  | nil => rfl
  | cons i order =>
    rw [List.map_cons, List.flatten_cons, List.append_eq_nil_iff] at h
    have hpos := hlen i
    rw [h.1] at hpos
    exact absurd hpos (by decide)

/-- A piece in front of further pieces is cut at the end of its block: a longer piece would leave
    nothing for the pieces behind it. -/
theorem first_cut_of_opens (hlen : ∀ i, blockHeaderLen ≤ (block i).length)
    (hbinds : ∀ i piece plain, piece.take blockHeaderLen = (block i).take blockHeaderLen →
      decryptDataBlock gcm piece dataKey = .ok plain → piece = block i ∧ plain = payload i)
    {b n : Nat} {i : ι} {rest plain : Bytes} {plains : List Bytes}
    (hopens : decryptDataBlock gcm ((block i ++ rest).take b) dataKey = .ok plain)
    (hrest : Opens gcm dataKey (cut b n ((block i ++ rest).drop b)) plains) :
    b = (block i).length ∧ plain = payload i := by
  have hsize := (decryptDataBlock_eq_ok.mp hopens).1
  rw [List.length_take] at hsize
  have hheader : ((block i ++ rest).take b).take blockHeaderLen =
      (block i).take blockHeaderLen := by
    rw [List.take_take, Nat.min_eq_left (by omega), List.take_append_of_le_length (hlen i)]
  obtain ⟨hpiece, hplain⟩ := hbinds i _ _ hheader hopens
  have hcut := congrArg List.length hpiece
  rw [List.length_take, List.length_append] at hcut
  refine ⟨?_, hplain⟩
  by_contra hb
  have hnil : (block i ++ rest).drop b = [] := by
    apply List.drop_eq_nil_of_le
    rw [List.length_append]
    omega
  rw [hnil] at hrest
  exact not_opens_cut_nil b n plains hrest

/-- If a piece that starts like a block and opens is that block, and all pieces of a sequence
    of blocks open, then the pieces are the blocks. -/
theorem cut_blocks_of_opens (hlen : ∀ i, blockHeaderLen ≤ (block i).length)
    (hbinds : ∀ i piece plain, piece.take blockHeaderLen = (block i).take blockHeaderLen →
      decryptDataBlock gcm piece dataKey = .ok plain → piece = block i ∧ plain = payload i)
    {b : Nat} (n : Nat) :
    ∀ {order : List ι} {plains : List Bytes},
      Opens gcm dataKey (cut b n (order.map block).flatten) plains →
        cut b n (order.map block).flatten = order.map block ∧ plains = order.map payload ∧
          ∀ x ∈ (order.map block).dropLast, x.length = b := by
  -- Induction on the number of cuts: the first piece is the first block.
  induction n with
  | zero =>
    intro order plains h
    cases order with
    | nil => exact absurd h (not_opens_cut_nil b 0 plains)
    | cons i order =>
      rw [List.map_cons, List.flatten_cons, cut] at h ⊢
      cases h with
      | cons hopens hnil =>
        cases hnil
        obtain ⟨hpiece, rfl⟩ :=
          hbinds i _ _ (List.take_append_of_le_length (hlen i)) hopens
        -- The last piece takes all that is left, so no block may follow.
        obtain rfl := flatten_map_eq_nil hlen (List.append_right_eq_self.mp hpiece)
        exact ⟨by simp, rfl, fun x hx => absurd hx (by simp)⟩
  | succ n ih =>
    intro order plains h
    cases order with
    | nil => exact absurd h (not_opens_cut_nil b (n + 1) plains)
    | cons i order =>
      rw [List.map_cons, List.flatten_cons, cut] at h ⊢
      cases h with
      | @cons _ plain _ plains hopens hrest =>
        obtain ⟨rfl, rfl⟩ := first_cut_of_opens hlen hbinds hopens hrest
        rw [List.drop_left] at hrest ⊢
        obtain ⟨hrestCut, rfl, hlast⟩ := ih hrest
        rw [List.take_left, hrestCut]
        refine ⟨rfl, rfl, ?_⟩
        intro x hx
        cases order with
        | nil => exact absurd hrest (not_opens_cut_nil _ n _)
        | cons j order =>
          rw [List.map_cons, List.dropLast_cons_of_ne_nil (List.cons_ne_nil _ _)] at hx
          rcases List.mem_cons.mp hx with rfl | hx
          · rfl
          · exact hlast x hx

end Cuts

/-! ## Which rearranged files decrypt -/

section Decrypt

variable {gcm : GcmLibrary} {cipher : GcmCrypto} {dataKey : Bytes} {ivs : Nat → Blob kIvBytes}
  {plaintext srcPath destPath : Bytes}

theorem Rearranged.packetCnt_file (r : Rearranged cipher dataKey ivs plaintext) :
    packetCnt r.file = packetCnt r.header.bytes := by
  rw [packetCnt, packetCnt, Rearranged.file,
    slice_append_left (le_of_le_of_eq (by decide) r.header.size.symm)]

theorem Rearranged.blockLen_file (r : Rearranged cipher dataKey ivs plaintext) :
    blockLen r.file = blockLen r.header.bytes := by
  rw [blockLen, blockLen, Rearranged.file,
    slice_append_left (le_of_le_of_eq (by decide) r.header.size.symm)]

theorem Rearranged.filePieces_file (r : Rearranged cipher dataKey ivs plaintext) :
    filePieces r.file =
      cut (blockLen r.header.bytes) (packetCnt r.header.bytes - 1) r.blocks.flatten := by
  rw [filePieces, r.packetCnt_file, r.blockLen_file, Rearranged.file,
    List.drop_left' r.header.size]

theorem Rearranged.length_file (r : Rearranged cipher dataKey ivs plaintext) :
    r.file.length - headerLen = r.blocks.flatten.length := by
  rw [Rearranged.file, List.length_append, r.header.size, Nat.add_sub_cancel_left]

theorem blockHeaderLen_le_pieceBlock {pieces : List Bytes} (i : Fin pieces.length) :
    blockHeaderLen ≤ (pieceBlock cipher dataKey ivs pieces i).length := by
  rw [pieceBlock, sealBlock_length]
  exact Nat.le_add_right _ _

theorem Rearranged.HeaderFits.split {r : Rearranged cipher dataKey ivs plaintext}
    (h : r.HeaderFits) :
    ∃ front last, r.blocks = front ++ [last] ∧ packetCnt r.header.bytes = front.length + 1 ∧
      (∀ x ∈ front, x.length = blockLen r.header.bytes) ∧
      blockHeaderLen ≤ last.length ∧ last.length ≤ blockLen r.header.bytes := by
  obtain ⟨hne, hcnt, hfront, hlast⟩ := h
  refine ⟨r.blocks.dropLast, r.blocks.getLast hne, (List.dropLast_append_getLast hne).symm, ?_,
    hfront, ?_, hlast _ (List.getLast?_eq_getLast_of_ne_nil hne)⟩
  · rw [hcnt, List.length_dropLast]
    exact (Nat.sub_add_cancel (List.length_pos_iff.mpr hne)).symm
  · obtain ⟨i, _, hi⟩ := List.mem_map.mp (List.getLast_mem hne)
    rw [← hi]
    exact blockHeaderLen_le_pieceBlock i

theorem Rearranged.framed_of_headerFits {r : Rearranged cipher dataKey ivs plaintext}
    (hsize : r.file.length < 2 ^ 63) (h : r.HeaderFits) :
    Framed r.file ∧ filePieces r.file = r.blocks := by
  obtain ⟨front, last, hblocks, hcnt, hfront, hpos, hlast⟩ := h.split
  have hlen := r.length_file
  rw [hblocks, List.flatten_append, List.flatten_singleton, List.length_append,
    length_flatten_of_forall hfront] at hlen
  -- The block length is a 32-bit field, which keeps the product of the last check in range.
  have hword : blockLen r.header.bytes < 2 ^ 32 := by
    have hlt := leNat_lt (slice r.header.bytes 16 4)
    rwa [slice_length (le_of_le_of_eq (by decide) r.header.size.symm)] at hlt
  have hheader : blockHeaderLen = 66 := rfl
  have hfile : headerLen < r.file.length := by omega
  refine ⟨⟨hfile, ?_, ?_, ?_, ?_, ?_⟩, ?_⟩
  · rw [r.packetCnt_file, hcnt]
    exact Nat.le_add_left 1 _
  · rw [r.blockLen_file]
    omega
  · rw [r.packetCnt_file, r.blockLen_file, hcnt, Nat.succ_mul]
    omega
  · rw [r.packetCnt_file, r.blockLen_file, hcnt, Nat.add_sub_cancel]
    omega
  · rw [r.packetCnt_file, r.blockLen_file, hcnt, Nat.succ_mul]
    omega
  · rw [r.filePieces_file, hcnt, Nat.add_sub_cancel, hblocks, List.flatten_append,
      List.flatten_singleton]
    exact cut_flatten_append last hfront

theorem Rearranged.decrypts_of_headerFits (r : Rearranged cipher dataKey ivs plaintext)
    (hpath : srcPath ≠ destPath) (hcipher : gcmOf gcm dataKey = .ok cipher)
    (hideal : cipher.Ideal dataKey (sealedPairs ivs 0 (payloads plaintext)))
    (hsize : r.file.length < 2 ^ 63) (hfits : r.HeaderFits) :
    ∃ s, (decryptFile gcm srcPath destPath dataKey).run (FileM.start r.file) = .ok () s ∧
      s.output = some r.pieces.flatten := by
  obtain ⟨hframed, hpieces⟩ := Rearranged.framed_of_headerFits hsize hfits
  have hopens : Opens gcm dataKey r.blocks r.pieces := by
    rw [Rearranged.blocks, Rearranged.pieces, Opens, List.forall₂_map_left_iff,
      List.forall₂_map_right_iff, List.forall₂_same]
    intro i _
    have hmem := mem_sealedPairs ivs 0 (payloads plaintext) i
    rw [Nat.zero_add] at hmem
    exact decryptDataBlock_sealBlock hcipher ((hideal.opens_iff _ _ _ _).mpr ⟨hmem, rfl⟩)
  exact ⟨_, decryptFile_eq_ok.mpr ⟨hpath, hframed, _, hpieces ▸ hopens, rfl⟩, rfl⟩

theorem Rearranged.headerFits_of_decrypts (r : Rearranged cipher dataKey ivs plaintext)
    (hcipher : gcmOf gcm dataKey = .ok cipher)
    (hideal : cipher.Ideal dataKey (sealedPairs ivs 0 (payloads plaintext))) {s : FileStreams}
    (h : (decryptFile gcm srcPath destPath dataKey).run (FileM.start r.file) = .ok () s) :
    r.HeaderFits ∧ s.output = some r.pieces.flatten := by
  obtain ⟨_, hframed, plains, hopens, rfl⟩ := decryptFile_eq_ok.mp h
  rw [r.filePieces_file] at hopens
  have hbinds : ∀ i piece plain,
      piece.take blockHeaderLen =
        (pieceBlock cipher dataKey ivs (payloads plaintext) i).take blockHeaderLen →
      decryptDataBlock gcm piece dataKey = .ok plain →
        piece = pieceBlock cipher dataKey ivs (payloads plaintext) i ∧
          plain = (payloads plaintext).get i := by
    intro i piece plain hheader hopen
    have hmem := mem_sealedPairs ivs 0 (payloads plaintext) i
    rw [Nat.zero_add] at hmem
    exact eq_sealBlock_of_opens hcipher hideal hmem hheader hopen
  obtain ⟨hcut, rfl, hfront⟩ := cut_blocks_of_opens blockHeaderLen_le_pieceBlock hbinds _ hopens
  change ∀ x ∈ r.blocks.dropLast, x.length = blockLen r.header.bytes at hfront
  -- The decoder makes as many pieces as the header counts, and they are the blocks.
  have hcnt : packetCnt r.header.bytes = r.blocks.length := by
    have hlen := congrArg List.length hcut
    have hpackets := hframed.packets
    rw [cut_length] at hlen
    rw [r.packetCnt_file] at hpackets
    rw [Rearranged.blocks, ← hlen, Nat.sub_add_cancel hpackets]
  have hne : r.blocks ≠ [] := by
    intro hnil
    have hpackets := hframed.packets
    rw [r.packetCnt_file, hcnt, hnil] at hpackets
    exact absurd hpackets (by decide)
  refine ⟨⟨hne, hcnt, hfront, ?_⟩, rfl⟩
  intro last hlast
  -- The whole is not longer than the full blocks it counts, and all but the last are full.
  have hsplit : r.blocks = r.blocks.dropLast ++ [last] := by
    rw [List.getLast?_eq_some_getLast hne] at hlast
    cases hlast
    exact (List.dropLast_append_getLast hne).symm
  have hback := hframed.back
  have hlen := congrArg (fun l => (List.flatten l).length) hsplit
  simp only [List.flatten_append, List.flatten_singleton, List.length_append] at hlen
  rw [length_flatten_of_forall hfront] at hlen
  have hcount := congrArg List.length hsplit
  rw [List.length_append, List.length_singleton] at hcount
  rw [r.length_file, r.packetCnt_file, r.blockLen_file, hcnt, hcount, Nat.succ_mul, hlen] at hback
  exact Nat.le_of_add_le_add_left hback

end Decrypt

/-- A file made of the blocks of an encrypted file decrypts exactly when its header fits the
    blocks, and then to their pieces in the new order. -/
theorem decryptFile_rearranged_iff (gcm : GcmLibrary) (ivs : Nat → Blob kIvBytes)
    (srcPath encPath dataKey plaintext : Bytes) (s₀ : FileStreams)
    (hencrypt : (encryptFile gcm ivs srcPath encPath dataKey).run (FileM.start plaintext) =
      .ok () s₀) :
    ∃ cipher, gcmOf gcm dataKey = .ok cipher ∧
      s₀.output = some (Rearranged.original cipher dataKey ivs plaintext).file ∧
      (cipher.Ideal dataKey (sealedPairs ivs 0 (payloads plaintext)) →
        ∀ (r : Rearranged cipher dataKey ivs plaintext) (filePath destPath : Bytes),
          filePath ≠ destPath → r.file.length < 2 ^ 63 →
            ((∃ s, (decryptFile gcm filePath destPath dataKey).run (FileM.start r.file) =
                .ok () s) ↔ r.HeaderFits) ∧
            ∀ s, (decryptFile gcm filePath destPath dataKey).run (FileM.start r.file) =
                .ok () s → s.output = some r.pieces.flatten) := by
  obtain ⟨cipher, hcipher, _, houtput⟩ := encryptFile_eq_ok hencrypt
  rw [encryptedFile_eq_original] at houtput
  refine ⟨cipher, hcipher, houtput, ?_⟩
  intro hideal r filePath destPath hpath hsize
  refine ⟨⟨?_, ?_⟩, ?_⟩
  · rintro ⟨s, hs⟩
    exact (r.headerFits_of_decrypts hcipher hideal hs).1
  · intro hfits
    obtain ⟨s, hs, _⟩ := r.decrypts_of_headerFits hpath hcipher hideal hsize hfits
    exact ⟨s, hs⟩
  · intro s hs
    exact (r.headerFits_of_decrypts hcipher hideal hs).2

/-! ## A block that was repeated -/

def sampleIv : Blob kIvBytes := ⟨List.replicate 12 7, rfl⟩

/-- An ideal cipher for one sealed byte. -/
def oneByteGcm : GcmCrypto where
  encrypt _ _ plaintext _ := (plaintext, List.replicate 16 0)
  decrypt _ iv ciphertext _ mac :=
    if iv = sampleIv.bytes ∧ ciphertext = [1] ∧ mac = List.replicate 16 0 then .ok ciphertext
    else yaclThrow (str "GCM tag mismatch")
  ciphertext_length := plainGcm.ciphertext_length
  mac_length := plainGcm.mac_length

theorem oneByteGcm_ideal (key : Bytes) :
    oneByteGcm.Ideal key (sealedPairs (fun _ => sampleIv) 0 (payloads [1])) := by
  have hpairs : sealedPairs (fun _ => sampleIv) 0 (payloads [1]) = [(sampleIv.bytes, [1])] := rfl
  rw [hpairs]
  constructor
  · intro iv ciphertext mac plaintext
    simp only [oneByteGcm, List.mem_singleton, Prod.mk.injEq]
    constructor
    · intro h
      split at h
      next hsealed =>
        cases h
        exact ⟨⟨hsealed.1, hsealed.2.1⟩, rfl, hsealed.2.2.symm⟩
      next => cases h
    · rintro ⟨⟨hiv, hplain⟩, hcipher, hmac⟩
      subst hplain
      rw [if_pos ⟨hiv, hcipher.symm, hmac.symm⟩, hcipher]
  · intro iv plaintext plaintext' h h' _
    simp only [List.mem_singleton, Prod.mk.injEq] at h h'
    rw [h.2, h'.2]

/-- The only block of the encrypted byte, twice, behind a header for two blocks. -/
def doubled : Rearranged oneByteGcm (List.replicate 16 1) (fun _ => sampleIv) [1] where
  header := ⟨_, fileHeader_length 2 67⟩
  order := [⟨0, by decide⟩, ⟨0, by decide⟩]

theorem doubled_headerFits : doubled.HeaderFits := by
  refine ⟨by decide, by decide, by decide, by decide⟩

theorem oneByte_encrypts : ∃ s₀,
    (encryptFile ⟨oneByteGcm, oneByteGcm⟩ (fun _ => sampleIv) (str "a") (str "a.enc")
      (List.replicate 16 1)).run (FileM.start [1]) = .ok () s₀ ∧
    s₀.output = some (encryptedFile oneByteGcm (List.replicate 16 1) (fun _ => sampleIv) [1]) :=
  encryptFile_run _ (by decide) rfl (by decide)

/-- A file that is not the encrypted file, made of its blocks, decrypts. -/
theorem block_tampering_undetected : ∃ s₀ s,
    oneByteGcm.Ideal (List.replicate 16 1)
      (sealedPairs (fun _ => sampleIv) 0 (payloads [1])) ∧
    (encryptFile ⟨oneByteGcm, oneByteGcm⟩ (fun _ => sampleIv) (str "a") (str "a.enc")
      (List.replicate 16 1)).run (FileM.start [1]) = .ok () s₀ ∧
    s₀.output = some (Rearranged.original oneByteGcm (List.replicate 16 1) (fun _ => sampleIv)
      [1]).file ∧
    s₀.output ≠ some doubled.file ∧
    (decryptFile ⟨oneByteGcm, oneByteGcm⟩ (str "a.enc") (str "b")
      (List.replicate 16 1)).run (FileM.start doubled.file) = .ok () s := by
  obtain ⟨s₀, hencrypt, houtput⟩ := oneByte_encrypts
  obtain ⟨s, hdecrypt, _⟩ := doubled.decrypts_of_headerFits
    (show str "a.enc" ≠ str "b" by decide)
    (show gcmOf ⟨oneByteGcm, oneByteGcm⟩ _ = .ok oneByteGcm from rfl)
    (oneByteGcm_ideal _) (by decide +kernel) doubled_headerFits
  refine ⟨s₀, s, oneByteGcm_ideal _, hencrypt, ?_, ?_, hdecrypt⟩
  · rw [houtput, encryptedFile_eq_original]
  · rw [houtput]
    decide

theorem decryptFile_rearranged_doubled : ∃ s,
    (decryptFile ⟨oneByteGcm, oneByteGcm⟩ (str "a.enc") (str "b")
      (List.replicate 16 1)).run (FileM.start doubled.file) = .ok () s := by
  obtain ⟨s₀, hencrypt, _⟩ := oneByte_encrypts
  obtain ⟨cipher, hcipher, _, hcriterion⟩ := decryptFile_rearranged_iff _ _ _ _ _ _ s₀ hencrypt
  obtain rfl : oneByteGcm = cipher := Except.ok.inj hcipher
  exact (hcriterion (oneByteGcm_ideal _) doubled _ _ (by decide) (by decide +kernel)).1.mpr
    doubled_headerFits

end TrustFlow.Proxy
