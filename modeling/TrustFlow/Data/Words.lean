import TrustFlow.Data.Bytes
import Mathlib.Data.Nat.Bitwise

/-! # Masking by 32-bit words

A mask of one 32-bit word is applied to a buffer word by word.  Loading, masking
and storing a word moves no byte, so the words are written as the four bytes they
occupy in memory, whatever the byte order of the host.

* `xorWords` — a buffer under a mask;
* `xorLoop` — the loop that masks the words of a buffer one by one, as numbers;
* `xorLoop_eq` — the loop does nothing else than that.
-/

namespace TrustFlow

/-- A 32-bit word as it lies in memory. -/
structure Word32 where
  b0 : UInt8
  b1 : UInt8
  b2 : UInt8
  b3 : UInt8
deriving DecidableEq, Repr

def Word32.bytes (w : Word32) : Bytes := [w.b0, w.b1, w.b2, w.b3]

@[simp] theorem Word32.bytes_length (w : Word32) : w.bytes.length = 4 := rfl

def Word32.ofBytes (bs : Bytes) : Word32 := ⟨bs.getD 0 0, bs.getD 1 0, bs.getD 2 0, bs.getD 3 0⟩

/-- Masks every word of a buffer.  Bytes behind the last full word are not part of any. -/
def xorWords (mask : Word32) : Bytes → Bytes
  | c0 :: c1 :: c2 :: c3 :: rest =>
    (c0 ^^^ mask.b0) :: (c1 ^^^ mask.b1) :: (c2 ^^^ mask.b2) :: (c3 ^^^ mask.b3) ::
      xorWords mask rest
  | _ => []

theorem dvd_word {c0 c1 c2 c3 : UInt8} {rest : Bytes} :
    4 ∣ (c0 :: c1 :: c2 :: c3 :: rest).length ↔ 4 ∣ rest.length := by
  simp only [List.length_cons]
  omega

/-- A buffer of whole words is empty, or one word in front of a buffer of whole words. -/
@[elab_as_elim]
theorem wordInduction {motive : (bs : Bytes) → 4 ∣ bs.length → Prop}
    (nil : motive [] (Nat.dvd_zero 4))
    (word : ∀ c0 c1 c2 c3 rest (h : 4 ∣ rest.length), motive rest h →
      motive (c0 :: c1 :: c2 :: c3 :: rest) (dvd_word.mpr h)) :
    ∀ (bs : Bytes) (h : 4 ∣ bs.length), motive bs h
  | [], _ => nil
  | [_], h => by simp at h
  | [_, _], h => by simp at h
  | [_, _, _], h => by simp at h
  | c0 :: c1 :: c2 :: c3 :: rest, h =>
    word c0 c1 c2 c3 rest (dvd_word.mp h) (wordInduction nil word rest (dvd_word.mp h))

theorem xorWords_length (mask : Word32) {bs : Bytes} (h : 4 ∣ bs.length) :
    (xorWords mask bs).length = bs.length := by
  induction bs, h using wordInduction with
  | nil => rfl
  | word c0 c1 c2 c3 rest _ ih => simp only [xorWords, List.length_cons, ih]

theorem xorWords_append (mask : Word32) {as : Bytes} (bs : Bytes) (h : 4 ∣ as.length) :
    xorWords mask (as ++ bs) = xorWords mask as ++ xorWords mask bs := by
  induction as, h using wordInduction with
  | nil => rfl
  | word c0 c1 c2 c3 rest _ ih => simp only [List.cons_append, xorWords, ih]

/-- Word-aligned parts are masked on their own. -/
theorem xorWords_split (mask : Word32) {bs : Bytes} {n : Nat} (hn : 4 ∣ n) (h : n ≤ bs.length) :
    xorWords mask bs = xorWords mask (bs.take n) ++ xorWords mask (bs.drop n) ∧
      (xorWords mask (bs.take n)).length = n := by
  have htake : (bs.take n).length = n := List.length_take_of_le h
  have hfront : 4 ∣ (bs.take n).length := by rwa [htake]
  have hsplit := xorWords_append mask (bs.drop n) hfront
  rw [List.take_append_drop] at hsplit
  exact ⟨hsplit, by rw [xorWords_length mask hfront, htake]⟩

theorem xorWords_take (mask : Word32) {bs : Bytes} {n : Nat} (hn : 4 ∣ n) (h : n ≤ bs.length) :
    (xorWords mask bs).take n = xorWords mask (bs.take n) := by
  obtain ⟨hsplit, hfront⟩ := xorWords_split mask hn h
  rw [hsplit, List.take_left' hfront]

theorem xorWords_drop (mask : Word32) {bs : Bytes} {n : Nat} (hn : 4 ∣ n) (h : n ≤ bs.length) :
    (xorWords mask bs).drop n = xorWords mask (bs.drop n) := by
  obtain ⟨hsplit, hfront⟩ := xorWords_split mask hn h
  rw [hsplit, List.drop_left' hfront]

theorem slice_xorWords (mask : Word32) {bs : Bytes} {off len : Nat} (hoff : 4 ∣ off)
    (hlen : 4 ∣ len) (h : off + len ≤ bs.length) :
    slice (xorWords mask bs) off len = xorWords mask (slice bs off len) := by
  rw [slice, slice, xorWords_drop mask hoff (by omega),
    xorWords_take mask hlen (by rw [List.length_drop]; omega)]

theorem xorWords_xorWords (mask : Word32) {bs : Bytes} (h : 4 ∣ bs.length) :
    xorWords mask (xorWords mask bs) = bs := by
  induction bs, h using wordInduction with
  | nil => rfl
  | word c0 c1 c2 c3 rest _ ih =>
    simp only [xorWords, ih, UInt8.xor_assoc, UInt8.xor_self, UInt8.xor_zero]

theorem xorWords_zero {bs : Bytes} (h : 4 ∣ bs.length) : xorWords ⟨0, 0, 0, 0⟩ bs = bs := by
  induction bs, h using wordInduction with
  | nil => rfl
  | word c0 c1 c2 c3 rest _ ih => simp only [xorWords, ih, UInt8.xor_zero]

theorem xorWords_mask_inj {m m' : Word32} {w : Bytes} (hw : w.length = 4)
    (h : xorWords m w = xorWords m' w) : m = m' := by
  match w, hw with
  | [c0, c1, c2, c3], _ =>
    -- Byte by byte, since xor with a fixed byte is injective.
    simp only [xorWords, List.cons.injEq, UInt8.xor_right_inj, and_true] at h
    cases m
    cases m'
    simp_all

/-! ## The loop -/

/-- The word as the number that a little-endian host loads. -/
def Word32.toUInt32 (w : Word32) : UInt32 := UInt32.ofNat (leNat w.bytes)

/-- `reinterpret_cast<uint32_t*>(buf)[i]`. -/
def loadWord (buf : Bytes) (i : Nat) : UInt32 := (Word32.ofBytes (slice buf (4 * i) 4)).toUInt32

def storeWord (buf : Bytes) (i : Nat) (w : UInt32) : Bytes :=
  overwrite buf (4 * i) (leBytes 4 w.toNat)

/-- The loop `dst[i] = src[i] ^ mask` over the words `i < n`. -/
def xorLoop (mask : UInt32) (src : Bytes) (n : Nat) (dst : Bytes) : Bytes :=
  (List.range n).foldl (fun dst i => storeWord dst i (loadWord src i ^^^ mask)) dst

/-- Numbers are masked byte by byte. -/
theorem leBytes_xor : ∀ {as bs : Bytes}, as.length = bs.length →
    leBytes as.length (leNat as ^^^ leNat bs) = List.zipWith (· ^^^ ·) as bs
  | [], [], _ => rfl
  | a :: as, b :: bs, h => by
    have ha : a.toNat < 256 := a.toNat_lt
    have hb : b.toNat < 256 := b.toNat_lt
    have hlow : (leNat (a :: as) ^^^ leNat (b :: bs)) % 256 = a.toNat ^^^ b.toNat := by
      rw [show 256 = 2 ^ 8 from rfl, Nat.xor_mod_two_pow]
      congr 1
      · simp only [leNat]
        omega
      · simp only [leNat]
        omega
    have hhigh : (leNat (a :: as) ^^^ leNat (b :: bs)) / 256 = leNat as ^^^ leNat bs := by
      rw [show 256 = 2 ^ 8 from rfl, Nat.xor_div_two_pow]
      congr 1
      · simp only [leNat]
        omega
      · simp only [leNat]
        omega
    have hbyte : UInt8.ofNat (a.toNat ^^^ b.toNat) = a ^^^ b := by
      have hlt : a.toNat ^^^ b.toNat < 2 ^ 8 := Nat.xor_lt_two_pow ha hb
      apply UInt8.toNat_inj.mp
      rw [UInt8.toNat_xor, UInt8.toNat_ofNat_of_lt' hlt]
    rw [List.length_cons, leBytes, hlow, hhigh, hbyte,
      leBytes_xor (Nat.succ_injective h), List.zipWith_cons_cons]

theorem leBytes_xor_word (mask : Word32) {word : Bytes} (h : word.length = 4) :
    leBytes 4 ((Word32.ofBytes word).toUInt32 ^^^ mask.toUInt32).toNat = xorWords mask word := by
  have htoNat : ∀ w : Word32, w.toUInt32.toNat = leNat w.bytes := by
    intro w
    have hlt := leNat_lt w.bytes
    rw [Word32.bytes_length] at hlt
    rw [Word32.toUInt32, UInt32.toNat_ofNat', Nat.mod_eq_of_lt (by omega)]
  match word, h with
  | [c0, c1, c2, c3], _ =>
    have hxor := @leBytes_xor [c0, c1, c2, c3] mask.bytes rfl
    rw [UInt32.toNat_xor, htoNat, htoNat]
    exact hxor

theorem xorLoop_eq (mask : Word32) {src dst : Bytes} {n : Nat} (hsrc : 4 * n ≤ src.length)
    (hdst : 4 * n ≤ dst.length) :
    xorLoop mask.toUInt32 src n dst = xorWords mask (src.take (4 * n)) ++ dst.drop (4 * n) := by
  induction n with
  | zero => simp [xorLoop, xorWords]
  | succ n ih =>
    have hfront : (src.take (4 * n)).length = 4 * n := List.length_take_of_le (by omega)
    have hwords : 4 ∣ (src.take (4 * n)).length := by rw [hfront]; exact Nat.dvd_mul_right 4 n
    have hmasked := xorWords_length mask hwords
    -- One round more masks the next word, right behind those that are done.
    have hstep : xorLoop mask.toUInt32 src (n + 1) dst =
        storeWord (xorLoop mask.toUInt32 src n dst) n (loadWord src n ^^^ mask.toUInt32) := by
      simp only [xorLoop, List.range_succ, List.foldl_append, List.foldl_cons, List.foldl_nil]
    have hword : leBytes 4 (loadWord src n ^^^ mask.toUInt32).toNat =
        xorWords mask (slice src (4 * n) 4) :=
      leBytes_xor_word mask (slice_length (by omega))
    have htake : src.take (4 * (n + 1)) = src.take (4 * n) ++ slice src (4 * n) 4 := by
      rw [Nat.mul_succ, List.take_add, slice]
    rw [hstep, ih (by omega) (by omega), storeWord, overwrite, leBytes_length, hword, htake,
      xorWords_append mask _ hwords, List.take_left' (by rw [hmasked, hfront]),
      List.drop_append, hmasked, hfront, List.drop_of_length_le (by rw [hmasked, hfront]; omega),
      List.drop_drop, List.nil_append]
    congr 2
    omega

end TrustFlow
