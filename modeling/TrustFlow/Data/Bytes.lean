import Mathlib.Data.List.Basic
import Mathlib.Data.Nat.Basic
import Mathlib.Tactic.Ring

/-! # Byte strings

A `std::string`, a `ByteContainerView` and the contents of a file are all lists
of bytes.  This module has the parts of them that nothing in the development is
specific about:

* `str` — the bytes of a string literal, and `IsUtf8` — bytes that are those of a text;
* `Blob` — a byte array of fixed size;
* `leBytes` / `leNat` — fixed-width little-endian integers;
* `slice` — the bytes of a buffer from an offset on, for a length;
* `overwrite` — a buffer after a `memcpy` into it;
* `decimal` / `hexText` — the text of a number, as messages show it.
-/

namespace TrustFlow

abbrev Bytes := List UInt8

def str (s : String) : Bytes := s.toByteArray.data.toList

def IsUtf8 (b : Bytes) : Prop := ∃ s : String, b = str s

theorem isUtf8_str (s : String) : IsUtf8 (str s) := ⟨s, rfl⟩

theorem IsUtf8.append {a b : Bytes} (ha : IsUtf8 a) (hb : IsUtf8 b) : IsUtf8 (a ++ b) := by
  obtain ⟨s, rfl⟩ := ha
  obtain ⟨t, rfl⟩ := hb
  exact ⟨s ++ t, by simp [str]⟩

theorem isUtf8_of_ascii {b : Bytes} (h : ∀ c ∈ b, c < 128) : IsUtf8 b := by
  have hchar : ∀ n < 128, String.utf8EncodeChar (Char.ofNat n) = [UInt8.ofNat n] := by decide
  refine ⟨String.ofList (b.map fun c => Char.ofNat c.toNat), ?_⟩
  rw [str, String.toByteArray_ofList, List.utf8Encode, List.data_toByteArray, List.flatMap_map,
    List.toList_toArray]
  induction b with
  | nil => rfl
  | cons c b ih =>
    obtain ⟨hc, hb⟩ := List.forall_mem_cons.mp h
    rw [List.flatMap_cons, hchar c.toNat hc, UInt8.ofNat_toNat, ← ih hb]
    rfl

/-- A byte array of fixed size, such as a field of a packed C structure. -/
structure Blob (n : Nat) where
  bytes : Bytes
  size : bytes.length = n
deriving DecidableEq

theorem Blob.ext {n : Nat} {a b : Blob n} (h : a.bytes = b.bytes) : a = b := by
  cases a
  cases b
  simp_all

/-! ## Little-endian integers -/

def leBytes : Nat → Nat → Bytes
  | 0, _ => []
  | width + 1, n => UInt8.ofNat (n % 256) :: leBytes width (n / 256)

def leNat : Bytes → Nat
  | [] => 0
  | b :: bs => b.toNat + 256 * leNat bs

@[simp] theorem leBytes_length (width n : Nat) : (leBytes width n).length = width := by
  induction width generalizing n with
  | zero => rfl
  | succ width ih => simp [leBytes, ih]

theorem leNat_leBytes (width n : Nat) : leNat (leBytes width n) = n % 256 ^ width := by
  induction width generalizing n with
  | zero => simp [leBytes, leNat, Nat.mod_one]
  | succ width ih =>
    simp only [leBytes, leNat, ih]
    have hbyte : (UInt8.ofNat (n % 256)).toNat = n % 256 := by
      simp [UInt8.toNat_ofNat']
    rw [hbyte, Nat.pow_succ, Nat.mul_comm (256 ^ width) 256, Nat.mod_mul]

theorem leNat_leBytes_of_lt {width n : Nat} (h : n < 256 ^ width) :
    leNat (leBytes width n) = n := by
  rw [leNat_leBytes, Nat.mod_eq_of_lt h]

theorem leNat_lt (bs : Bytes) : leNat bs < 256 ^ bs.length := by
  induction bs with
  | nil => simp [leNat]
  | cons b bs ih =>
    have hb : b.toNat < 256 := b.toNat_lt
    simp only [leNat, List.length_cons, Nat.pow_succ]
    omega

/-! ## Slices -/

/-- `len` bytes of `bs` from offset `off` on, fewer when the buffer ends before. -/
def slice (bs : Bytes) (off len : Nat) : Bytes := (bs.drop off).take len

theorem slice_length {bs : Bytes} {off len : Nat} (h : off + len ≤ bs.length) :
    (slice bs off len).length = len := by
  simp only [slice, List.length_take, List.length_drop]
  omega

def Blob.field {n : Nat} (b : Blob n) (off len : Nat) (h : off + len ≤ n) : Blob len :=
  ⟨slice b.bytes off len, slice_length (by rw [b.size]; exact h)⟩

theorem Blob.slice_all {n : Nat} (b : Blob n) : slice b.bytes 0 n = b.bytes := by
  simp [slice, List.take_of_length_le b.size.le]

theorem slice_append_right {front : Bytes} {off : Nat} (h : front.length = off)
    (rest : Bytes) (len : Nat) : slice (front ++ rest) off len = rest.take len := by
  subst h
  simp [slice]

theorem slice_append_skip {front : Bytes} {off : Nat} (k : Nat) (h : off = front.length + k)
    (rest : Bytes) (len : Nat) : slice (front ++ rest) off len = slice rest k len := by
  subst h
  rw [slice, ← List.drop_drop, List.drop_left, slice]

theorem slice_take {bs : Bytes} {n off len : Nat} (h : off + len ≤ n) :
    slice (bs.take n) off len = slice bs off len := by
  rw [slice, slice, List.drop_take, List.take_take, Nat.min_eq_left (by omega)]

theorem slice_append_left {bs : Bytes} {off len : Nat} (h : off + len ≤ bs.length)
    (rest : Bytes) : slice (bs ++ rest) off len = slice bs off len := by
  rw [← slice_take h, List.take_left]

theorem slice_slice (bs : Bytes) (off : Nat) {n i len : Nat} (h : i + len ≤ n) :
    slice (slice bs off n) i len = slice bs (off + i) len := by
  simp only [slice, List.drop_take, List.drop_drop, List.take_take]
  rw [Nat.min_eq_left (by omega)]

/-- A packed structure is the concatenation of its segments: reading at the offset of a segment,
    as far as it goes, gives the segment. -/
theorem slice_segment {segments : List Bytes} {sizes : List Nat}
    (hsizes : segments.map List.length = sizes) (i : Nat) {segment : Bytes} {off len : Nat}
    (hsegment : segments[i]? = some segment) (hoff : off = (sizes.take i).sum)
    (hlen : sizes[i]? = some len) : slice segments.flatten off len = segment := by
  obtain ⟨hi, rfl⟩ := List.getElem?_eq_some_iff.mp hsegment
  have hfront : (segments.take i).flatten.length = off := by
    rw [List.length_flatten, List.map_take, hsizes, hoff]
  have hsize : segments[i].length = len := by
    rw [← hsizes, List.getElem?_map, hsegment] at hlen
    exact Option.some.inj hlen
  have hsplit : segments = segments.take i ++ segments[i] :: segments.drop (i + 1) := by
    rw [List.getElem_cons_drop, List.take_append_drop]
  conv_lhs => rw [hsplit]
  rw [List.flatten_append, List.flatten_cons, slice_append_right hfront, ← hsize, List.take_left]

/-! ## Overwriting -/

/-- `memcpy` of `src` into a buffer at offset `off`. -/
def overwrite (buf : Bytes) (off : Nat) (src : Bytes) : Bytes :=
  buf.take off ++ src ++ buf.drop (off + src.length)

theorem slice_overwrite_before {buf src : Bytes} {start off len : Nat} (hat : start ≤ buf.length)
    (h : off + len ≤ start) : slice (overwrite buf start src) off len = slice buf off len := by
  have htake : (buf.take start).length = start := List.length_take_of_le hat
  rw [overwrite, List.append_assoc, slice_append_left (by omega), slice_take h]

theorem slice_overwrite_after {buf src : Bytes} {start off : Nat} (len : Nat)
    (hat : start ≤ buf.length) (h : start + src.length ≤ off) :
    slice (overwrite buf start src) off len = slice buf off len := by
  have hfront : (buf.take start ++ src).length = start + src.length := by
    rw [List.length_append, List.length_take_of_le hat]
  rw [overwrite, slice_append_skip (off - (start + src.length)) (by omega), slice, slice,
    List.drop_drop, show start + src.length + (off - (start + src.length)) = off by omega]

theorem slice_overwrite_self {buf src : Bytes} {start : Nat} (hat : start ≤ buf.length) :
    slice (overwrite buf start src) start src.length = src := by
  have htake : (buf.take start).length = start := List.length_take_of_le hat
  rw [overwrite, List.append_assoc, slice_append_right htake, List.take_left]

/-! ## Text of numbers -/

/-- `std::to_string` of an unsigned number. -/
def decimal (n : Nat) : Bytes := str (Nat.repr n)

/-- An unsigned number under the format `{:#x}`. -/
def hexText (n : Nat) : Bytes := str "0x" ++ str (String.ofList (Nat.toDigits 16 n))

/-- An unsigned number under the format `{:#X}`. -/
def upperHexText (n : Nat) : Bytes :=
  str "0X" ++ str (String.ofList ((Nat.toDigits 16 n).map Char.toUpper))

end TrustFlow
