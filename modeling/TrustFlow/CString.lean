import TrustFlow.Data.Bytes
import Mathlib.Data.List.TakeWhile

/-! # C strings in buffers

The functions of `string.h` that fill a buffer with a text and measure what is in
it, and what is left of a text in a buffer that is too short for it. -/

namespace TrustFlow

/-- The text in a buffer: the bytes in front of the first NUL. -/
def cText (buf : Bytes) : Bytes := buf.takeWhile (· ≠ 0)

def strlen (buf : Bytes) : Nat := (cText buf).length

/-- `strncpy(dst, src, n)`: at most `n` bytes of the text, and NULs up to `n` bytes. -/
def strncpy (dst src : Bytes) (n : Nat) : Bytes :=
  (cText src).take n ++ List.replicate (n - (cText src).length) 0 ++ dst.drop n

/-- The buffer after a NUL was written to its last byte. -/
def terminate (buf : Bytes) : Bytes := buf.set (buf.length - 1) 0

/-- The text of a terminated buffer together with its NUL. -/
def terminated (buf : Bytes) : Bytes := (terminate buf).take (strlen (terminate buf) + 1)

theorem cText_of_noNul {text : Bytes} (h : 0 ∉ text) : cText text = text := by
  apply List.takeWhile_eq_self_iff.mpr
  intro c hc
  simp only [ne_eq, decide_not, Bool.not_eq_eq_eq_not, Bool.not_true, decide_eq_false_iff_not]
  rintro rfl
  exact h hc

theorem noNul_cText (buf : Bytes) : 0 ∉ cText buf := by
  intro h
  simpa using List.mem_takeWhile_imp h

theorem cText_append_nul {text : Bytes} (h : 0 ∉ text) (rest : Bytes) :
    cText (text ++ 0 :: rest) = text := by
  have hall : ∀ c ∈ text, decide (c ≠ 0) = true := by
    intro c hc
    have hne : c ≠ 0 := by
      rintro rfl
      exact h hc
    simpa using hne
  rw [cText, List.takeWhile_append_of_pos hall]
  simp

theorem strncpy_length (dst src : Bytes) : (strncpy dst src dst.length).length = dst.length := by
  simp only [strncpy, List.drop_length, List.append_nil, List.length_append, List.length_take,
    List.length_replicate]
  omega

theorem terminate_eq {buf : Bytes} (h : buf ≠ []) : terminate buf = buf.dropLast ++ [0] := by
  obtain ⟨front, last, rfl⟩ := (List.eq_nil_or_concat' buf).resolve_left h
  simp [terminate]

/-- A text copied into a whole buffer, of which the last byte is then made a NUL, is cut to one
    byte less than the buffer; the rest of the buffer is NULs. -/
theorem terminate_strncpy {dst : Bytes} (src : Bytes) (h : dst ≠ []) :
    ∃ k, terminate (strncpy dst src dst.length) =
      (cText src).take (dst.length - 1) ++ 0 :: List.replicate k 0 := by
  have hpos := List.length_pos_of_ne_nil h
  set text := cText src with htext
  set n := dst.length with hn
  have hcopy : strncpy dst src n = text.take n ++ List.replicate (n - text.length) 0 := by
    simp [strncpy, hn, ← htext]
  have hlen : (text.take n ++ List.replicate (n - text.length) 0).length = n := by
    rw [← hcopy]
    exact strncpy_length dst src
  have hne : text.take n ++ List.replicate (n - text.length) 0 ≠ [] := by
    intro hnil
    rw [hnil] at hlen
    simp at hlen
    omega
  rw [hcopy, terminate_eq hne, List.dropLast_eq_take, hlen, List.take_append, List.take_take,
    List.length_take, List.take_replicate, Nat.min_eq_left (Nat.sub_le n 1)]
  refine ⟨min (n - 1 - min n text.length) (n - text.length), ?_⟩
  rw [List.append_assoc, ← List.replicate_succ', List.replicate_succ]

/-- What a terminated copy shows is the text, cut to one byte less than the buffer. -/
theorem terminated_strncpy {dst : Bytes} (src : Bytes) (h : dst ≠ []) :
    terminated (strncpy dst src dst.length) = (cText src).take (dst.length - 1) ++ [0] ∧
      strlen (terminate (strncpy dst src dst.length)) =
        min (dst.length - 1) (cText src).length := by
  obtain ⟨k, hk⟩ := terminate_strncpy src h
  have hnul : 0 ∉ (cText src).take (dst.length - 1) :=
    fun hmem => noNul_cText src (List.mem_of_mem_take hmem)
  have htext := cText_append_nul hnul (List.replicate k 0)
  rw [terminated, hk, strlen, htext]
  constructor
  · rw [List.take_length_add_append]
    rfl
  · exact List.length_take

end TrustFlow
