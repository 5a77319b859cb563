import TrustFlow.Exception
import Mathlib.Data.List.GetD

/-! # Reads from raw memory

The parsers view byte buffers through pointers.  A read that leaves its buffer is
undefined behaviour in C++; the model lets it see whatever the memory behind the
buffer holds and records every access, so that both what was read and whether it
was allowed can be stated. -/

namespace TrustFlow

/-- A read of `len` bytes from `offset` on, in a buffer of `size` bytes. -/
structure Access where
  size : Nat
  offset : Nat
  len : Nat
deriving DecidableEq, Repr

def Access.InBounds (a : Access) : Prop := a.offset + a.len ≤ a.size

instance (a : Access) : Decidable a.InBounds :=
  inferInstanceAs (Decidable (a.offset + a.len ≤ a.size))

/-- A buffer together with the memory that follows it: `beyond i` is the byte at index `i`
    for every `i` past the end. -/
structure Buffer where
  bytes : Bytes
  beyond : Nat → UInt8

/-- Code that reads memory and may throw. -/
abbrev ReadM := StateT (List Access) (Except Exn)

def Buffer.byteAt (b : Buffer) (i : Nat) : UInt8 := b.bytes.getD i (b.beyond i)

def Buffer.view (b : Buffer) (offset len : Nat) : Bytes :=
  (List.range len).map fun i => b.byteAt (offset + i)

def Buffer.read (b : Buffer) (offset len : Nat) : ReadM Bytes := fun accesses =>
  .ok (b.view offset len, accesses ++ [⟨b.bytes.length, offset, len⟩])

@[simp] theorem Buffer.view_length (b : Buffer) (offset len : Nat) :
    (b.view offset len).length = len := by
  simp [Buffer.view]

@[simp] theorem Buffer.run_read (b : Buffer) (offset len : Nat) (log : List Access) :
    (b.read offset len).run log =
      .ok (b.view offset len, log ++ [⟨b.bytes.length, offset, len⟩]) := rfl

@[simp] theorem ReadM.run_lift_ok {α : Type} (a : α) (log : List Access) :
    (liftM (Except.ok a : Except Exn α) : ReadM α).run log = .ok (a, log) := rfl

@[simp] theorem ReadM.run_lift_error {α : Type} (e : Exn) (log : List Access) :
    (liftM (Except.error e : Except Exn α) : ReadM α).run log = .error e := rfl

@[simp] theorem ReadM.run_pure {α : Type} (a : α) (log : List Access) :
    (pure a : ReadM α).run log = .ok (a, log) := rfl

theorem Buffer.view_eq_slice {b : Buffer} {offset len : Nat}
    (h : offset + len ≤ b.bytes.length) : b.view offset len = slice b.bytes offset len := by
  apply List.ext_getElem
  · rw [Buffer.view_length, slice_length h]
  · intro i hi _
    simp only [Buffer.view_length] at hi
    simp only [Buffer.view, Buffer.byteAt, slice, List.getElem_map, List.getElem_range,
      List.getElem_take, List.getElem_drop]
    -- Inside the buffer the default, which is the memory behind it, is not looked at.
    rw [List.getD_eq_getElem _ _ (by omega)]

end TrustFlow
