import TrustFlow.Exception

/-! # File streams

Code that reads one file and writes another, as with yacl's `FileInputStream` and
`FileOutputStream`, in a monad that keeps the state when an exception is thrown:
what was written before a failure stays in the output file. -/

namespace TrustFlow

/-- An input file with its read position, the output file since it was opened, and the number
    of random strings drawn so far. -/
structure FileStreams where
  input : Bytes
  pos : Nat
  output : Option Bytes
  drawn : Nat
deriving DecidableEq

abbrev FileM := EStateM Exn FileStreams

namespace FileM

variable {α β : Type}

def start (input : Bytes) : FileStreams := { input, pos := 0, output := none, drawn := 0 }

def ofExcept (x : Except Exn α) : FileM α := fun s =>
  match x with
  | .ok a => .ok a s
  | .error e => .error e s

instance : MonadLift (Except Exn) FileM := ⟨ofExcept⟩

def getLength : FileM Nat := fun s => .ok s.input.length s

def seekg (pos : Nat) : FileM Unit := fun s => .ok () { s with pos }

/-- `Read` into a buffer; a read that meets the end of the file leaves the rest of the buffer. -/
def read (buf : Bytes) : FileM Bytes := fun s =>
  let got := slice s.input s.pos buf.length
  .ok (got ++ buf.drop got.length) { s with pos := s.pos + got.length }

def openOutput : FileM Unit := fun s => .ok () { s with output := some [] }

def write (bytes : Bytes) : FileM Unit := fun s =>
  -- Nothing is written to a stream that was never opened.
  .ok () { s with output := s.output.map (· ++ bytes) }

def randBytes {n : Nat} (rand : Nat → Blob n) : FileM (Blob n) := fun s =>
  .ok (rand s.drawn) { s with drawn := s.drawn + 1 }

/-! ## Running a program -/

theorem bind_of_ok {x : FileM α} {f : α → FileM β} {s s' : FileStreams} {a : α}
    (h : x.run s = .ok a s') : (x >>= f).run s = (f a).run s' := by
  simp only [EStateM.run] at h
  simp only [bind, EStateM.bind, EStateM.run, h]

theorem bind_of_error {x : FileM α} {f : α → FileM β} {s s' : FileStreams} {e : Exn}
    (h : x.run s = .error e s') : (x >>= f).run s = .error e s' := by
  simp only [EStateM.run] at h
  simp only [bind, EStateM.bind, EStateM.run, h]

theorem bind_eq_ok {x : FileM α} {f : α → FileM β} {s s' : FileStreams} {b : β} :
    (x >>= f).run s = .ok b s' ↔ ∃ a mid, x.run s = .ok a mid ∧ (f a).run mid = .ok b s' := by
  cases hx : x.run s with
  | ok a mid =>
    rw [bind_of_ok hx]
    constructor
    · intro h
      exact ⟨a, mid, rfl, h⟩
    · rintro ⟨a', mid', heq, h⟩
      cases heq
      exact h
  | error e mid =>
    rw [bind_of_error hx]
    constructor
    · intro h
      cases h
    · rintro ⟨_, _, heq, _⟩
      cases heq

theorem lift_of_ok {x : Except Exn α} {a : α} (h : x = .ok a) (s : FileStreams) :
    (liftM x : FileM α).run s = .ok a s := by
  subst h
  rfl

theorem lift_eq_ok {x : Except Exn α} {a : α} {s s' : FileStreams} :
    (liftM x : FileM α).run s = .ok a s' ↔ x = .ok a ∧ s' = s := by
  cases x with
  | ok b =>
    constructor
    · intro h
      cases h
      exact ⟨rfl, rfl⟩
    · rintro ⟨h, rfl⟩
      cases h
      rfl
  | error e =>
    constructor
    · intro h
      cases h
    · rintro ⟨h, _⟩
      cases h

theorem lift_bind_eq_ok {x : Except Exn α} {f : α → FileM β} {s s' : FileStreams} {b : β} :
    ((liftM x : FileM α) >>= f).run s = .ok b s' ↔
      ∃ a, x = .ok a ∧ (f a).run s = .ok b s' := by
  simp only [bind_eq_ok, lift_eq_ok]
  constructor
  · rintro ⟨a, _, ⟨hx, rfl⟩, h⟩
    exact ⟨a, hx, h⟩
  · rintro ⟨a, hx, h⟩
    exact ⟨a, s, ⟨hx, rfl⟩, h⟩

theorem enforce_bind_eq_ok {cond : Prop} [Decidable cond] {msg : Bytes} {f : Unit → FileM β}
    {s s' : FileStreams} {b : β} :
    ((liftM (enforce cond msg) : FileM Unit) >>= f).run s = .ok b s' ↔
      cond ∧ (f ()).run s = .ok b s' := by
  simp only [lift_bind_eq_ok, enforce_eq_ok]
  exact ⟨fun ⟨_, h⟩ => h, fun h => ⟨(), h⟩⟩

/-- The state a run ends in, whether it returns or throws. -/
def finalState : EStateM.Result Exn FileStreams α → FileStreams
  | .ok _ s => s
  | .error _ s => s

/-- The result of a run without its state. -/
def outcome : EStateM.Result Exn FileStreams α → Except Exn α
  | .ok a _ => .ok a
  | .error e _ => .error e

theorem finalState_lift_bind (x : Except Exn α) (f : α → FileM β) (s : FileStreams) :
    finalState (((liftM x : FileM α) >>= f).run s) =
      match x with
      | .ok a => finalState ((f a).run s)
      | .error _ => s := by
  cases x <;> rfl

theorem finalState_enforce_bind {cond : Prop} [Decidable cond] (msg : Bytes) (f : Unit → FileM β)
    (s : FileStreams) :
    finalState (((liftM (enforce cond msg) : FileM Unit) >>= f).run s) =
      if cond then finalState ((f ()).run s) else s := by
  by_cases hcond : cond
  · rw [bind_of_ok (lift_of_ok (enforce_pos msg hcond) s), if_pos hcond]
  · rw [finalState_lift_bind, enforce_neg msg hcond, if_neg hcond]

@[simp] theorem run_getLength (s : FileStreams) : getLength.run s = .ok s.input.length s := rfl

@[simp] theorem run_seekg (pos : Nat) (s : FileStreams) :
    (seekg pos).run s = .ok () { s with pos } := rfl

@[simp] theorem run_openOutput (s : FileStreams) :
    openOutput.run s = .ok () { s with output := some [] } := rfl

@[simp] theorem run_write (bytes : Bytes) (s : FileStreams) :
    (write bytes).run s = .ok () { s with output := s.output.map (· ++ bytes) } := rfl

@[simp] theorem run_randBytes {n : Nat} (rand : Nat → Blob n) (s : FileStreams) :
    (randBytes rand).run s = .ok (rand s.drawn) { s with drawn := s.drawn + 1 } := rfl

theorem run_read {buf : Bytes} {s : FileStreams} (h : s.pos + buf.length ≤ s.input.length) :
    (read buf).run s =
      .ok (slice s.input s.pos buf.length) { s with pos := s.pos + buf.length } := by
  have hlen := slice_length h
  simp only [EStateM.run, read, hlen, List.drop_length, List.append_nil]

end FileM

end TrustFlow
