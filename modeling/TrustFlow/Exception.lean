import TrustFlow.Data.Bytes

/-! # Exceptions

The C++ code reports every failure by throwing.  An `Exn` is a thrown object: its
class, as the outermost handlers tell the classes apart, and the text that
`what()` returns.  A function that may throw returns an `Except Exn`. -/

namespace TrustFlow

/-- The exception classes that some handler of the code distinguishes. -/
inductive ExnKind where
  | argumentError
  | invalidFormat
  | enforceNotMet
  | runtimeError
  | stdException
deriving DecidableEq, Repr

structure Exn where
  kind : ExnKind
  what : Bytes
deriving DecidableEq, Repr

/-- `YACL_ENFORCE(cond, msg)` and its comparing variants.  The text of the exception that yacl
    throws also names the source line and the condition in front of the message; those are left
    out here, and with them what a caller shows of `what()` starts at the message. -/
def enforce (cond : Prop) [Decidable cond] (msg : Bytes) : Except Exn Unit :=
  if cond then .ok () else .error ⟨.enforceNotMet, msg⟩

def yaclThrow {α : Type} (msg : Bytes) : Except Exn α :=
  .error ⟨.runtimeError, msg⟩

theorem enforce_pos {cond : Prop} [Decidable cond] (msg : Bytes) (h : cond) :
    enforce cond msg = .ok () := by
  simp [enforce, h]

theorem enforce_neg {cond : Prop} [Decidable cond] (msg : Bytes) (h : ¬ cond) :
    enforce cond msg = .error ⟨.enforceNotMet, msg⟩ := by
  simp [enforce, h]

theorem enforce_eq_ok {cond : Prop} [Decidable cond] {msg : Bytes} {u : Unit} :
    enforce cond msg = .ok u ↔ cond := by
  unfold enforce
  split <;> simp_all

@[simp] theorem ok_bind {ε α β : Type} (a : α) (f : α → Except ε β) :
    (Except.ok a >>= f) = f a := rfl

@[simp] theorem error_bind {ε α β : Type} (e : ε) (f : α → Except ε β) :
    (Except.error e >>= f) = .error e := rfl

theorem bind_eq_ok {ε α β : Type} {x : Except ε α} {f : α → Except ε β} {b : β} :
    x >>= f = .ok b ↔ ∃ a, x = .ok a ∧ f a = .ok b := by
  cases x with
  | error e => simp [Bind.bind, Except.bind]
  | ok a => simp [Bind.bind, Except.bind]

theorem map_eq_ok {ε α β : Type} {f : α → β} {x : Except ε α} {b : β} :
    f <$> x = .ok b ↔ ∃ a, x = .ok a ∧ f a = b := by
  cases x with
  | error e => simp [Functor.map, Except.map]
  | ok a => simp [Functor.map, Except.map]

theorem exists_mapM_eq_ok {ε α β : Type} {f : α → Except ε β} {l : List α} :
    (∃ l', l.mapM f = .ok l') ↔ ∀ x ∈ l, ∃ y, f x = .ok y := by
  induction l with
  | nil => simp [pure, Except.pure]
  | cons x l ih =>
    simp only [List.mapM_cons, bind_eq_ok, List.forall_mem_cons, ← ih]
    constructor
    · rintro ⟨_, y, hy, l', hl', _⟩
      exact ⟨⟨y, hy⟩, l', hl'⟩
    · rintro ⟨⟨y, hy⟩, l', hl'⟩
      exact ⟨y :: l', y, hy, l', hl', rfl⟩

theorem exists_of_mem_mapM {ε α β : Type} {f : α → Except ε β} {l : List α} {l' : List β}
    (h : l.mapM f = .ok l') {y : β} (hy : y ∈ l') : ∃ x ∈ l, f x = .ok y := by
  induction l generalizing l' with
  | nil =>
    cases h
    cases hy
  | cons x l ih =>
    simp only [List.mapM_cons, bind_eq_ok] at h
    obtain ⟨y', hy', l'', hl'', heq⟩ := h
    cases heq
    rcases List.mem_cons.mp hy with rfl | hmem
    · exact ⟨x, List.mem_cons_self, hy'⟩
    · obtain ⟨z, hz, hfz⟩ := ih hl'' hmem
      exact ⟨z, List.mem_cons_of_mem x hz, hfz⟩

/-- A list of encoded values decodes to the list, if each value does. -/
theorem mapM_map_ok {ε α β γ : Type} {f : β → Except ε γ} {enc : α → β} {g : α → γ} {l : List α}
    (h : ∀ x ∈ l, f (enc x) = .ok (g x)) : (l.map enc).mapM f = .ok (l.map g) := by
  induction l with
  | nil => rfl
  | cons x l ih =>
    have hrest := ih fun y hy => h y (List.mem_cons_of_mem _ hy)
    simp only [List.map_cons, List.mapM_cons, h x List.mem_cons_self, hrest, ok_bind]
    rfl

theorem map_eq_of_mapM {ε α β : Type} {f : α → Except ε β} {g : β → α}
    (hg : ∀ {x y}, f x = .ok y → g y = x) {l : List α} {l' : List β}
    (h : l.mapM f = .ok l') : l'.map g = l := by
  induction l generalizing l' with
  | nil =>
    cases h
    rfl
  | cons x l ih =>
    simp only [List.mapM_cons, bind_eq_ok] at h
    obtain ⟨y, hy, l'', hl'', heq⟩ := h
    cases heq
    rw [List.map_cons, hg hy, ih hl'']

/-- What every step of a loop that may throw preserves, the whole loop preserves; the invariant
    may speak of what is left to do. -/
theorem foldlM_rest {ε σ α : Type} {f : σ → α → Except ε σ} (I : List α → σ → Prop)
    (hstep : ∀ {a l s s'}, I (a :: l) s → f s a = .ok s' → I l s') {l : List α} {s s' : σ}
    (hs : I l s) (h : l.foldlM f s = .ok s') : I [] s' := by
  induction l generalizing s with
  | nil =>
    cases h
    exact hs
  | cons a l ih =>
    rw [List.foldlM_cons, bind_eq_ok] at h
    obtain ⟨s₁, hs₁, hl⟩ := h
    exact ih (hstep hs hs₁) hl

theorem foldlM_invariant {ε σ α : Type} {f : σ → α → Except ε σ} (P : σ → Prop)
    (hstep : ∀ {s a s'}, f s a = .ok s' → P s → P s') {l : List α} {s s' : σ}
    (h : l.foldlM f s = .ok s') (hs : P s) : P s' :=
  foldlM_rest (fun _ => P) (fun hs hturn => hstep hturn hs) hs h

/-- A loop that ends has made the turn of each of its elements. -/
theorem exists_turn_of_mem {ε σ α : Type} {f : σ → α → Except ε σ} {l : List α} {s s' : σ}
    (h : l.foldlM f s = .ok s') {a : α} (ha : a ∈ l) :
    ∃ before after s₁ s₂, l = before ++ a :: after ∧ before.foldlM f s = .ok s₁ ∧
      f s₁ a = .ok s₂ ∧ after.foldlM f s₂ = .ok s' := by
  obtain ⟨before, after, rfl⟩ := List.append_of_mem ha
  simp only [List.foldlM_append, List.foldlM_cons, bind_eq_ok] at h
  obtain ⟨s₁, hbefore, s₂, hturn, hafter⟩ := h
  exact ⟨before, after, s₁, s₂, rfl, hbefore, hturn, hafter⟩

/-! ## What a computation may throw -/

/-- Every exception that the computation ends with has the property. -/
def ThrowsOnly {ε α : Type} (E : ε → Prop) (r : Except ε α) : Prop := ∀ e, r = .error e → E e

namespace ThrowsOnly

variable {ε σ α β : Type} {E : ε → Prop}

theorem of_ok {r : Except ε α} {a : α} (h : r = .ok a) : ThrowsOnly E r := by
  intro e he
  rw [h] at he
  cases he

theorem of_error {e : ε} (h : E e) : ThrowsOnly E (.error e : Except ε α) := by
  intro e' he'
  cases he'
  exact h

theorem bind {r : Except ε α} {f : α → Except ε β} (hr : ThrowsOnly E r)
    (hf : ∀ a, r = .ok a → ThrowsOnly E (f a)) : ThrowsOnly E (r >>= f) := by
  cases r with
  | error e => exact fun e' he' => hr e' (by cases he'; rfl)
  | ok a => exact hf a rfl

theorem foldlM {f : σ → α → Except ε σ} (I : List α → σ → Prop)
    (hturn : ∀ {a l s}, I (a :: l) s → ThrowsOnly E (f s a))
    (hstep : ∀ {a l s s'}, I (a :: l) s → f s a = .ok s' → I l s') {l : List α} {s : σ}
    (hs : I l s) : ThrowsOnly E (l.foldlM f s) := by
  induction l generalizing s with
  | nil => exact of_ok rfl
  | cons a l ih =>
    rw [List.foldlM_cons]
    exact (hturn hs).bind fun s' hs' => ih (hstep hs hs')

end ThrowsOnly

end TrustFlow
