import Mathlib.Data.List.Basic

/-! # Lists cut into parts

A loop that returns at the first element it accepts splits its list there: the
split exists as soon as some element is accepted, and it is unique.  A loop that
takes a fixed number of elements at a time cuts its list into pieces of that size
and a rest. -/

namespace TrustFlow

variable {α : Type}

/-! ## The first element with a property -/

theorem exists_first_split {P : α → Prop} :
    ∀ {l : List α}, (∃ x ∈ l, P x) →
      ∃ before x after, l = before ++ x :: after ∧ (∀ y ∈ before, ¬ P y) ∧ P x
  | [], h => by
    obtain ⟨x, hx, _⟩ := h
    exact absurd hx List.not_mem_nil
  | a :: l, h => by
    by_cases ha : P a
    · exact ⟨[], a, l, rfl, fun y hy => absurd hy List.not_mem_nil, ha⟩
    · have hl : ∃ x ∈ l, P x := by
        obtain ⟨x, hx, hPx⟩ := h
        rcases List.mem_cons.mp hx with rfl | hx
        · exact absurd hPx ha
        · exact ⟨x, hx, hPx⟩
      obtain ⟨before, x, after, hl, hbefore, hx⟩ := exists_first_split hl
      refine ⟨a :: before, x, after, by rw [hl, List.cons_append], ?_, hx⟩
      intro y hy
      rcases List.mem_cons.mp hy with rfl | hy
      · exact ha
      · exact hbefore y hy

theorem first_split_unique {P : α → Prop} :
    ∀ {l₁ r₁ l₂ r₂ : List α} {a₁ a₂ : α},
      (∀ y ∈ l₁, ¬ P y) → P a₁ → (∀ y ∈ l₂, ¬ P y) → P a₂ →
      l₁ ++ a₁ :: r₁ = l₂ ++ a₂ :: r₂ → l₁ = l₂ ∧ a₁ = a₂ ∧ r₁ = r₂
  | [], _, [], _, _, _, _, _, _, _, h => by
    simp only [List.nil_append, List.cons.injEq] at h
    exact ⟨rfl, h.1, h.2⟩
  | [], _, x :: l₂, _, _, _, _, hP, hl₂, _, h => by
    simp only [List.nil_append, List.cons_append, List.cons.injEq] at h
    exact absurd (h.1 ▸ hP) (hl₂ x List.mem_cons_self)
  | x :: l₁, _, [], _, _, _, hl₁, _, _, hP, h => by
    simp only [List.nil_append, List.cons_append, List.cons.injEq] at h
    exact absurd (h.1 ▸ hP) (hl₁ x List.mem_cons_self)
  | x :: l₁, _, y :: l₂, _, _, _, hl₁, hP₁, hl₂, hP₂, h => by
    simp only [List.cons_append, List.cons.injEq] at h
    obtain ⟨hl, ha, hr⟩ := first_split_unique
      (fun z hz => hl₁ z (List.mem_cons_of_mem _ hz)) hP₁
      (fun z hz => hl₂ z (List.mem_cons_of_mem _ hz)) hP₂ h.2
    exact ⟨by rw [h.1, hl], ha, hr⟩

/-- An element is the first with a property that none of those before it has. -/
theorem find?_of_pairwise {R : α → α → Prop} {l : List α} (h : l.Pairwise R) {p : α → Bool}
    {x : α} (hx : x ∈ l) (hpx : p x = true) (hR : ∀ y, R y x → p y = false) :
    l.find? p = some x := by
  induction l with
  | nil => cases hx
  | cons y l ih =>
    obtain ⟨hfirst, hrest⟩ := List.pairwise_cons.mp h
    rcases List.mem_cons.mp hx with rfl | hx
    · exact List.find?_cons_of_pos hpx
    · rw [List.find?_cons_of_neg (by simpa using hR y (hfirst x hx)), ih hrest hx]

/-! ## Pieces of a fixed size -/

/-- The first `n` pieces of `size` elements, and what is left as the last piece. -/
def cut (size : Nat) : Nat → List α → List (List α)
  | 0, l => [l]
  | n + 1, l => l.take size :: cut size n (l.drop size)

theorem cut_length (size n : Nat) (l : List α) : (cut size n l).length = n + 1 := by
  induction n generalizing l with
  | zero => rfl
  | succ n ih => rw [cut, List.length_cons, ih]

theorem cut_flatten (size n : Nat) (l : List α) : (cut size n l).flatten = l := by
  induction n generalizing l with
  | zero => simp [cut]
  | succ n ih => rw [cut, List.flatten_cons, ih, List.take_append_drop]

theorem cut_flatten_append {size : Nat} {front : List (List α)} (last : List α)
    (h : ∀ piece ∈ front, piece.length = size) :
    cut size front.length (front.flatten ++ last) = front ++ [last] := by
  induction front with
  | nil => rfl
  | cons piece front ih =>
    have hpiece := h piece List.mem_cons_self
    have hfront := ih fun p hp => h p (List.mem_cons_of_mem _ hp)
    simp only [List.length_cons, List.flatten_cons, cut, List.append_assoc, List.cons_append]
    rw [List.take_left' hpiece, List.drop_left' hpiece, hfront]

theorem cut_eq_append (size n : Nat) {l : List α} (h : n * size ≤ l.length) :
    ∃ front last, cut size n l = front ++ [last] ∧ front.length = n ∧
      (∀ piece ∈ front, piece.length = size) ∧ last.length = l.length - n * size := by
  induction n generalizing l with
  | zero => exact ⟨[], l, rfl, rfl, by simp, by simp⟩
  | succ n ih =>
    rw [Nat.succ_mul] at h
    have hrest : n * size ≤ (l.drop size).length := by
      rw [List.length_drop]
      omega
    obtain ⟨front, last, hcut, hcount, hsize, hlast⟩ := ih hrest
    refine ⟨l.take size :: front, last, by rw [cut, hcut, List.cons_append],
      by rw [List.length_cons, hcount], ?_, ?_⟩
    · intro piece hpiece
      rcases List.mem_cons.mp hpiece with rfl | hpiece
      · exact List.length_take_of_le (by omega)
      · exact hsize piece hpiece
    · rw [hlast, List.length_drop, Nat.succ_mul]
      omega

theorem length_flatten_of_forall {size : Nat} {pieces : List (List α)}
    (h : ∀ piece ∈ pieces, piece.length = size) :
    pieces.flatten.length = pieces.length * size := by
  induction pieces with
  | nil => simp
  | cons piece pieces ih =>
    have hpiece := h piece List.mem_cons_self
    have hpieces := ih fun p hp => h p (List.mem_cons_of_mem _ hp)
    rw [List.flatten_cons, List.length_append, hpiece, hpieces, List.length_cons, Nat.succ_mul,
      Nat.add_comm]

end TrustFlow
