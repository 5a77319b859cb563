import TrustFlow.Data.Dict
import TrustFlow.Exception

/-! # Loops that write every key once

Each turn of such a loop looks at one entry of a dictionary and writes it, and an entry that
was written is not taken again.  The loop ends exactly if its keys are different and each
turn succeeds on the dictionary that the loop began with. -/

namespace TrustFlow.Dict

variable {ε κ σ α : Type} [DecidableEq κ]

/-- The turn of `a` succeeds if and only if the entry under its key is related to a value, which
    it writes.  No turn takes a value that was written. -/
structure WritesOnce (f : Dict κ σ → α → Except ε (Dict κ σ)) (key : α → κ)
    (R : Option σ → α → σ → Prop) : Prop where
  ok_iff : ∀ {d a d'}, f d a = .ok d' ↔ ∃ v, R (get? d (key a)) a v ∧ d' = set d (key a) v
  once : ∀ {s a v b w}, R s a v → ¬ R (some v) b w

namespace WritesOnce

variable {f : Dict κ σ → α → Except ε (Dict κ σ)} {key : α → κ} {R : Option σ → α → σ → Prop}

/-- What a loop that ended has read and written. -/
theorem of_foldlM (h : WritesOnce f key R) {l : List α} {d d' : Dict κ σ}
    (hl : l.foldlM f d = .ok d') :
    (l.map key).Nodup ∧
      (∀ a ∈ l, ∃ v, R (get? d (key a)) a v ∧ get? d' (key a) = some v) ∧
      ∀ k ∉ l.map key, get? d' k = get? d k := by
  induction l generalizing d with
  | nil =>
    cases hl
    exact ⟨List.nodup_nil, fun _ ha => absurd ha List.not_mem_nil, fun _ _ => rfl⟩
  | cons a l ih =>
    rw [List.foldlM_cons, bind_eq_ok] at hl
    obtain ⟨d₁, hturn, hrest⟩ := hl
    obtain ⟨v, hv, rfl⟩ := h.ok_iff.mp hturn
    obtain ⟨hnodup, hread, hframe⟩ := ih hrest
    have hnew : key a ∉ l.map key := by
      intro hmem
      obtain ⟨b, hb, hkey⟩ := List.mem_map.mp hmem
      obtain ⟨w, hw, _⟩ := hread b hb
      rw [get?_set, if_pos hkey] at hw
      exact h.once hv hw
    refine ⟨?_, ?_, ?_⟩
    · rw [List.map_cons]
      exact List.nodup_cons.mpr ⟨hnew, hnodup⟩
    · intro b hb
      rcases List.mem_cons.mp hb with rfl | hb
      · exact ⟨v, hv, by rw [hframe _ hnew, get?_set, if_pos rfl]⟩
      · have hne : key b ≠ key a := fun heq => hnew (heq ▸ List.mem_map_of_mem hb)
        obtain ⟨w, hw, hget⟩ := hread b hb
        rw [get?_set, if_neg hne] at hw
        exact ⟨w, hw, hget⟩
    · intro k hk
      rw [List.map_cons, List.mem_cons, not_or] at hk
      rw [hframe k hk.2, get?_set, if_neg hk.1]

theorem exists_foldlM (h : WritesOnce f key R) {l : List α} {d : Dict κ σ}
    (hkeys : (l.map key).Nodup) (hread : ∀ a ∈ l, ∃ v, R (get? d (key a)) a v) :
    ∃ d', l.foldlM f d = .ok d' := by
  induction l generalizing d with
  | nil => exact ⟨d, rfl⟩
  | cons a l ih =>
    rw [List.map_cons, List.nodup_cons] at hkeys
    obtain ⟨v, hv⟩ := hread a List.mem_cons_self
    have hturn : f d a = .ok (set d (key a) v) := h.ok_iff.mpr ⟨v, hv, rfl⟩
    have hrest : ∀ b ∈ l, ∃ w, R (get? (set d (key a) v) (key b)) b w := by
      intro b hb
      have hne : key b ≠ key a := fun heq => hkeys.1 (heq ▸ List.mem_map_of_mem hb)
      rw [get?_set, if_neg hne]
      exact hread b (List.mem_cons_of_mem a hb)
    obtain ⟨d', hd'⟩ := ih hkeys.2 hrest
    exact ⟨d', by rw [List.foldlM_cons, hturn, ok_bind, hd']⟩

end WritesOnce

end TrustFlow.Dict
