import Mathlib.Data.List.Nodup

/-! # Dictionaries

A Python dictionary as the list of its items in insertion order, one for each key.
Setting a key that is there keeps its place; a new key goes to the end. -/

namespace TrustFlow

/-- The items of a dictionary, in insertion order. -/
abbrev Dict (κ α : Type) := List (κ × α)

namespace Dict

variable {κ α : Type} [DecidableEq κ]

def keys (d : Dict κ α) : List κ := d.map Prod.fst

def get? : Dict κ α → κ → Option α
  | [], _ => none
  | (k, v) :: d, key => if k = key then some v else get? d key

def set : Dict κ α → κ → α → Dict κ α
  | [], key, value => [(key, value)]
  | (k, v) :: d, key, value => if k = key then (key, value) :: d else (k, v) :: set d key value

theorem get?_eq_none_iff {d : Dict κ α} {key : κ} : get? d key = none ↔ key ∉ keys d := by
  induction d with
  | nil => simp [get?, keys]
  | cons item d ih =>
    obtain ⟨k, v⟩ := item
    by_cases hk : k = key
    · simp [get?, keys, hk]
    · have hk' : key ≠ k := Ne.symm hk
      simp only [keys] at ih
      simp [get?, keys, hk, hk', ih]

theorem mem_of_get? {d : Dict κ α} {key : κ} {value : α} (h : get? d key = some value) :
    (key, value) ∈ d := by
  induction d with
  | nil => cases h
  | cons item d ih =>
    obtain ⟨k, v⟩ := item
    simp only [get?] at h
    split at h
    next hk =>
      cases h
      rw [hk]
      exact List.mem_cons_self
    next => exact List.mem_cons_of_mem _ (ih h)

theorem get?_of_mem {d : Dict κ α} (hkeys : (keys d).Nodup) {key : κ} {value : α}
    (h : (key, value) ∈ d) : get? d key = some value := by
  induction d with
  | nil => cases h
  | cons item d ih =>
    obtain ⟨k, v⟩ := item
    simp only [keys, List.map_cons, List.nodup_cons] at hkeys
    rcases List.mem_cons.mp h with heq | hmem
    · cases heq
      simp [get?]
    · have hk : k ≠ key := by
        rintro rfl
        exact hkeys.1 (List.mem_map_of_mem hmem)
      simp only [get?, if_neg hk]
      exact ih hkeys.2 hmem

theorem get?_set (d : Dict κ α) (key : κ) (value : α) (key' : κ) :
    get? (set d key value) key' = if key' = key then some value else get? d key' := by
  induction d with
  | nil => simp [set, get?, eq_comm]
  | cons item d ih =>
    obtain ⟨k, v⟩ := item
    by_cases hk : k = key
    · subst hk
      simp only [set, if_true, get?]
      by_cases hk' : k = key'
      · simp [hk']
      · simp [hk', Ne.symm hk']
    · simp only [set, if_neg hk, get?, ih]
      by_cases hk' : k = key'
      · subst hk'
        simp [hk]
      · simp [hk']

theorem mem_keys_set {d : Dict κ α} {key key' : κ} {value : α} :
    key' ∈ keys (set d key value) ↔ key' = key ∨ key' ∈ keys d := by
  rw [← not_iff_not, ← get?_eq_none_iff, get?_set, not_or, ← get?_eq_none_iff]
  by_cases h : key' = key
  · simp [h]
  · simp [h]

/-- Setting a key that is there changes its item and no other. -/
theorem set_eq_map {d : Dict κ α} {key : κ} (hkeys : (keys d).Nodup) (hkey : key ∈ keys d)
    (value : α) : set d key value = d.map fun kv => if kv.1 = key then (key, value) else kv := by
  induction d with
  | nil => cases hkey
  | cons item d ih =>
    obtain ⟨k, v⟩ := item
    simp only [keys, List.map_cons, List.nodup_cons, List.mem_cons] at hkeys hkey
    by_cases hk : k = key
    · subst hk
      have hrest : d.map (fun kv => if kv.1 = k then (k, value) else kv) = d := by
        conv_rhs => rw [← List.map_id d]
        apply List.map_congr_left
        intro kv hkv
        have hne : kv.1 ≠ k := by
          rintro rfl
          exact hkeys.1 (List.mem_map_of_mem hkv)
        simp [hne]
      simp only [set, if_true, List.map_cons, hrest]
    · simp only [set, if_neg hk, List.map_cons]
      rw [ih hkeys.2 (hkey.resolve_left (Ne.symm hk))]

theorem set_of_notMem {d : Dict κ α} {key : κ} (hkey : key ∉ keys d) (value : α) :
    set d key value = d ++ [(key, value)] := by
  induction d with
  | nil => rfl
  | cons item d ih =>
    obtain ⟨k, v⟩ := item
    simp only [keys, List.map_cons, List.mem_cons, not_or] at hkey
    rw [set, if_neg (Ne.symm hkey.1), ih hkey.2, List.cons_append]

/-- Items with different keys, set one after the other. -/
theorem foldl_set {d items : Dict κ α} (hkeys : (keys (d ++ items)).Nodup) :
    items.foldl (fun d kv => set d kv.1 kv.2) d = d ++ items := by
  induction items generalizing d with
  | nil => simp
  | cons kv items ih =>
    have hnew : kv.1 ∉ keys d := by
      intro hmem
      simp only [keys, List.map_append, List.map_cons] at hkeys hmem
      exact (List.nodup_append.mp hkeys).2.2 _ hmem _ List.mem_cons_self rfl
    rw [List.foldl_cons, set_of_notMem hnew, ih (by simpa using hkeys), List.append_assoc]
    rfl

end Dict

end TrustFlow
