import TrustFlow.Data.Dict
import TrustFlow.Exception
import TrustFlow.PyStr

/-! # Python values

The values that a program of dataclasses handles, and how keyword arguments become an
instance of a dataclass.  The classes and the scalars other than texts are of any type.

* `All` — a property of a value and of everything inside it;
* `construct` — the `__init__` of a dataclass whose optional fields default to None;
* `convert` — a step that replaces one item of a dictionary. -/

namespace TrustFlow

inductive PyValue (γ κ : Type) where
  | none
  | scalar (x : κ)
  | str (s : PyStr)
  | list (items : List (PyValue γ κ))
  | dict (items : List (PyStr × PyValue γ κ))
  | object (cls : γ) (attrs : List (PyStr × PyValue γ κ))

/-- The exceptions of the interpreter and of the JSON library. -/
inductive PyError where
  | typeError
  | jsonDecodeError
deriving DecidableEq

/-- A field of a dataclass; one that is not required defaults to None. -/
structure PyField where
  name : PyStr
  required : Bool
deriving DecidableEq

namespace PyValue

variable {γ κ : Type}

def isNone : PyValue γ κ → Bool
  | none => true
  | _ => false

/-- The value of an optional text. -/
def optStr : Option PyStr → PyValue γ κ
  | some s => .str s
  | Option.none => .none

theorem ne_none_of_isNone {v : PyValue γ κ} (h : v.isNone = false) : v ≠ none := by
  rintro rfl
  cases h

/-! ## Everything inside a value -/

/-- What holds of a value as soon as it holds of everything inside it holds of every value. -/
theorem nested_induction {motive : PyValue γ κ → Prop} (none : motive .none)
    (scalar : ∀ x, motive (.scalar x)) (str : ∀ s, motive (.str s))
    (list : ∀ items : List (PyValue γ κ), (∀ v ∈ items, motive v) → motive (.list items))
    (dict : ∀ items : List (PyStr × PyValue γ κ),
      (∀ kv ∈ items, motive kv.2) → motive (.dict items))
    (object : ∀ (cls : γ) (attrs : List (PyStr × PyValue γ κ)),
      (∀ kv ∈ attrs, motive kv.2) → motive (.object cls attrs)) (v : PyValue γ κ) : motive v :=
  -- The recursor has a motive for lists of values, for lists of items, and for an item.
  @PyValue.rec γ κ motive (fun items => ∀ v ∈ items, motive v)
    (fun attrs => ∀ kv ∈ attrs, motive kv.2) (fun kv => motive kv.2) none scalar str list dict
    object (fun _ h => absurd h List.not_mem_nil)
    (fun _ _ hv hitems => List.forall_mem_cons.mpr ⟨hv, hitems⟩)
    (fun _ h => absurd h List.not_mem_nil)
    (fun _ _ hkv hattrs => List.forall_mem_cons.mpr ⟨hkv, hattrs⟩) (fun _ _ hv => hv) v

mutual

def All (p : PyValue γ κ → Prop) : PyValue γ κ → Prop
  | .none => p .none
  | .scalar x => p (.scalar x)
  | .str s => p (.str s)
  | .list items => p (.list items) ∧ AllItems p items
  | .dict items => p (.dict items) ∧ AllAttrs p items
  | .object cls attrs => p (.object cls attrs) ∧ AllAttrs p attrs

def AllItems (p : PyValue γ κ → Prop) : List (PyValue γ κ) → Prop
  | [] => True
  | v :: items => All p v ∧ AllItems p items

def AllAttrs (p : PyValue γ κ → Prop) : List (PyStr × PyValue γ κ) → Prop
  | [] => True
  | (_, v) :: attrs => All p v ∧ AllAttrs p attrs

end

theorem allItems_iff {p : PyValue γ κ → Prop} {items : List (PyValue γ κ)} :
    AllItems p items ↔ ∀ v ∈ items, v.All p := by
  induction items with
  | nil => simp [AllItems]
  | cons v items ih => simp [AllItems, ih]

theorem allAttrs_iff {p : PyValue γ κ → Prop} {attrs : List (PyStr × PyValue γ κ)} :
    AllAttrs p attrs ↔ ∀ kv ∈ attrs, kv.2.All p := by
  induction attrs with
  | nil => simp [AllAttrs]
  | cons kv attrs ih => simp [AllAttrs, ih]

def NoNull (v : PyValue γ κ) : Prop := v.All (· ≠ .none)

/-! ## Instances of dataclasses -/

/-- `cls(**kwargs)`. -/
def construct (fields : γ → List PyField) (cls : γ) (kwargs : List (PyStr × PyValue γ κ)) :
    Except PyError (PyValue γ κ) :=
  if (Dict.keys kwargs).all fun k => (fields cls).any fun f => f.name = k then
    if (fields cls).all fun f => !f.required || (Dict.get? kwargs f.name).isSome then
      .ok (.object cls ((fields cls).map fun f =>
        (f.name, (Dict.get? kwargs f.name).getD .none)))
    else .error .typeError
  else .error .typeError

/-- `cls(**value)`, where only a dictionary can be unpacked. -/
def constructFrom (fields : γ → List PyField) (cls : γ) (value : PyValue γ κ) :
    Except PyError (PyValue γ κ) :=
  match value with
  | .dict kwargs => construct fields cls kwargs
  | _ => .error .typeError

/-- The values that a `for` runs over. -/
def iterate : PyValue γ κ → Except PyError (List (PyValue γ κ))
  | .list items => .ok items
  | .str s => .ok (s.map fun c => .str [c])
  | .dict items => .ok (items.map fun kv => .str kv.1)
  | _ => .error .typeError

/-- `[f(item) for item in value]`. -/
def listOf (f : PyValue γ κ → Except PyError (PyValue γ κ)) (value : PyValue γ κ) :
    Except PyError (PyValue γ κ) := do
  let items ← iterate value
  let results ← items.mapM f
  return .list results

/-- `if key in data and data[key] is not None: data[key] = f(data[key])`. -/
def convert (key : PyStr) (f : PyValue γ κ → Except PyError (PyValue γ κ))
    (data : List (PyStr × PyValue γ κ)) : Except PyError (List (PyStr × PyValue γ κ)) :=
  match Dict.get? data key with
  | .some value =>
    if value.isNone then .ok data
    else do
      let result ← f value
      return Dict.set data key result
  | .none => .ok data

/-- A list of encoded values is decoded as soon as each of its items is. -/
theorem listOf_map {α : Type} {items : List α} {enc toPy : α → PyValue γ κ}
    {f : PyValue γ κ → Except PyError (PyValue γ κ)}
    (hf : ∀ x ∈ items, f (enc x) = .ok (toPy x)) :
    listOf f (.list (items.map enc)) = .ok (.list (items.map toPy)) := by
  have hmapM : (items.map enc).mapM f = .ok (items.map toPy) := by
    induction items with
    | nil => rfl
    | cons x items ih =>
      have hitems := ih fun y hy => hf y (List.mem_cons_of_mem _ hy)
      simp only [List.map_cons, List.mapM_cons, hf x List.mem_cons_self, hitems, ok_bind]
      rfl
  simp only [listOf, iterate, ok_bind, hmapM]
  rfl

/-! ## The fields that are set -/

def present (attrs : List (PyStr × PyValue γ κ)) : List (PyStr × PyValue γ κ) :=
  attrs.filter fun kv => !kv.2.isNone

/-- The attributes of an instance are the fields of its class, and the required ones are set. -/
structure Fits (fields : List PyField) (attrs : List (PyStr × PyValue γ κ)) : Prop where
  names : Dict.keys attrs = fields.map PyField.name
  nodup : (fields.map PyField.name).Nodup
  required : ∀ f ∈ fields, f.required = true → Dict.get? (present attrs) f.name ≠ Option.none

theorem keys_present_sublist (attrs : List (PyStr × PyValue γ κ)) :
    (Dict.keys (present attrs)).Sublist (Dict.keys attrs) :=
  List.filter_sublist.map Prod.fst

theorem get?_present {attrs : List (PyStr × PyValue γ κ)} (hkeys : (Dict.keys attrs).Nodup)
    {k : PyStr} {v : PyValue γ κ} (h : (k, v) ∈ attrs) :
    (Dict.get? (present attrs) k).getD .none = v := by
  have hpresent : (Dict.keys (present attrs)).Nodup := hkeys.sublist (keys_present_sublist attrs)
  by_cases hv : v.isNone = true
  · have hnone : Dict.get? (present attrs) k = Option.none := by
      rw [Dict.get?_eq_none_iff]
      intro hmem
      obtain ⟨⟨k', v'⟩, hkv, rfl⟩ := List.mem_map.mp hmem
      obtain ⟨hattrs, hset⟩ := List.mem_filter.mp hkv
      have hsame := Dict.get?_of_mem hkeys hattrs
      rw [Dict.get?_of_mem hkeys h] at hsame
      cases hsame
      simp [hv] at hset
    rw [hnone]
    cases v with
    | none => rfl
    | _ => cases hv
  · rw [Dict.get?_of_mem hpresent (List.mem_filter.mpr ⟨h, by simpa using hv⟩)]
    rfl

/-- The fields that are set, passed as keyword arguments, give the instance back. -/
theorem construct_present {fields : γ → List PyField} {cls : γ}
    {attrs : List (PyStr × PyValue γ κ)} (h : Fits (fields cls) attrs) :
    construct fields cls (present attrs) = .ok (.object cls attrs) := by
  have hkeys : (Dict.keys attrs).Nodup := by
    rw [h.names]
    exact h.nodup
  have hknown : ((Dict.keys (present attrs)).all fun k =>
      (fields cls).any fun f => f.name = k) = true := by
    rw [List.all_eq_true]
    intro k hk
    have hname := (keys_present_sublist attrs).subset hk
    rw [h.names] at hname
    obtain ⟨f, hf, rfl⟩ := List.mem_map.mp hname
    exact List.any_eq_true.mpr ⟨f, hf, by simp⟩
  have hrequired : ((fields cls).all fun f =>
      !f.required || (Dict.get? (present attrs) f.name).isSome) = true := by
    rw [List.all_eq_true]
    intro f hf
    cases hreq : f.required with
    | false => rfl
    | true => simpa [Option.isSome_iff_ne_none] using h.required f hf hreq
  -- Each field gets back its value: the one passed, or the None it was left out for.
  have hvalues : ((fields cls).map fun f =>
      (f.name, (Dict.get? (present attrs) f.name).getD .none)) = attrs := by
    have hfields : ((fields cls).map fun f =>
        (f.name, (Dict.get? (present attrs) f.name).getD .none)) =
        (Dict.keys attrs).map fun k => (k, (Dict.get? (present attrs) k).getD .none) := by
      rw [h.names, List.map_map]
      rfl
    rw [hfields, Dict.keys, List.map_map]
    conv_rhs => rw [← List.map_id attrs]
    apply List.map_congr_left
    rintro ⟨k, v⟩ hkv
    simp [get?_present hkeys hkv]
  rw [construct, if_pos hknown, if_pos hrequired, hvalues]

/-- Converting one item of a dictionary that holds encoded values decodes that item. -/
theorem convert_map {items : List (PyStr × PyValue γ κ)} (hkeys : (Dict.keys items).Nodup)
    (enc : PyStr → PyValue γ κ → PyValue γ κ)
    (hset : ∀ kv ∈ items, (enc kv.1 kv.2).isNone = false) {key : PyStr}
    {f : PyValue γ κ → Except PyError (PyValue γ κ)}
    (hf : ∀ v, (key, v) ∈ items → f (enc key v) = .ok v) :
    convert key f (items.map fun kv => (kv.1, enc kv.1 kv.2)) =
      .ok (items.map fun kv => (kv.1, if kv.1 = key then kv.2 else enc kv.1 kv.2)) := by
  have hkeys' : Dict.keys (items.map fun kv => (kv.1, enc kv.1 kv.2)) = Dict.keys items := by
    rw [Dict.keys, Dict.keys, List.map_map]
    rfl
  cases hget : Dict.get? (items.map fun kv => (kv.1, enc kv.1 kv.2)) key with
  | none =>
    rw [Dict.get?_eq_none_iff, hkeys'] at hget
    simp only [convert, Dict.get?_eq_none_iff.mpr (hkeys' ▸ hget)]
    congr 1
    apply List.map_congr_left
    intro kv hkv
    have hne : kv.1 ≠ key := by
      rintro rfl
      exact hget (List.mem_map_of_mem hkv)
    simp [hne]
  | some w =>
    obtain ⟨⟨k, v⟩, hkv, heq⟩ := List.mem_map.mp (Dict.mem_of_get? hget)
    cases heq
    have hmem : k ∈ Dict.keys (items.map fun kv => (kv.1, enc kv.1 kv.2)) := by
      rw [hkeys']
      exact List.mem_map_of_mem hkv
    simp only [convert, hget, hset _ hkv, hf v hkv, ok_bind, Bool.false_eq_true, if_false]
    rw [Dict.set_eq_map (hkeys' ▸ hkeys) hmem, List.map_map]
    show Except.ok _ = Except.ok _
    congr 1
    apply List.map_congr_left
    rintro ⟨k', v'⟩ hkv'
    by_cases hk : k' = k
    · subst hk
      have hsame := Dict.get?_of_mem hkeys hkv
      rw [Dict.get?_of_mem hkeys hkv'] at hsame
      cases hsame
      simp
    · simp [hk]

end PyValue

end TrustFlow
