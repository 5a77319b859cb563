import TrustFlow.Data.Bytes
import TrustFlow.Data.Lists
import TrustFlow.PyJson

/-! # The JSON form of protobuf messages

A message is read member by member.  A member is known under the name of its field and under
the JSON name, which is the name in lower camel case; a null leaves its field as it is, and an
unknown member is an error.  A message is printed with the JSON names, and without the fields
that have their default value.

* `readMember_of_mem` — which field a member is read into;
* `foldlM_strMembers` — a message with string fields only, read from optional values;
* `mem_printMembers` — a field that is set is printed, under its JSON name. -/

namespace TrustFlow.ProtoJson

open PyValue

variable {γ κ α β : Type}

/-! ## Names -/

def camelCase : Bool → List Char → List Char
  | _, [] => []
  | capitalizeNext, c :: cs =>
    if c = '_' then camelCase true cs
    else (if capitalizeNext then c.toUpper else c) :: camelCase false cs

def jsonName (name : String) : String := String.ofList (camelCase false name.toList)

theorem eq_of_toUpper_eq_underscore {c : Char} (h : c.toUpper = '_') : c = '_' := by
  unfold Char.toUpper at h
  split at h
  next hlower =>
    -- An underscore is not the capital of a letter.
    injection h with hval
    have hval : c.val = 127 := by
      rw [← UInt32.add_sub_cancel c.val ('A'.val - 'a'.val), hval]
      rfl
    rw [hval] at hlower
    exact absurd hlower (by decide)
  next => exact h

theorem underscore_not_mem_camelCase (capitalizeNext : Bool) (cs : List Char) :
    '_' ∉ camelCase capitalizeNext cs := by
  induction cs generalizing capitalizeNext with
  | nil => simp [camelCase]
  | cons c cs ih =>
    simp only [camelCase]
    split
    next => exact ih true
    next hc =>
      have hhead : (if capitalizeNext then c.toUpper else c) ≠ '_' := by
        cases capitalizeNext with
        | false => simpa using hc
        | true => exact fun h => hc (eq_of_toUpper_eq_underscore (by simpa using h))
      simpa [hhead.symm] using ih false

theorem jsonName_ne {name other : String} (h : '_' ∈ other.toList) : jsonName name ≠ other := by
  rintro rfl
  rw [jsonName, String.toList_ofList] at h
  exact underscore_not_mem_camelCase _ _ h

/-! ## Reading -/

inductive ReadError where
  | unknownField (name : PyStr)
  | wrongType (name : String)
  | notAnObject
deriving DecidableEq

/-- A field of a message; reading it again merges what is read into the message. -/
structure Field (γ κ α : Type) where
  name : String
  read : PyValue γ κ → α → Except ReadError α

def Field.Named (field : Field γ κ α) (key : PyStr) : Prop :=
  py field.name = key ∨ py (jsonName field.name) = key

instance (field : Field γ κ α) (key : PyStr) : Decidable (field.Named key) :=
  inferInstanceAs (Decidable (_ ∨ _))

def readMember (fields : List (Field γ κ α)) (message : α) (member : PyStr × PyValue γ κ) :
    Except ReadError α :=
  match fields.find? fun field => field.Named member.1 with
  | Option.none => .error (.unknownField member.1)
  | some field => if member.2.isNone then .ok message else field.read member.2 message

def readMessage (fields : List (Field γ κ α)) (message : α) : PyValue γ κ → Except ReadError α
  | .dict members => members.foldlM (readMember fields) message
  | _ => .error .notAnObject

/-- A field of type string; the texts of a JSON value are UTF-8. -/
structure StrField (α : Type) where
  name : String
  get : α → Bytes
  set : Bytes → α → α

def StrField.field (f : StrField α) : Field γ κ α where
  name := f.name
  read
    | .str s, message => .ok (f.set s.utf8 message)
    | _, _ => .error (.wrongType f.name)

/-- A field whose type is a message. -/
def messageField (name : String) (get : α → β) (set : β → α → α) (fields : List (Field γ κ β)) :
    Field γ κ α where
  name := name
  read v message := do return set (← readMessage fields (get message) v) message

/-- A repeated field; each item is read into an empty message. -/
def repeatedField (name : String) (get : α → List β) (set : List β → α → α) (empty : β)
    (fields : List (Field γ κ β)) : Field γ κ α where
  name := name
  read
    | .list items, message => do
      let added ← items.mapM (readMessage fields empty)
      return set (get message ++ added) message
    | _, _ => .error (.wrongType name)

/-- No field is known under the name of a later one. -/
def NamesApart (fields : List (Field γ κ α)) : Prop :=
  fields.Pairwise fun f g => ¬ f.Named (py g.name)

theorem find?_named {fields : List (Field γ κ α)} (h : NamesApart fields) {f : Field γ κ α}
    (hf : f ∈ fields) : (fields.find? fun field => field.Named (py f.name)) = some f :=
  find?_of_pairwise h hf (by simp [Field.Named]) fun _ hnamed => decide_eq_false hnamed

theorem readMember_of_mem {fields : List (Field γ κ α)} (h : NamesApart fields)
    {f : Field γ κ α} (hf : f ∈ fields) (message : α) (v : PyValue γ κ) :
    readMember fields message (py f.name, v) =
      if v.isNone then .ok message else f.read v message := by
  rw [readMember, find?_named h hf]

theorem namesApart_of_names {fields : List (Field γ κ α)} (names : List String)
    (hnames : fields.map Field.name = names)
    (h : names.Pairwise fun a b => a ≠ b ∧ jsonName a ≠ b) : NamesApart fields := by
  subst hnames
  refine (List.pairwise_map.mp h).imp fun hne hnamed => ?_
  exact hnamed.elim (hne.1 ∘ @py_injective _ _) (hne.2 ∘ @py_injective _ _)

/-- The names are different, and none of them is in camel case. -/
theorem pairwise_of_underscore {names : List String} (hnodup : names.Nodup)
    (h : ∀ name ∈ names, '_' ∈ name.toList) :
    names.Pairwise fun a b => a ≠ b ∧ jsonName a ≠ b :=
  hnodup.imp_of_mem fun _ hb hne => ⟨hne, jsonName_ne (h _ hb)⟩

/-! ## String fields -/

/-- Setting one of the fields keeps the others, and a field can be set to what it is. -/
structure Lawful (fields : List (StrField α)) : Prop where
  set_get : ∀ f ∈ fields, ∀ message, f.set (f.get message) message = message
  apart : fields.Pairwise fun f g => ∀ b message, g.get (f.set b message) = g.get message

def optBytes (s : Option PyStr) : Bytes := (s.map PyStr.utf8).getD []

def setAll (fields : List (StrField α)) (values : List (Option PyStr)) (message : α) : α :=
  (fields.zip values).foldl (fun message fv => fv.1.set (optBytes fv.2) message) message

theorem readMember_optStr {all : List (Field γ κ α)} (hall : NamesApart all) {f : StrField α}
    (hf : f.field ∈ all) {message : α} (hset : f.set (f.get message) message = message)
    (hempty : f.get message = []) (s : Option PyStr) :
    readMember all message (py f.name, optStr s) = .ok (f.set (optBytes s) message) := by
  have hread := readMember_of_mem hall hf message (optStr s)
  cases s with
  | none =>
    rw [hempty] at hset
    exact hread.trans (congrArg Except.ok hset.symm)
  | some s => exact hread

/-- Members for the string fields, in the order of the fields, are all taken. -/
theorem foldlM_strMembers {all : List (Field γ κ α)} (hall : NamesApart all)
    {fields : List (StrField α)} (hfields : ∀ f ∈ fields, f.field ∈ all) (h : Lawful fields)
    {message : α} (hempty : ∀ f ∈ fields, f.get message = []) (values : List (Option PyStr)) :
    ((fields.map fun f => py f.name).zip (values.map optStr)).foldlM (readMember all) message =
      .ok (setAll fields values message) := by
  induction fields generalizing message values with
  | nil => rfl
  | cons f fields ih =>
    cases values with
    | nil => rfl
    | cons s values =>
      have hmem : f ∈ f :: fields := List.mem_cons_self
      obtain ⟨hfirst, hrest⟩ := List.pairwise_cons.mp h.apart
      have hlawful : Lawful fields := ⟨fun g hg => h.set_get g (List.mem_cons_of_mem _ hg), hrest⟩
      have hempty' : ∀ g ∈ fields, g.get (f.set (optBytes s) message) = [] := fun g hg =>
        (hfirst g hg _ _).trans (hempty g (List.mem_cons_of_mem _ hg))
      rw [List.map_cons, List.map_cons, List.zip_cons_cons, List.foldlM_cons,
        readMember_optStr hall (hfields f hmem) (h.set_get f hmem message) (hempty f hmem) s,
        ok_bind, ih (fun g hg => hfields g (List.mem_cons_of_mem _ hg)) hlawful hempty' values]
      rfl

/-! ## Printing -/

def printMembers (printString : Bytes → Except Bytes PyStr) (message : α) :
    List (StrField α) → Except Bytes (List (PyStr × PyValue γ κ))
  | [] => .ok []
  | f :: fields =>
    if f.get message = [] then printMembers printString message fields
    else do
      let s ← printString (f.get message)
      let members ← printMembers printString message fields
      return (py (jsonName f.name), .str s) :: members

def printMessage (printString : Bytes → Except Bytes PyStr) (fields : List (StrField α))
    (message : α) : Except Bytes (PyValue γ κ) := do
  let members ← printMembers printString message fields
  return .dict members

section Print

variable {printString : Bytes → Except Bytes PyStr} {message : α} {fields : List (StrField α)}
  {members : List (PyStr × PyValue γ κ)}

theorem mem_printMembers (h : printMembers printString message fields = .ok members)
    {f : StrField α} (hf : f ∈ fields) (hset : f.get message ≠ []) :
    py (jsonName f.name) ∈ Dict.keys members := by
  induction fields generalizing members with
  | nil => cases hf
  | cons g fields ih =>
    simp only [printMembers] at h
    rcases List.mem_cons.mp hf with rfl | hf
    · rw [if_neg hset] at h
      obtain ⟨s, _, h⟩ := bind_eq_ok.mp h
      obtain ⟨rest, _, h⟩ := bind_eq_ok.mp h
      cases h
      exact List.mem_cons_self
    · split at h
      next => exact ih h hf
      next =>
        obtain ⟨s, _, h⟩ := bind_eq_ok.mp h
        obtain ⟨rest, hrest, h⟩ := bind_eq_ok.mp h
        cases h
        exact List.mem_cons_of_mem _ (ih hrest hf)

end Print

/-! ## Texts -/

/-- The JSON texts of the library, and the texts of its errors. -/
structure JsonText (γ κ : Type) where
  parse : Bytes → Except Bytes (PyValue γ κ)
  print : PyValue γ κ → Bytes
  printString : Bytes → Except Bytes PyStr
  status : ReadError → Bytes

/-- `JsonStringToMessage`, into an empty message. -/
def JsonText.decode (json : JsonText γ κ) (fields : List (Field γ κ α)) (empty : α)
    (text : Bytes) : Except Bytes α := do
  let v ← json.parse text
  (readMessage fields empty v).mapError json.status

/-- `MessageToJsonString`. -/
def JsonText.encode (json : JsonText γ κ) (fields : List (StrField α)) (message : α) :
    Except Bytes Bytes := do
  let v ← printMessage json.printString fields message
  return json.print v

/-- A library that writes without blanks and in ASCII. -/
def plainJson : JsonText γ JsonScalar where
  parse b :=
    match PyStr.ofUtf8? b with
    | some s => (PyJson.loads s).mapError fun _ => str "Expected a value."
    | Option.none => .error (str "Invalid UTF-8.")
  print v := (PyJson.write .compact 0 v).utf8
  printString b :=
    match PyStr.ofUtf8? b with
    | some s => .ok s
    | Option.none => .error (str "Invalid UTF-8.")
  status _ := str "Cannot find field."

end TrustFlow.ProtoJson
