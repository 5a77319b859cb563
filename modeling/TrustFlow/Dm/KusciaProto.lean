import TrustFlow.Data.Lists
import TrustFlow.Dm.DataMesh
import TrustFlow.ProtoJson
import TrustFlow.Records

/-! # The JSON of a record

A record of the mesh goes over the wire in two directions.  The uploader writes it with
`json_format.MessageToJson`, and the server reads it with the `Deserialize` that `build.rs`
derives.  The server writes it with the derived `Serialize`, and the receiver of an export reads
it with `json_format.ParseDict`.

The two libraries write differently.  `MessageToJson` leaves out what has its default value and
gives an enumeration by name; the derived code writes every field, an absent message as null and
an enumeration as a number.

* `deserialize_messageToJson`, `parseDict_serialize` — any message whose fields carry over does;
* `domainData_carries_over` — a record does, in both directions, but not from server to server. -/

namespace TrustFlow.Dm.KusciaProto

open Records
open ProtoJson (jsonName)

open PyStr (text)

abbrev Json := JsonValue Empty

/-! ## Message types -/

/-- A field of a message type, as the four functions handle it.  `copy a b` is `b` with the field
    of `a`. -/
structure WireField (α : Type) where
  name : String
  copy : α → α → α
  isDefault : α → Bool
  toJson : α → Json
  serialize : α → Json
  deserialize : Json → α → Except Error α
  convert : Json → α → Except Error α

/-- The fields are different ones, under different names, and there are no others. -/
structure MessageType (α : Type) where
  fields : List (WireField α)
  empty : α
  names : (fields.map WireField.name).Pairwise fun n n' => n ≠ n' ∧ jsonName n ≠ n'
  apart : fields.Pairwise fun f g => ∀ a a' b, g.copy a' (f.copy a b) = f.copy a (g.copy a' b)
  unset : ∀ f ∈ fields, f.copy empty empty = empty
  complete : ∀ a, fields.foldl (fun b f => f.copy a b) empty = a

variable {α β : Type}

def WireField.printed (f : WireField α) : Member PyStr Json α where
  name := py f.name
  write a := if f.isDefault a then none else some (f.toJson a)
  copy := f.copy

def WireField.serialized (f : WireField α) : Member PyStr Json α where
  name := py f.name
  write a := some (f.serialize a)
  copy := f.copy

namespace MessageType

variable (m : MessageType α)

/-- `MessageToJson`, with the names of the fields as they are. -/
def messageToJson (a : α) : Json :=
  .dict (members (m.fields.map WireField.printed) a)

def serialize (a : α) : Json :=
  .dict (members (m.fields.map WireField.serialized) a)

/-- A member that the type does not have is skipped. -/
def visitMember (a : α) (member : PyStr × Json) : Except Error α :=
  match m.fields.find? fun f => py f.name = member.1 with
  | none => .ok a
  | some f => f.deserialize member.2 a

/-- The derived `Deserialize`.  A field may come once, and one that does not come has its default
    value; a list is taken for the fields in their order. -/
def deserialize : Json → Except Error α
  | .dict items =>
    if ((Dict.keys items).filter fun key => m.fields.any fun f => py f.name = key).Nodup then
      items.foldlM m.visitMember m.empty
    else .error .json
  | .list items =>
    if items.length ≤ m.fields.length then
      (m.fields.zip items).foldlM (fun a fv => fv.1.deserialize fv.2 a) m.empty
    else .error .json
  | _ => .error .json

/-- With `ignore_unknown_fields`; a field is known under its name and under its JSON name. -/
def convertMember (a : α) (member : PyStr × Json) : Except Error α :=
  match m.fields.find? fun f => py f.name = member.1 ∨ py (jsonName f.name) = member.1 with
  | none => .ok a
  | some f => f.convert member.2 a

def convertMessage (v : Json) (a : α) : Except Error α :=
  match v with
  | .dict items => items.foldlM m.convertMember a
  | _ => .error .json

def parseDict (v : Json) : Except Error α := m.convertMessage v m.empty

end MessageType

/-! ## Carrying over -/

/-- The field of `a` arrives in a message that has it empty, in both directions. -/
structure WireField.Carries (f : WireField α) (empty a : α) : Prop where
  leftOut : f.isDefault a = true → ∀ b, f.copy empty b = b → f.copy a b = b
  deserialize_toJson : f.isDefault a = false → ∀ b, f.copy empty b = b →
    f.deserialize (f.toJson a) b = .ok (f.copy a b)
  convert_serialize : ∀ b, f.copy empty b = b → f.convert (f.serialize a) b = .ok (f.copy a b)

namespace MessageType

variable {m : MessageType α} {a : α}

theorem visitMember_of_mem {f : WireField α} (hf : f ∈ m.fields) (v : Json) (b : α) :
    m.visitMember b (py f.name, v) = f.deserialize v b := by
  have hfind : (m.fields.find? fun g => py g.name = py f.name) = some f :=
    find?_of_pairwise (List.pairwise_map.mp m.names) hf (by simp) fun _ h =>
      decide_eq_false (h.1 ∘ @py_injective _ _)
  rw [visitMember, hfind]

theorem convertMember_of_mem {f : WireField α} (hf : f ∈ m.fields) (v : Json) (b : α) :
    m.convertMember b (py f.name, v) = f.convert v b := by
  have hfind : (m.fields.find? fun g => py g.name = py f.name ∨ py (jsonName g.name) =
      py f.name) = some f :=
    find?_of_pairwise (List.pairwise_map.mp m.names) hf (by simp) fun _ h =>
      decide_eq_false (not_or.mpr ⟨h.1 ∘ @py_injective _ _, h.2 ∘ @py_injective _ _⟩)
  rw [convertMember, hfind]

theorem nodup_printed : (Dict.keys (members (m.fields.map WireField.printed) a)).Nodup := by
  have hnames : (m.fields.map WireField.name).Nodup := m.names.imp And.left
  have hsublist := keys_members_sublist (m.fields.map WireField.printed) a
  rw [List.map_map] at hsublist
  have hkeys := hnames.map py_injective
  rw [List.map_map] at hkeys
  exact hkeys.sublist hsublist

theorem copyAll_map (toMember : WireField α → Member PyStr Json α)
    (hcopy : ∀ f, (toMember f).copy = f.copy) :
    copyAll (m.fields.map toMember) a m.empty = a := by
  rw [copyAll, List.foldl_map]
  simp only [hcopy]
  exact m.complete a

theorem deserialize_messageToJson (h : ∀ f ∈ m.fields, f.Carries m.empty a) :
    m.deserialize (m.messageToJson a) = .ok a := by
  have htaken : ∀ f ∈ m.fields.map WireField.printed, Taken m.visitMember m.empty a f := by
    intro g hg
    obtain ⟨f, hf, rfl⟩ := List.mem_map.mp hg
    refine ⟨fun v b hv hb => ?_, fun hnone => ?_⟩
    · simp only [WireField.printed] at hv hb ⊢
      split at hv
      next => cases hv
      next hdefault =>
        cases hv
        rw [visitMember_of_mem hf]
        exact (h f hf).deserialize_toJson (by simpa using hdefault) b hb
    · apply (h f hf).leftOut
      simpa [WireField.printed] using hnone
  have hread := foldlM_members htaken (List.pairwise_map.mpr m.apart)
    (List.forall_mem_map.mpr m.unset)
  rw [copyAll_map WireField.printed fun _ => rfl] at hread
  rw [messageToJson, deserialize, if_pos (nodup_printed.filter _), hread]

theorem parseDict_serialize (h : ∀ f ∈ m.fields, f.Carries m.empty a) :
    m.parseDict (m.serialize a) = .ok a := by
  have htaken : ∀ f ∈ m.fields.map WireField.serialized, Taken m.convertMember m.empty a f := by
    intro g hg
    obtain ⟨f, hf, rfl⟩ := List.mem_map.mp hg
    refine ⟨fun v b hv hb => ?_, fun hnone => by cases hnone⟩
    cases hv
    exact (convertMember_of_mem hf _ b).trans ((h f hf).convert_serialize b hb)
  have hread := foldlM_members htaken (List.pairwise_map.mpr m.apart)
    (List.forall_mem_map.mpr m.unset)
  rw [copyAll_map WireField.serialized fun _ => rfl] at hread
  exact hread

/-- A field whose own form is refused keeps the derived code from reading what it has written. -/
theorem deserialize_serialize_ne_ok {f : WireField α} (hf : f ∈ m.fields)
    (hrefused : ∀ b b', f.deserialize (f.serialize a) b ≠ .ok b') (a' : α) :
    m.deserialize (m.serialize a) ≠ .ok a' := by
  have hmember : (py f.name, f.serialize a) ∈ members (m.fields.map WireField.serialized) a :=
    List.mem_filterMap.mpr ⟨f.serialized, List.mem_map_of_mem hf, rfl⟩
  rw [serialize, deserialize]
  split
  next =>
    refine foldlM_ne_ok (fun b b' => ?_) hmember m.empty a'
    rw [visitMember_of_mem hf]
    exact hrefused b b'
  next => simp

end MessageType

/-! ## Kinds of fields -/

/-- Where a message has a value. -/
structure Slot (α β : Type) where
  get : α → β
  set : β → α → α
  get_set : ∀ x a, get (set x a) = x

def textField (name : String) (slot : Slot α Bytes) : WireField α where
  name := name
  copy a b := slot.set (slot.get a) b
  isDefault a := (slot.get a).isEmpty
  toJson a := .str (text (slot.get a))
  serialize a := .str (text (slot.get a))
  deserialize
    | .str s, b => .ok (slot.set s.utf8 b)
    | _, _ => .error .json
  convert
    | .none, b => .ok (slot.set [] b)
    | .str s, b => .ok (slot.set s.utf8 b)
    | _, _ => .error .json

def textItem (d : List (Bytes × Bytes)) (item : PyStr × Json) :
    Except Error (List (Bytes × Bytes)) :=
  match item.2 with
  | .str s => .ok (Dict.set d item.1.utf8 s.utf8)
  | _ => .error .json

def textDict (d : List (Bytes × Bytes)) : Json :=
  .dict (d.map fun kv => (text kv.1, .str (text kv.2)))

/-- A field of type `map<string,string>`. -/
def mapField (name : String) (slot : Slot α (List (Bytes × Bytes))) : WireField α where
  name := name
  copy a b := slot.set (slot.get a) b
  isDefault a := (slot.get a).isEmpty
  toJson a := textDict (slot.get a)
  serialize a := textDict (slot.get a)
  deserialize
    | .dict items, b => do return slot.set (← items.foldlM textItem []) b
    | _, _ => .error .json
  convert
    | .none, b => .ok (slot.set [] b)
    | .dict items, b => do return slot.set (← items.foldlM textItem []) b
    | _, _ => .error .json

def optionalField (name : String) (m : MessageType β) (slot : Slot α (Option β)) :
    WireField α where
  name := name
  copy a b := slot.set (slot.get a) b
  isDefault a := (slot.get a).isNone
  toJson a := ((slot.get a).map m.messageToJson).getD .none
  serialize a := ((slot.get a).map m.serialize).getD .none
  deserialize
    | .none, b => .ok (slot.set none b)
    | v, b => do return slot.set (some (← m.deserialize v)) b
  convert
    | .none, b => .ok (slot.set none b)
    -- A message that is there already is read into.
    | v, b => do return slot.set (some (← m.convertMessage v ((slot.get b).getD m.empty))) b

def repeatedField (name : String) (m : MessageType β) (slot : Slot α (List β)) : WireField α where
  name := name
  copy a b := slot.set (slot.get a) b
  isDefault a := (slot.get a).isEmpty
  toJson a := .list ((slot.get a).map m.messageToJson)
  serialize a := .list ((slot.get a).map m.serialize)
  deserialize
    | .list items, b => do return slot.set (← items.mapM m.deserialize) b
    | _, _ => .error .json
  convert
    | .none, b => .ok (slot.set [] b)
    | .list items, b => do return slot.set (← items.mapM m.parseDict) b
    | _, _ => .error .json

def FileFormat.name : FileFormat → String
  | .unknown => "UNKNOWN"
  | .csv => "CSV"

def FileFormat.number : FileFormat → Int
  | .unknown => 0
  | .csv => 1

/-- `to_lowercase`, as far as it can give a letter of the names; the Kelvin sign does. -/
def toLowercase (c : Char) : Char := if c = '\u212a' then 'k' else c.toLower

/-- `FileFormat::from_str`. -/
def fileFormatFromStr : Json → Except Error FileFormat
  | .str s =>
    let lower := String.ofList (s.chars.toList.map toLowercase)
    if lower = "unknown" then .ok .unknown
    else if lower = "csv" then .ok .csv
    else .error .json
  | _ => .error .json

/-- `ParseDict` takes the names and the numbers. -/
def fileFormatOf : Json → Except Error FileFormat
  | .none => .ok .unknown
  | .str s =>
    if s = py "UNKNOWN" then .ok .unknown
    else if s = py "CSV" then .ok .csv
    else .error .json
  | .scalar (.int n) => if n = 0 then .ok .unknown else if n = 1 then .ok .csv else .error .json
  | _ => .error .json

def fileFormatField (name : String) (slot : Slot α FileFormat) : WireField α where
  name := name
  copy a b := slot.set (slot.get a) b
  isDefault a := slot.get a = .unknown
  toJson a := .str (py (FileFormat.name (slot.get a)))
  serialize a := .scalar (.int (FileFormat.number (slot.get a)))
  deserialize v b := do return slot.set (← fileFormatFromStr v) b
  convert v b := do return slot.set (← fileFormatOf v) b

/-! ## The messages -/

def dataColumn : MessageType DataColumn where
  fields :=
    [textField "name" ⟨DataColumn.name, fun x a => { a with name := x }, fun _ _ => rfl⟩,
     textField "type" ⟨DataColumn.type, fun x a => { a with type := x }, fun _ _ => rfl⟩,
     textField "comment" ⟨DataColumn.comment, fun x a => { a with comment := x }, fun _ _ => rfl⟩]
  empty := ⟨[], [], []⟩
  names := by decide
  apart := by simp [textField]
  unset := by simp [textField]
  complete _ := rfl

def partition : MessageType Partition where
  fields :=
    [textField "type" ⟨Partition.type, fun x a => { a with type := x }, fun _ _ => rfl⟩,
     repeatedField "fields" dataColumn
      ⟨Partition.fields, fun x a => { a with fields := x }, fun _ _ => rfl⟩]
  empty := ⟨[], []⟩
  names := by decide
  apart := by simp [textField, repeatedField]
  unset := by simp [textField, repeatedField]
  complete _ := rfl

def domainData : MessageType DomainData where
  fields :=
    [textField "domaindata_id"
      ⟨DomainData.domaindataId, fun x a => { a with domaindataId := x }, fun _ _ => rfl⟩,
     textField "name" ⟨DomainData.name, fun x a => { a with name := x }, fun _ _ => rfl⟩,
     textField "type" ⟨DomainData.type, fun x a => { a with type := x }, fun _ _ => rfl⟩,
     textField "relative_uri"
      ⟨DomainData.relativeUri, fun x a => { a with relativeUri := x }, fun _ _ => rfl⟩,
     textField "datasource_id"
      ⟨DomainData.datasourceId, fun x a => { a with datasourceId := x }, fun _ _ => rfl⟩,
     mapField "attributes"
      ⟨DomainData.attributes, fun x a => { a with attributes := x }, fun _ _ => rfl⟩,
     optionalField "partition" partition
      ⟨DomainData.partition, fun x a => { a with partition := x }, fun _ _ => rfl⟩,
     repeatedField "columns" dataColumn
      ⟨DomainData.columns, fun x a => { a with columns := x }, fun _ _ => rfl⟩,
     textField "vendor" ⟨DomainData.vendor, fun x a => { a with vendor := x }, fun _ _ => rfl⟩,
     fileFormatField "file_format"
      ⟨DomainData.fileFormat, fun x a => { a with fileFormat := x }, fun _ _ => rfl⟩,
     textField "author" ⟨DomainData.author, fun x a => { a with author := x }, fun _ _ => rfl⟩]
  empty := ⟨[], [], [], [], [], [], none, [], [], .unknown, []⟩
  names := by decide
  apart := by simp [textField, mapField, optionalField, repeatedField, fileFormatField]
  unset := by simp [textField, mapField, optionalField, repeatedField, fileFormatField]
  complete := by simp [textField, mapField, optionalField, repeatedField, fileFormatField]

/-! ## Records that carry over -/

/-- A map has one value for each key. -/
structure IsTextMap (d : List (Bytes × Bytes)) : Prop where
  texts : ∀ kv ∈ d, IsUtf8 kv.1 ∧ IsUtf8 kv.2
  keys : (Dict.keys d).Nodup

/-- Every message of the type carries over that is of texts. -/
def MessageType.CarriesOver (m : MessageType α) (a : α) : Prop :=
  ∀ f ∈ m.fields, f.Carries m.empty a

section Kinds

variable {name : String} {empty a : α}

theorem Slot.get_of_unset {slot : Slot α β} {b : α}
    (hb : slot.set (slot.get empty) b = b) : slot.get b = slot.get empty := by
  have hget := slot.get_set (slot.get empty) b
  rwa [hb] at hget

theorem Slot.set_of_default {slot : Slot α β} (hget : slot.get a = slot.get empty) {b : α}
    (hb : slot.set (slot.get empty) b = b) : slot.set (slot.get a) b = b := by
  rw [hget, hb]

theorem textField_carries {slot : Slot α Bytes} (hempty : slot.get empty = [])
    (ha : IsUtf8 (slot.get a)) : (textField name slot).Carries empty a where
  leftOut hdefault _ hb :=
    Slot.set_of_default ((List.isEmpty_iff.mp hdefault).trans hempty.symm) hb
  deserialize_toJson _ b _ := congrArg (fun x => Except.ok (slot.set x b)) (utf8_text ha)
  convert_serialize b _ := congrArg (fun x => Except.ok (slot.set x b)) (utf8_text ha)

/-- The items of a map are set one after the other. -/
theorem foldlM_textItem {d : List (Bytes × Bytes)} (hd : ∀ kv ∈ d, IsUtf8 kv.1 ∧ IsUtf8 kv.2)
    (acc : List (Bytes × Bytes)) (hkeys : (Dict.keys (acc ++ d)).Nodup) :
    (d.map fun kv => (text kv.1, (.str (text kv.2) : Json))).foldlM textItem acc =
      .ok (acc ++ d) := by
  induction d generalizing acc with
  | nil => simp [pure, Except.pure]
  | cons kv d ih =>
    obtain ⟨⟨hkey, hvalue⟩, hrest⟩ := List.forall_mem_cons.mp hd
    have hfresh : kv.1 ∉ Dict.keys acc := by
      intro hmem
      simp only [Dict.keys, List.map_append, List.map_cons, List.nodup_append] at hkeys
      exact hkeys.2.2 kv.1 hmem kv.1 List.mem_cons_self rfl
    have hitem : textItem acc (text kv.1, .str (text kv.2)) = .ok (acc ++ [kv]) := by
      simp only [textItem, utf8_text hkey, utf8_text hvalue, Dict.set_of_notMem hfresh]
    rw [List.map_cons, List.foldlM_cons, hitem, ok_bind, ih hrest _ (by simpa using hkeys)]
    simp

theorem mapField_carries {slot : Slot α (List (Bytes × Bytes))} (hempty : slot.get empty = [])
    (ha : IsTextMap (slot.get a)) : (mapField name slot).Carries empty a := by
  have hread := foldlM_textItem ha.texts [] ha.keys
  refine ⟨fun hdefault b hb => ?_, fun _ b _ => ?_, fun b _ => ?_⟩
  · exact Slot.set_of_default ((List.isEmpty_iff.mp hdefault).trans hempty.symm) hb
  · simp only [mapField, textDict, hread, ok_bind]
    rfl
  · simp only [mapField, textDict, hread, ok_bind]
    rfl

variable {m : MessageType β}

theorem optionalField_carries {slot : Slot α (Option β)} (hempty : slot.get empty = none)
    (ha : ∀ x, slot.get a = some x → m.CarriesOver x) :
    (optionalField name m slot).Carries empty a := by
  refine ⟨fun hdefault b hb => ?_, fun hset b _ => ?_, fun b hb => ?_⟩
  · exact Slot.set_of_default ((Option.isNone_iff_eq_none.mp hdefault).trans hempty.symm) hb
  · cases hx : slot.get a with
    | none => simp [optionalField, hx] at hset
    | some x =>
      have hread := MessageType.deserialize_messageToJson (ha x hx)
      simp only [optionalField, hx, Option.map_some, Option.getD_some]
      change (m.deserialize (m.messageToJson x) >>= fun y => pure (slot.set (some y) b)) = _
      rw [hread]
      rfl
  · cases hx : slot.get a with
    | none =>
      simp only [optionalField, hx]
      rfl
    | some x =>
      -- The message is read into an empty one, as the field is not set yet.
      have hunset : slot.get b = none := (Slot.get_of_unset hb).trans hempty
      have hread := MessageType.parseDict_serialize (ha x hx)
      simp only [optionalField, hx, Option.map_some, Option.getD_some]
      change (m.convertMessage (m.serialize x) ((slot.get b).getD m.empty) >>= fun y =>
        pure (slot.set (some y) b)) = _
      rw [hunset, Option.getD_none, ← MessageType.parseDict, hread]
      rfl

theorem repeatedField_carries {slot : Slot α (List β)} (hempty : slot.get empty = [])
    (ha : ∀ x ∈ slot.get a, m.CarriesOver x) : (repeatedField name m slot).Carries empty a := by
  have hread : ((slot.get a).map m.messageToJson).mapM m.deserialize = .ok (slot.get a) := by
    have hmap := mapM_map_ok fun x hx => MessageType.deserialize_messageToJson (ha x hx)
    rwa [List.map_id'] at hmap
  have hparse : ((slot.get a).map m.serialize).mapM m.parseDict = .ok (slot.get a) := by
    have hmap := mapM_map_ok fun x hx => MessageType.parseDict_serialize (ha x hx)
    rwa [List.map_id'] at hmap
  refine ⟨fun hdefault b hb => ?_, fun _ b _ => ?_, fun b _ => ?_⟩
  · exact Slot.set_of_default ((List.isEmpty_iff.mp hdefault).trans hempty.symm) hb
  · simp only [repeatedField, hread, ok_bind]
    rfl
  · simp only [repeatedField, hparse, ok_bind]
    rfl

theorem fileFormatField_carries {slot : Slot α FileFormat} (hempty : slot.get empty = .unknown) :
    (fileFormatField name slot).Carries empty a := by
  refine ⟨fun hdefault b hb => ?_, fun _ b _ => ?_, fun b _ => ?_⟩
  · exact Slot.set_of_default ((of_decide_eq_true hdefault).trans hempty.symm) hb
  · cases hformat : slot.get a with
    | unknown => simp only [fileFormatField, hformat]; rfl
    | csv => simp only [fileFormatField, hformat]; rfl
  · cases hformat : slot.get a with
    | unknown => simp only [fileFormatField, hformat]; rfl
    | csv => simp only [fileFormatField, hformat]; rfl

end Kinds

def DataColumnIsText (c : DataColumn) : Prop := IsUtf8 c.name ∧ IsUtf8 c.type ∧ IsUtf8 c.comment

instance (c : DataColumn) : Decidable (DataColumnIsText c) := inferInstanceAs (Decidable (_ ∧ _))

theorem dataColumn_carriesOver {c : DataColumn} (h : DataColumnIsText c) :
    dataColumn.CarriesOver c := by
  obtain ⟨hname, htype, hcomment⟩ := h
  simp only [MessageType.CarriesOver, dataColumn, List.forall_mem_cons]
  exact ⟨textField_carries rfl hname, textField_carries rfl htype, textField_carries rfl hcomment,
    List.forall_mem_nil _⟩

def PartitionIsText (p : Partition) : Prop := IsUtf8 p.type ∧ ∀ c ∈ p.fields, DataColumnIsText c

theorem partition_carriesOver {p : Partition} (h : PartitionIsText p) :
    partition.CarriesOver p := by
  simp only [MessageType.CarriesOver, partition, List.forall_mem_cons]
  exact ⟨textField_carries rfl h.1,
    repeatedField_carries rfl fun c hc => dataColumn_carriesOver (h.2 c hc),
    List.forall_mem_nil _⟩

/-- The strings of a record are texts, as protobuf has them. -/
structure DomainDataIsText (d : DomainData) : Prop where
  strings : ∀ b ∈ [d.domaindataId, d.name, d.type, d.relativeUri, d.datasourceId, d.vendor,
    d.author], IsUtf8 b
  attributes : IsTextMap d.attributes
  partition : ∀ p, d.partition = some p → PartitionIsText p
  columns : ∀ c ∈ d.columns, DataColumnIsText c

theorem domainData_carriesOver {d : DomainData} (h : DomainDataIsText d) :
    domainData.CarriesOver d := by
  obtain ⟨hid, hname, htype, huri, hsource, hvendor, hauthor⟩ := by simpa using h.strings
  simp only [MessageType.CarriesOver, domainData, List.forall_mem_cons]
  exact ⟨textField_carries rfl hid, textField_carries rfl hname, textField_carries rfl htype,
    textField_carries rfl huri, textField_carries rfl hsource,
    mapField_carries rfl h.attributes,
    optionalField_carries rfl fun p hp => partition_carriesOver (h.partition p hp),
    repeatedField_carries rfl fun c hc => dataColumn_carriesOver (h.columns c hc),
    textField_carries rfl hvendor, fileFormatField_carries rfl, textField_carries rfl hauthor,
    List.forall_mem_nil _⟩

/-- The two languages understand each other, and the server not itself: a record that the uploader
    writes is read by the server as it was, and one that the server writes is read by the receiver
    of an export as it was, but no server reads what a server writes. -/
theorem domainData_between_languages (d : DomainData) (h : DomainDataIsText d) :
    domainData.deserialize (domainData.messageToJson d) = .ok d ∧
      domainData.parseDict (domainData.serialize d) = .ok d ∧
      ∀ d', domainData.deserialize (domainData.serialize d) ≠ .ok d' := by
  have hcarries := domainData_carriesOver h
  refine ⟨MessageType.deserialize_messageToJson hcarries,
    MessageType.parseDict_serialize hcarries, fun d' => ?_⟩
  -- The file format is written as a number and read from a string.
  have hformat : fileFormatField "file_format"
      ⟨DomainData.fileFormat, fun x a => { a with fileFormat := x }, fun _ _ => rfl⟩ ∈
      domainData.fields := by
    simp [domainData]
  exact MessageType.deserialize_serialize_ne_ok hformat (fun b b' hread => by cases hread) d'

/-- A record with a partition, and with fields that are left out. -/
def describedRecord : DomainData where
  domaindataId := str "alice-table"
  name := str "alice"
  type := str "table"
  relativeUri := str "x"
  datasourceId := str "ds1"
  attributes := [(str "owner", str "alice")]
  partition := some ⟨str "path", [⟨str "day", str "string", []⟩]⟩
  columns := [⟨str "age", str "integer", str "in years"⟩]
  vendor := []
  fileFormat := .csv
  author := str "alice"

theorem describedRecord_isText : DomainDataIsText describedRecord where
  strings := by decide
  attributes := ⟨by decide, by decide⟩
  partition p hp := by
    cases hp
    exact ⟨by decide, by decide⟩
  columns := by decide

theorem domainData_between_languages_sample :
    domainData.deserialize (domainData.messageToJson describedRecord) = .ok describedRecord ∧
      domainData.parseDict (domainData.serialize describedRecord) = .ok describedRecord ∧
      ∀ d', domainData.deserialize (domainData.serialize describedRecord) ≠ .ok d' :=
  domainData_between_languages describedRecord describedRecord_isText

end TrustFlow.Dm.KusciaProto
