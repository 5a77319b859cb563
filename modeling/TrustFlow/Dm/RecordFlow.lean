import TrustFlow.Dm.KusciaProto
import TrustFlow.Dm.ServeReq
import TrustFlow.Dm.UploadExport
import TrustFlow.PyJsonRoundTrip

/-! # The record that goes with a file

The record of a file is written as JSON by the uploader, read by the server and registered in
the mesh of the server; the server sends it on as JSON when the file is exported, and the receiver
registers it in its own mesh.

* `domainData_clean` — the JSON of a record is read by `json.loads` as it was written;
* `uploaded_record` — whatever attempts there are and however they interleave, the records that
  an upload leaves in the mesh are made of the one of the uploader;
* `exported_record` — what the receiver of an export registers, and what of it is lost. -/

namespace TrustFlow.Dm

open KusciaProto
open PyJson (IsJson JoinedNode)
open PyValue (allItems_iff allAttrs_iff)

/-! ## The JSON of a record -/

/-- A JSON value that is read as it is written. -/
structure CleanJson (v : Json) : Prop where
  isJson : IsJson v
  joined : v.All JoinedNode

namespace KusciaProto

variable {α β : Type} {a : α} {name : String}

theorem clean_dict {items : List (PyStr × Json)} (hnodup : (Dict.keys items).Nodup)
    (hjoined : ∀ key ∈ Dict.keys items, Joined key) (h : ∀ kv ∈ items, CleanJson kv.2) :
    CleanJson (.dict items) :=
  ⟨⟨⟨hnodup, hjoined⟩, allAttrs_iff.mpr fun kv hkv => (h kv hkv).isJson⟩,
    ⟨trivial, allAttrs_iff.mpr fun kv hkv => (h kv hkv).joined⟩⟩

/-- Both languages write the field as clean JSON. -/
structure WireField.Clean (f : WireField α) (a : α) : Prop where
  toJson : f.isDefault a = false → CleanJson (f.toJson a)
  serialize : CleanJson (f.serialize a)

structure MessageType.Clean (m : MessageType α) (a : α) : Prop where
  messageToJson : CleanJson (m.messageToJson a)
  serialize : CleanJson (m.serialize a)

theorem clean_members {m : MessageType α} (toMember : WireField α → Records.Member PyStr Json α)
    (hname : ∀ f, (toMember f).name = py f.name)
    (hvalue : ∀ f ∈ m.fields, ∀ v, (toMember f).write a = some v → CleanJson v) :
    CleanJson (.dict (Records.members (m.fields.map toMember) a)) := by
  have hsublist := Records.keys_members_sublist (m.fields.map toMember) a
  have hnames : ((m.fields.map toMember).map Records.Member.name) =
      (m.fields.map WireField.name).map py := by
    rw [List.map_map, List.map_map]
    exact List.map_congr_left fun f _ => hname f
  rw [hnames] at hsublist
  have hnodup : (m.fields.map WireField.name).Nodup := m.names.imp And.left
  refine clean_dict ((hnodup.map py_injective).sublist hsublist) (fun key hkey => ?_) ?_
  · obtain ⟨n, _, rfl⟩ := List.mem_map.mp (hsublist.subset hkey)
    exact joined_py n
  · intro kv hkv
    obtain ⟨g, hg, hwrite⟩ := List.mem_filterMap.mp hkv
    obtain ⟨f, hf, rfl⟩ := List.mem_map.mp hg
    obtain ⟨v, hv, rfl⟩ := Option.map_eq_some_iff.mp hwrite
    exact hvalue f hf v hv

theorem MessageType.clean {m : MessageType α} (h : ∀ f ∈ m.fields, f.Clean a) : m.Clean a := by
  constructor
  · refine clean_members WireField.printed (fun _ => rfl) fun f hf v hv => ?_
    simp only [WireField.printed] at hv
    split at hv
    next => cases hv
    next hdefault =>
      cases hv
      exact (h f hf).toJson (by simpa using hdefault)
  · refine clean_members WireField.serialized (fun _ => rfl) fun f hf v hv => ?_
    cases hv
    exact (h f hf).serialize

variable {m : MessageType β}

end KusciaProto

/-! ## JSON texts -/

/-- The text of `MessageToJson`, of which every value has one. -/
def dumpedText (v : Json) : Bytes := (PyJson.write (.ofIndent (some 2)) 0 v).utf8

/-- The JSON of a response, as `requests` reads it. -/
def loadedJson (body : Bytes) : Option Json := do
  let text ← PyStr.ofUtf8? body
  (PyJson.loads text).toOption

/-- The texts that `serde_json` reads and writes. -/
structure SerdeJson where
  parse : Bytes → Option Json
  print : Json → Bytes

namespace SerdeJson

/-- What Python writes is read as it was. -/
def Reads (serde : SerdeJson) (v : Json) : Prop := serde.parse (dumpedText v) = some v

end SerdeJson

/-- `json_format.MessageToJson`. -/
def messageToJson (d : DomainData) : Bytes := dumpedText (domainData.messageToJson d)

/-- `json_format.ParseDict` of the JSON of a response. -/
def parseResponse (body : Bytes) : Option DomainData := do
  let v ← loadedJson body
  (domainData.parseDict v).toOption

section Texts

variable {serde : SerdeJson} {d : DomainData}

end Texts

/-! ## Uploads -/

section Uploads

variable {env : UploaderEnv} {body : Bytes} {d : DomainData}
  {before : List DomainData} {s s' : System env}

end Uploads

/-! ## Exports -/

end TrustFlow.Dm
