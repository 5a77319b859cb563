import TrustFlow.PyJsonRoundTrip
import TrustFlow.Pylib.Common

/-! # JSON round trips of the attestation model

What `_filter_none_values` writes for an instance is JSON without a null and with every
field that is set, and each class reads its own back, with the pairs of surrogates in its texts
joined.

* `filterNoneValues_spec` — what is written, by induction over the nested instances;
* `decodeWith_filter` — a class whose conversions undo the filter reads its instances back;
* `json_roundTrip` — all seven classes. -/

namespace TrustFlow.Pylib

open PyValue

open PyJson (IsJson JsonNode JoinedNode joinTexts joinMembers)

/-! ## What is written -/

mutual

/-- The JSON value has every field of the instance that is set, at every depth. -/
def Keeps : Value → Value → Prop
  | .object _ attrs, .dict items => KeepsFields attrs items
  | .list items, .list items' => KeepsItems items items'
  | .str s, .str s' => s = s'
  | .scalar x, .scalar x' => x = x'
  | .none, .none => True
  | .dict items, .dict items' => items = items'
  | _, _ => False

def KeepsFields : List (PyStr × Value) → List (PyStr × Value) → Prop
  | [], _ => True
  | (name, value) :: attrs, items =>
    (value.isNone = false → ∃ w, Dict.get? items name = some w ∧ Keeps value w) ∧
      KeepsFields attrs items

def KeepsItems : List (Value) → List (Value) → Prop
  | [], [] => True
  | v :: items, w :: items' => Keeps v w ∧ KeepsItems items items'
  | _, _ => False

end

theorem keepsFields_iff {attrs items : List (PyStr × Value)} :
    KeepsFields attrs items ↔ ∀ kv ∈ attrs, kv.2.isNone = false →
      ∃ w, Dict.get? items kv.1 = some w ∧ Keeps kv.2 w := by
  induction attrs with
  | nil => simp [KeepsFields]
  | cons kv attrs ih => simp [KeepsFields, ih]

theorem keepsItems_map {items : List (Value)} {f : Value → Value}
    (h : ∀ v ∈ items, Keeps v (f v)) : KeepsItems items (items.map f) := by
  induction items with
  | nil => exact trivial
  | cons v items ih =>
    exact ⟨h v List.mem_cons_self, ih fun w hw => h w (List.mem_cons_of_mem _ hw)⟩

/-- An instance of a dataclass has one value for each name, which is a text or a list or an
    instance, and lists hold no None. -/
def CleanNode : Value → Prop
  | .object _ attrs => (Dict.keys attrs).Nodup ∧ ∀ name ∈ Dict.keys attrs, Joined name
  | .list items => ∀ v ∈ items, v.isNone = false
  | .dict _ | .scalar _ => False
  | _ => True

@[simp] theorem isNone_filterNoneValues (v : Value) :
    (filterNoneValues v).isNone = v.isNone := by
  cases v <;> rfl

theorem filterFields_eq (attrs : List (PyStr × Value)) :
    filterFields attrs = (present attrs).map fun kv => (kv.1, filterNoneValues kv.2) := by
  induction attrs with
  | nil => rfl
  | cons kv attrs ih =>
    obtain ⟨name, value⟩ := kv
    cases hvalue : value.isNone <;> simp [filterFields, present, hvalue, ih]

theorem filterItems_eq {items : List (Value)} (h : ∀ v ∈ items, v.isNone = false) :
    filterItems items = items.map filterNoneValues := by
  induction items with
  | nil => rfl
  | cons item items ih =>
    simp [filterItems, h item List.mem_cons_self, ih fun v hv => h v (List.mem_cons_of_mem _ hv)]

theorem keys_filterFields (attrs : List (PyStr × Value)) :
    Dict.keys (filterFields attrs) = Dict.keys (present attrs) := by
  rw [filterFields_eq, Dict.keys, Dict.keys, List.map_map]
  rfl

/-- What the filter leaves of a value: JSON, no null at any depth, every field that is set. -/
structure Written (v json : Value) : Prop where
  isJson : IsJson json
  noNull : NoNull json
  keeps : Keeps v json

theorem written_list {items : List (Value)} (hset : ∀ v ∈ items, v.isNone = false)
    (h : ∀ v ∈ items, Written v (filterNoneValues v)) :
    Written (.list items) (filterNoneValues (.list items)) := by
  have hitems : filterNoneValues (.list items) = .list (items.map filterNoneValues) := by
    rw [filterNoneValues, filterItems_eq hset]
  rw [hitems]
  refine ⟨⟨trivial, ?_⟩, ⟨ne_none_of_isNone rfl, ?_⟩, ?_⟩
  · exact allItems_iff.mpr (List.forall_mem_map.mpr fun v hv => (h v hv).isJson)
  · exact allItems_iff.mpr (List.forall_mem_map.mpr fun v hv => (h v hv).noNull)
  · exact keepsItems_map fun v hv => (h v hv).keeps

theorem written_object {cls : DataClass} {attrs : List (PyStr × Value)}
    (hkeys : (Dict.keys attrs).Nodup) (hnames : ∀ name ∈ Dict.keys attrs, Joined name)
    (h : ∀ kv ∈ attrs, kv.2.isNone = false → Written kv.2 (filterNoneValues kv.2)) :
    Written (.object cls attrs) (filterNoneValues (.object cls attrs)) := by
  have hsublist : (Dict.keys (filterFields attrs)).Sublist (Dict.keys attrs) := by
    rw [keys_filterFields]
    exact keys_present_sublist attrs
  have hpresent : (Dict.keys (filterFields attrs)).Nodup := hkeys.sublist hsublist
  have hwritten : ∀ kv ∈ present attrs, Written kv.2 (filterNoneValues kv.2) := by
    intro kv hkv
    obtain ⟨hmem, hset⟩ := List.mem_filter.mp hkv
    exact h kv hmem (by simpa using hset)
  refine ⟨⟨⟨hpresent, fun name hname => hnames name (hsublist.subset hname)⟩, ?_⟩,
    ⟨ne_none_of_isNone rfl, ?_⟩, ?_⟩
  · rw [filterFields_eq]
    exact allAttrs_iff.mpr (List.forall_mem_map.mpr fun kv hkv => (hwritten kv hkv).isJson)
  · rw [filterFields_eq]
    exact allAttrs_iff.mpr (List.forall_mem_map.mpr fun kv hkv => (hwritten kv hkv).noNull)
  · refine keepsFields_iff.mpr fun kv hkv hset => ⟨filterNoneValues kv.2, ?_, ?_⟩
    · apply Dict.get?_of_mem hpresent
      rw [filterFields_eq]
      exact List.mem_map.mpr ⟨kv, List.mem_filter.mpr ⟨hkv, by simpa using hset⟩, rfl⟩
    · exact (h kv hkv hset).keeps

theorem filterNoneValues_spec (v : Value) (hclean : v.All CleanNode)
    (hset : v.isNone = false) : Written v (filterNoneValues v) := by
  induction v using nested_induction with
  | none => cases hset
  | scalar x => exact hclean.elim
  | str s => exact ⟨trivial, ne_none_of_isNone rfl, rfl⟩
  | list items ih =>
    obtain ⟨hitems, hall⟩ := hclean
    exact written_list hitems fun v hv => ih v hv (allItems_iff.mp hall v hv) (hitems v hv)
  | dict items => exact hclean.1.elim
  | object cls attrs ih =>
    obtain ⟨⟨hkeys, hnames⟩, hall⟩ := hclean
    exact written_object hkeys hnames fun kv hkv hset =>
      ih kv hkv (allAttrs_iff.mp hall kv hkv) hset

/-! ## Pairs of surrogates -/

theorem filterFields_joinMembers {attrs : List (PyStr × Value)}
    (h : ∀ kv ∈ attrs, filterNoneValues (joinTexts kv.2) = joinTexts (filterNoneValues kv.2)) :
    filterFields (joinMembers attrs) = joinMembers (filterFields attrs) := by
  induction attrs with
  | nil => rfl
  | cons kv attrs ih =>
    obtain ⟨hkv, hattrs⟩ := List.forall_mem_cons.mp h
    cases hset : kv.2.isNone <;>
      simp [joinMembers, filterFields, hset, hkv, ih hattrs]

theorem filterItems_joinItems {items : List Value}
    (h : ∀ v ∈ items, filterNoneValues (joinTexts v) = joinTexts (filterNoneValues v)) :
    filterItems (PyJson.joinItems items) = PyJson.joinItems (filterItems items) := by
  induction items with
  | nil => rfl
  | cons v items ih =>
    obtain ⟨hv, hitems⟩ := List.forall_mem_cons.mp h
    cases hset : v.isNone <;>
      simp [PyJson.joinItems, filterItems, hset, hv, ih hitems]

/-- The filter does not look into the texts. -/
theorem filterNoneValues_joinTexts (v : Value) :
    filterNoneValues (joinTexts v) = joinTexts (filterNoneValues v) := by
  induction v using nested_induction with
  | none | scalar | str | dict => rfl
  | list items ih => exact congrArg PyValue.list (filterItems_joinItems ih)
  | object cls attrs ih => exact congrArg PyValue.dict (filterFields_joinMembers ih)

theorem clean_joinTexts (v : Value) (h : v.All CleanNode) : (joinTexts v).All CleanNode := by
  induction v using nested_induction with
  | none | str => exact trivial
  | scalar x => exact h.elim
  | list items ih =>
    obtain ⟨hset, hall⟩ := h
    rw [joinTexts, PyJson.joinItems_eq]
    refine ⟨List.forall_mem_map.mpr fun v hv => ?_, allItems_iff.mpr ?_⟩
    · rw [PyJson.isNone_joinTexts, hset v hv]
    · exact List.forall_mem_map.mpr fun v hv => ih v hv (allItems_iff.mp hall v hv)
  | dict items => exact h.1.elim
  | object cls attrs ih =>
    obtain ⟨hnames, hall⟩ := h
    rw [joinTexts]
    refine ⟨?_, allAttrs_iff.mpr ?_⟩
    · rw [CleanNode, PyJson.keys_joinMembers]
      exact hnames
    · rw [PyJson.joinMembers_eq]
      exact List.forall_mem_map.mpr fun kv hkv => ih kv hkv (allAttrs_iff.mp hall kv hkv)

/-! ## Reading an instance back -/

/-- The items in `done` are restored; the conversions restore theirs, and the filter had left
    the others as they were. -/
theorem foldlM_convert {items : List (PyStr × Value)} (hkeys : (Dict.keys items).Nodup)
    (hset : ∀ kv ∈ items, kv.2.isNone = false)
    {conversions : List (PyStr × (Value → Except PyError Value))}
    (hnodup : (conversions.map Prod.fst).Nodup)
    (hconv : ∀ c ∈ conversions, ∀ v, (c.1, v) ∈ items → c.2 (filterNoneValues v) = .ok v)
    (done : List PyStr) (hdone : ∀ c ∈ conversions, c.1 ∉ done)
    (hplain : ∀ kv ∈ items, kv.1 ∉ done → kv.1 ∉ conversions.map Prod.fst →
      filterNoneValues kv.2 = kv.2) :
    conversions.foldlM (fun data c => convert c.1 c.2 data)
      (items.map fun kv => (kv.1, if kv.1 ∈ done then kv.2 else filterNoneValues kv.2)) =
      .ok items := by
  induction conversions generalizing done with
  | nil =>
    have hitems : (items.map fun kv =>
        (kv.1, if kv.1 ∈ done then kv.2 else filterNoneValues kv.2)) = items := by
      conv_rhs => rw [← List.map_id items]
      apply List.map_congr_left
      intro kv hkv
      by_cases hk : kv.1 ∈ done
      · simp [hk]
      · simp [hk, hplain kv hkv hk List.not_mem_nil]
    rw [hitems]
    rfl
  | cons c conversions ih =>
    -- One conversion undoes the filter at its key, and at no other.
    obtain ⟨hfresh, hrest⟩ := List.nodup_cons.mp hnodup
    have hstep : convert c.1 c.2
        (items.map fun kv => (kv.1, if kv.1 ∈ done then kv.2 else filterNoneValues kv.2)) =
        .ok (items.map fun kv =>
          (kv.1, if kv.1 ∈ c.1 :: done then kv.2 else filterNoneValues kv.2)) := by
      rw [convert_map hkeys fun k v => if k ∈ done then v else filterNoneValues v]
      · congr 1
        apply List.map_congr_left
        intro kv _
        by_cases hk : kv.1 = c.1 <;> simp [hk]
      · intro kv hkv
        split
        · exact hset kv hkv
        · simpa using hset kv hkv
      · intro v hv
        rw [if_neg (hdone c List.mem_cons_self)]
        exact hconv c List.mem_cons_self v hv
    rw [List.foldlM_cons, hstep, ok_bind]
    refine ih hrest (fun c' hc' => hconv c' (List.mem_cons_of_mem _ hc')) (c.1 :: done) ?_ ?_
    · intro c' hc' hmem
      rcases List.mem_cons.mp hmem with heq | hmem
      · exact hfresh (List.mem_map.mpr ⟨c', hc', heq⟩)
      · exact hdone c' (List.mem_cons_of_mem _ hc') hmem
    · intro kv hkv hk hk'
      obtain ⟨hne, hk⟩ := not_or.mp (mt List.mem_cons.mpr hk)
      refine hplain kv hkv hk fun hmem => ?_
      rcases List.mem_cons.mp hmem with heq | hmem
      · exact hne heq
      · exact hk' hmem

/-- A class whose conversions undo the filter, and whose other fields the filter does not
    change, reads its instances back. -/
theorem decodeWith_filter {cls : DataClass} {attrs : List (PyStr × Value)}
    (hfits : Fits (schema cls) attrs)
    {conversions : List (PyStr × (Value → Except PyError Value))}
    (hnodup : (conversions.map Prod.fst).Nodup)
    (hconv : ∀ c ∈ conversions, ∀ v, (c.1, v) ∈ attrs → v.isNone = false →
      c.2 (filterNoneValues v) = .ok v)
    (hplain : ∀ kv ∈ attrs, kv.1 ∉ conversions.map Prod.fst → filterNoneValues kv.2 = kv.2)
    {text : PyStr} (hloads : PyJson.loads text = .ok (filterNoneValues (.object cls attrs))) :
    decodeWith cls conversions text = .ok (.object cls attrs) := by
  have hkeys : (Dict.keys attrs).Nodup := by
    rw [hfits.names]
    exact hfits.nodup
  have hset : ∀ kv ∈ present attrs, kv ∈ attrs ∧ kv.2.isNone = false := by
    intro kv hkv
    simpa [present] using hkv
  have hdata := foldlM_convert (hkeys.sublist (keys_present_sublist attrs))
    (fun kv hkv => (hset kv hkv).2) hnodup
    (fun c hc v hv => hconv c hc v (hset _ hv).1 (hset _ hv).2) []
    (fun _ _ => List.not_mem_nil) (fun kv hkv _ => hplain kv (hset kv hkv).1)
  simp only [List.not_mem_nil, if_false] at hdata
  simp only [decodeWith, hloads, ok_bind, filterNoneValues, filterFields_eq, hdata,
    construct_present hfits]

/-! ## The seven classes -/

theorem schema_nodup (cls : DataClass) : ((schema cls).map PyField.name).Nodup := by
  cases cls <;> decide

theorem schema_joined (cls : DataClass) : ∀ name ∈ (schema cls).map PyField.name, Joined name := by
  cases cls <;> simp [schema, required, optional, joined_py]

theorem keys_zip {cls : DataClass} {values : List (Value)}
    (hlen : (schema cls).length ≤ values.length) :
    Dict.keys (((schema cls).map PyField.name).zip values) =
      (schema cls).map PyField.name :=
  List.map_fst_zip (by simpa using hlen)

theorem fits_zip {cls : DataClass} {values : List (Value)}
    (hlen : (schema cls).length ≤ values.length)
    (hrequired : ∀ fv ∈ (schema cls).zip values, fv.1.required = true → fv.2.isNone = false) :
    Fits (schema cls) (((schema cls).map PyField.name).zip values) where
  names := keys_zip hlen
  nodup := schema_nodup cls
  required := by
    intro f hf hreq
    obtain ⟨i, hi, rfl⟩ := List.mem_iff_getElem.mp hf
    have hvalue : ((schema cls)[i], values[i]) ∈ (schema cls).zip values :=
      List.mem_iff_getElem.mpr ⟨i, by simp; omega, by simp⟩
    have hset := hrequired _ hvalue hreq
    have hmem : ((schema cls)[i].name, values[i]) ∈
        present (((schema cls).map PyField.name).zip values) := by
      refine List.mem_filter.mpr ⟨List.mem_iff_getElem.mpr ⟨i, by simp; omega, by simp⟩, ?_⟩
      simp [hset]
    rw [Ne, Dict.get?_eq_none_iff, not_not]
    exact List.mem_map_of_mem hmem

/-- The instances of a class: not None, and clean at every depth. -/
structure CleanInstances {α : Type} (toPy : α → Value) : Prop where
  set : ∀ x, (toPy x).isNone = false
  clean : ∀ x, (toPy x).All CleanNode

theorem cleanInstances_of {α : Type} {cls : DataClass} {values : α → List (Value)}
    (hlen : ∀ x, (schema cls).length ≤ (values x).length)
    (h : ∀ x, ∀ v ∈ values x, v.All CleanNode) :
    CleanInstances fun x => instanceOf cls (values x) where
  set _ := rfl
  clean x := by
    refine ⟨?_, allAttrs_iff.mpr fun kv hkv => h x kv.2 (List.of_mem_zip hkv).2⟩
    rw [CleanNode, keys_zip (hlen x)]
    exact ⟨schema_nodup cls, schema_joined cls⟩

@[simp] theorem clean_str (s : PyStr) : (.str s : Value).All CleanNode := trivial

@[simp] theorem clean_optStr (s : Option PyStr) : (optStr s : Value).All CleanNode := by
  cases s <;> exact trivial

theorem clean_orNone {α : Type} {toPy : α → Value} (h : CleanInstances toPy) (x : Option α) :
    (orNone toPy x).All CleanNode := by
  cases x with
  | none => exact trivial
  | some x => exact h.clean x

theorem clean_optList {α : Type} {toPy : α → Value} (h : CleanInstances toPy)
    (items : Option (List α)) : (optList toPy items).All CleanNode := by
  cases items with
  | none => exact trivial
  | some items =>
    refine ⟨List.forall_mem_map.mpr fun x _ => h.set x, allItems_iff.mpr ?_⟩
    exact List.forall_mem_map.mpr fun x _ => h.clean x

theorem cleanInstances_reportParams :
    CleanInstances AttestationReportParams.toPy :=
  cleanInstances_of (fun _ => le_rfl) (by simp)

theorem cleanInstances_generationParams :
    CleanInstances AttestationGenerationParams.toPy :=
  cleanInstances_of (fun _ => le_rfl) (by simp [clean_orNone cleanInstances_reportParams])

theorem cleanInstances_report : CleanInstances AttestationReport.toPy :=
  cleanInstances_of (fun _ => le_rfl) (by simp)

theorem cleanInstances_attribute : CleanInstances AttestationAttribute.toPy :=
  cleanInstances_of (fun _ => le_rfl) (by simp)

theorem cleanInstances_nestedPolicy :
    CleanInstances AttestationNestedPolicy.toPy :=
  cleanInstances_of (fun _ => le_rfl) (by simp [clean_optList cleanInstances_attribute])

theorem cleanInstances_nestedPolicies :
    CleanInstances AttestationNestedPolicies.toPy :=
  cleanInstances_of (fun _ => le_rfl) (by simp [clean_optList cleanInstances_nestedPolicy])

theorem cleanInstances_policy : CleanInstances AttestationPolicy.toPy :=
  cleanInstances_of (fun _ => le_rfl)
    (by simp [clean_optList cleanInstances_attribute,
      clean_orNone cleanInstances_nestedPolicies])

/-! ## Each class reads its own -/

@[simp] theorem filterNoneValues_str (s : PyStr) :
    filterNoneValues (.str s : Value) = .str s := rfl

@[simp] theorem filterNoneValues_optStr (s : Option PyStr) :
    filterNoneValues (optStr s : Value) = optStr s := by
  cases s <;> rfl

@[simp] theorem joinTexts_str (s : PyStr) : joinTexts (.str s : Value) = .str (joinPairs s) := rfl

@[simp] theorem joinTexts_optStr (s : Option PyStr) :
    joinTexts (optStr s : Value) = optStr (s.map joinPairs) := by
  cases s <;> rfl

theorem joinTexts_instanceOf (cls : DataClass) (values : List Value) :
    joinTexts (instanceOf cls values) = instanceOf cls (values.map joinTexts) := by
  rw [instanceOf, instanceOf, joinTexts, PyJson.joinMembers_eq, List.zip_map_right]
  rfl

/-- `f` restores the instances of a class from what the filter makes of them. -/
def Restores {α : Type} (toPy : α → Value) (f : Value → Except PyError Value) : Prop :=
  ∀ x, f (filterNoneValues (joinTexts (toPy x))) = .ok (joinTexts (toPy x))

theorem restores_orNone {α : Type} {toPy : α → Value}
    {f : Value → Except PyError Value} (hf : Restores toPy f) (x : Option α)
    (hset : (orNone toPy x).isNone = false) :
    f (filterNoneValues (joinTexts (orNone toPy x))) = .ok (joinTexts (orNone toPy x)) := by
  cases x with
  | none => cases hset
  | some x => exact hf x

theorem restores_optList {α : Type} {toPy : α → Value} (hclean : CleanInstances toPy)
    {f : Value → Except PyError Value} (hf : Restores toPy f) (items : Option (List α))
    (hset : (optList toPy items).isNone = false) :
    listOf f (filterNoneValues (joinTexts (optList toPy items))) =
      .ok (joinTexts (optList toPy items)) := by
  cases items with
  | none => cases hset
  | some items =>
    have hjoin : joinTexts (optList toPy (some items)) =
        .list (items.map fun x => joinTexts (toPy x)) := by
      show PyValue.list (PyJson.joinItems (items.map toPy)) = _
      rw [PyJson.joinItems_eq, List.map_map]
      rfl
    have hitems : filterNoneValues (.list (items.map fun x => joinTexts (toPy x))) =
        .list (items.map fun x => filterNoneValues (joinTexts (toPy x))) := by
      rw [filterNoneValues, filterItems_eq (List.forall_mem_map.mpr fun x _ => ?_), List.map_map]
      · rfl
      · rw [PyJson.isNone_joinTexts, hclean.set x]
    rw [hjoin, hitems]
    exact listOf_map fun x _ => hf x

/-- A class reads the text of each of its instances back as that instance. -/
def Reads {α : Type} (toPy : α → Value) (fromJson : PyStr → Except PyError Value) : Prop :=
  ∀ x text, PyJson.loads text = .ok (filterNoneValues (joinTexts (toPy x))) →
    fromJson text = .ok (joinTexts (toPy x))

/-- What is written of an instance, and what is read from that. -/
theorem CleanInstances.loads {α : Type} {toPy : α → Value} (h : CleanInstances toPy)
    (indent : Option Nat) (x : α) :
    ∃ text, PyJson.dumps indent (filterNoneValues (toPy x)) = .ok text ∧
      PyJson.dumps indent (filterNoneValues (joinTexts (toPy x))) = .ok text ∧
      PyJson.loads text = .ok (filterNoneValues (joinTexts (toPy x))) := by
  have hjson := (filterNoneValues_spec (toPy x) (h.clean x) (h.set x)).isJson
  obtain ⟨text, hdumps, hloads⟩ := PyJson.loads_dumps indent _ hjson
  rw [filterNoneValues_joinTexts]
  exact ⟨text, hdumps, (PyJson.dumps_joinTexts indent _ hjson).trans hdumps, hloads⟩

/-- Writing a part of the data once more and reading it restores it, if its class reads its
    own. -/
theorem Reads.restores {α : Type} {toPy : α → Value} (hclean : CleanInstances toPy)
    {fromJson : PyStr → Except PyError Value} (h : Reads toPy fromJson) :
    Restores toPy (reload fromJson) := by
  intro x
  obtain ⟨text, _, hdumps, hloads⟩ := hclean.loads Option.none x
  rw [reload, hdumps, ok_bind]
  exact h x text hloads

theorem fits_joinTexts {cls : DataClass} {values : List Value}
    (hlen : (schema cls).length ≤ values.length)
    (hrequired : ∀ fv ∈ (schema cls).zip values, fv.1.required = true → fv.2.isNone = false) :
    Fits (schema cls) (((schema cls).map PyField.name).zip (values.map joinTexts)) := by
  refine fits_zip (by simpa using hlen) fun fv hfv hreq => ?_
  rw [List.zip_map_right] at hfv
  obtain ⟨fw, hfw, rfl⟩ := List.mem_map.mp hfv
  exact (PyJson.isNone_joinTexts fw.2).trans (hrequired fw hfw hreq)

/-- A class of texts alone is restored by its constructor. -/
theorem restores_constructFrom {α : Type} {cls : DataClass} {values : α → List Value}
    (hlen : ∀ x, (schema cls).length ≤ (values x).length)
    (hrequired : ∀ x, ∀ fv ∈ (schema cls).zip (values x),
      fv.1.required = true → fv.2.isNone = false)
    (hplain : ∀ x, ∀ v ∈ values x, filterNoneValues (joinTexts v) = joinTexts v) :
    Restores (fun x => instanceOf cls (values x)) (constructFrom schema cls) := by
  intro x
  rw [joinTexts_instanceOf]
  have hsame : filterFields (((schema cls).map PyField.name).zip ((values x).map joinTexts)) =
      present (((schema cls).map PyField.name).zip ((values x).map joinTexts)) := by
    rw [filterFields_eq]
    conv_rhs => rw [← List.map_id (present _)]
    apply List.map_congr_left
    intro kv hkv
    obtain ⟨v, hv, heq⟩ := List.mem_map.mp (List.of_mem_zip (List.mem_of_mem_filter hkv)).2
    rw [← heq, hplain x v hv, heq, id]
  simp only [instanceOf, filterNoneValues, constructFrom, hsame]
  exact construct_present (fits_joinTexts (hlen x) (hrequired x))

theorem reads_of {α : Type} {cls : DataClass} {values : α → List Value}
    {conversions : List (PyStr × (Value → Except PyError Value))}
    (hlen : ∀ x, (schema cls).length ≤ (values x).length)
    (hrequired : ∀ x, ∀ fv ∈ (schema cls).zip (values x),
      fv.1.required = true → fv.2.isNone = false)
    (hnodup : (conversions.map Prod.fst).Nodup)
    (hconv : ∀ x, ∀ c ∈ conversions, ∀ v,
      (c.1, v) ∈ ((schema cls).map PyField.name).zip (values x) → v.isNone = false →
        c.2 (filterNoneValues (joinTexts v)) = .ok (joinTexts v))
    (hplain : ∀ x, ∀ kv ∈ ((schema cls).map PyField.name).zip (values x),
      kv.1 ∉ conversions.map Prod.fst → filterNoneValues (joinTexts kv.2) = joinTexts kv.2) :
    Reads (fun x => instanceOf cls (values x)) (decodeWith cls conversions) := by
  intro x text hloads
  rw [joinTexts_instanceOf] at hloads ⊢
  have hvalue : ∀ kv ∈ ((schema cls).map PyField.name).zip ((values x).map joinTexts),
      ∃ v, (kv.1, v) ∈ ((schema cls).map PyField.name).zip (values x) ∧ kv.2 = joinTexts v := by
    intro kv hkv
    rw [List.zip_map_right] at hkv
    obtain ⟨kw, hkw, rfl⟩ := List.mem_map.mp hkv
    exact ⟨kw.2, hkw, rfl⟩
  refine decodeWith_filter (fits_joinTexts (hlen x) (hrequired x)) hnodup ?_ ?_ hloads
  · intro c hc w hw hset
    obtain ⟨v, hv, hw⟩ := hvalue _ hw
    obtain rfl : w = joinTexts v := hw
    exact hconv x c hc v hv (by simpa using hset)
  · intro kv hkv hfree
    obtain ⟨v, hv, hkv⟩ := hvalue _ hkv
    rw [hkv]
    exact hplain x _ hv hfree

theorem restores_reportParams :
    Restores AttestationReportParams.toPy (constructFrom schema .attestationReportParams) :=
  restores_constructFrom (fun _ => le_rfl) (by simp [schema, optional]) (by simp)

theorem restores_attribute :
    Restores AttestationAttribute.toPy (constructFrom schema .attestationAttribute) :=
  restores_constructFrom (fun _ => le_rfl) (by simp [schema, optional]) (by simp)

theorem reads_reportParams :
    Reads AttestationReportParams.toPy AttestationReportParams.fromJson :=
  reads_of (fun _ => le_rfl) (by simp [schema, optional]) (by simp) (by simp)
    (by simp [schema, optional])

theorem reads_generationParams :
    Reads AttestationGenerationParams.toPy AttestationGenerationParams.fromJson := by
  refine reads_of (fun _ => le_rfl) (by simp [schema, optional, required, isNone]) (by simp) ?_
    (by simp [schema, optional, required])
  simpa [schema, optional, required, py_injective.eq_iff] using
    fun x : AttestationGenerationParams => restores_orNone restores_reportParams x.reportParams

theorem reads_report : Reads AttestationReport.toPy AttestationReport.fromJson :=
  reads_of (fun _ => le_rfl) (by simp [schema, optional, required, isNone]) (by simp) (by simp)
    (by simp [schema, optional, required])

theorem reads_attribute : Reads AttestationAttribute.toPy AttestationAttribute.fromJson :=
  reads_of (fun _ => le_rfl) (by simp [schema, optional]) (by simp) (by simp)
    (by simp [schema, optional])

theorem reads_nestedPolicy :
    Reads AttestationNestedPolicy.toPy AttestationNestedPolicy.fromJson := by
  refine reads_of (fun _ => le_rfl) (by simp [schema, optional]) (by simp) ?_
    (by simp [schema, optional])
  simpa [schema, optional] using fun x : AttestationNestedPolicy =>
    restores_optList cleanInstances_attribute restores_attribute x.subAttributes

theorem reads_nestedPolicies :
    Reads AttestationNestedPolicies.toPy AttestationNestedPolicies.fromJson := by
  have hpolicy := reads_nestedPolicy.restores cleanInstances_nestedPolicy
  refine reads_of (fun _ => le_rfl) (by simp [schema, optional]) (by simp) ?_
    (by simp [schema, optional])
  simpa [schema, optional, py_injective.eq_iff] using fun x : AttestationNestedPolicies =>
    restores_optList cleanInstances_nestedPolicy hpolicy x.policies

theorem reads_policy : Reads AttestationPolicy.toPy AttestationPolicy.fromJson := by
  have hnested := reads_nestedPolicies.restores cleanInstances_nestedPolicies
  refine reads_of (fun _ => le_rfl) (by simp [schema, optional])
    (by simp [py_injective.eq_iff]) ?_ (by simp [schema, optional])
  simpa [schema, optional, py_injective.eq_iff] using fun x : AttestationPolicy =>
    And.intro (restores_optList cleanInstances_attribute restores_attribute x.mainAttributes)
      (restores_orNone hnested x.nestedPolicies)

/-! ## Round trips -/

/-- The instance is read back from its JSON with the pairs of surrogates in its texts joined, so
    as it was exactly if there are none.  What is read is written as the same text, and the JSON
    has no null and every field that is set. -/
def RoundTrips (fromJson : PyStr → Except PyError Value) (x : Value) : Prop :=
  ∃ text json, toJson x = .ok text ∧ fromJson text = .ok (joinTexts x) ∧
    (fromJson text = .ok x ↔ x.All JoinedNode) ∧ (fromJson text >>= toJson) = .ok text ∧
    PyJson.loads text = .ok json ∧ NoNull json ∧ Keeps (joinTexts x) json

theorem Reads.roundTrips {α : Type} {toPy : α → Value}
    {fromJson : PyStr → Except PyError Value} (h : Reads toPy fromJson)
    (hclean : CleanInstances toPy) (x : α) : RoundTrips fromJson (toPy x) := by
  have hwritten := filterNoneValues_spec _ (clean_joinTexts _ (hclean.clean x))
    ((PyJson.isNone_joinTexts _).trans (hclean.set x))
  obtain ⟨text, hdumps, hagain, hloads⟩ := hclean.loads (some 2) x
  have hread := h x text hloads
  refine ⟨text, _, hdumps, hread, ?_, ?_, hloads, hwritten.noNull, hwritten.keeps⟩
  · rw [hread, Except.ok.injEq]
    refine ⟨fun hsame => ?_, PyJson.joinTexts_of_joined _⟩
    rw [← hsame]
    exact PyJson.joinTexts_joined _
  · rw [hread]
    exact hagain

theorem json_roundTrip :
    (∀ x : AttestationGenerationParams,
      RoundTrips AttestationGenerationParams.fromJson x.toPy) ∧
    (∀ x : AttestationReportParams, RoundTrips AttestationReportParams.fromJson x.toPy) ∧
    (∀ x : AttestationReport, RoundTrips AttestationReport.fromJson x.toPy) ∧
    (∀ x : AttestationAttribute, RoundTrips AttestationAttribute.fromJson x.toPy) ∧
    (∀ x : AttestationPolicy, RoundTrips AttestationPolicy.fromJson x.toPy) ∧
    (∀ x : AttestationNestedPolicies, RoundTrips AttestationNestedPolicies.fromJson x.toPy) ∧
    (∀ x : AttestationNestedPolicy, RoundTrips AttestationNestedPolicy.fromJson x.toPy) :=
  ⟨reads_generationParams.roundTrips cleanInstances_generationParams,
    reads_reportParams.roundTrips cleanInstances_reportParams,
    reads_report.roundTrips cleanInstances_report,
    reads_attribute.roundTrips cleanInstances_attribute,
    reads_policy.roundTrips cleanInstances_policy,
    reads_nestedPolicies.roundTrips cleanInstances_nestedPolicies,
    reads_nestedPolicy.roundTrips cleanInstances_nestedPolicy⟩

/-- The user data is a high surrogate and a low one. -/
def pairParams : AttestationReportParams where
  hexUserData := some [codePoint 0xD83D, codePoint 0xDE00]

/-- The character that the two stand for. -/
def joinedParams : AttestationReportParams where
  hexUserData := some [codePoint 0x1F600]

/-- The two surrogates come back as one character. -/
theorem json_roundTrip_joins :
    (toJson pairParams.toPy >>= AttestationReportParams.fromJson) = .ok joinedParams.toPy ∧
      joinedParams.toPy ≠ pairParams.toPy := by
  obtain ⟨text, _, htext, hread, _⟩ :=
    reads_reportParams.roundTrips cleanInstances_reportParams pairParams
  have hjoin : joinTexts pairParams.toPy = joinedParams.toPy := rfl
  refine ⟨?_, fun hsame => ?_⟩
  · rw [htext, ok_bind, hread, hjoin]
  · injection hsame with _ hattrs
    injection hattrs with _ hattrs
    injection hattrs with hattr _
    injection (Prod.mk.inj hattr).2 with hdata
    exact absurd hdata (by decide)

end TrustFlow.Pylib
