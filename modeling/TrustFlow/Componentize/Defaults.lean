import TrustFlow.Componentize.ParamSources
import TrustFlow.Componentize.ReaderCrashes

/-! # Default values

The default value of an attribute is checked when it is declared, written into the message of
the attribute, and read and checked again when nothing is given for it.  A default value that
passed the first checks passes the second ones.  It is read back as it was declared, unless it
is a single value where the attribute is a list.

* `ReadsBack` — what a kind of values needs for its default values to be read back;
* `defaultTaken_iff` — when the reader takes the default value of an attribute;
* `defaults_acceptable_iff` — the default values of integers, texts and booleans. -/

namespace TrustFlow.Componentize

variable {F α : Type}

/-! ## What was checked at the declaration -/

theorem ScalarKind.sanityChecks_eq_ok {kind : ScalarKind F α} {args : AttrArgs α}
    {con : Constraint α} (h : kind.sanityChecks args con = .ok ()) :
    (args.isOptional = true → args.defaultValue.isSome = true) ∧
      ∀ values x, con.allowedValues = some values → args.defaultValue = some (.one x) →
        args.isList = false → kind.mem x values = true := by
  unfold ScalarKind.sanityChecks at h
  cases hword : checkReservedWords args.name with
  | error e => simp [hword] at h
  | ok =>
    rw [hword, ok_bind] at h
    by_cases hoptional : (args.isOptional && args.defaultValue.isNone) = true
    · simp [hoptional] at h
    · refine ⟨fun hopt => ?_, fun values x hvalues hdefault hlist => ?_⟩
      · simpa [hopt, Option.isSome_iff_ne_none] using hoptional
      · by_cases hbounds : (con.lowerBound.isSome || con.upperBound.isSome) = true
        · simp [hdefault, hvalues, hbounds] at h
        · by_contra hmem
          simp [hdefault, hvalues, hbounds, hlist, ScalarKind.checkDefault,
            ScalarKind.checkAllowed, hmem] at h

/-! ## Values that are read back -/

def Value.asInt : Value F → Option (DefaultValue Int)
  | .int x => some (.one x.toInt)
  | .ints xs => some (.many (xs.map Int64.toInt))
  | _ => none

def Value.asStr : Value F → Option (DefaultValue String)
  | .str x => some (.one x)
  | .strs xs => some (.many xs)
  | _ => none

def Value.asBool : Value F → Option (DefaultValue Bool)
  | .bool x => some (.one x)
  | .bools xs => some (.many xs)
  | _ => none

/-- What is stored for a value or a list of values is read back as the same, and a value that may
    be declared passes the checks of the reader. -/
structure ReadsBack (py : PyLibs F) (kind : ScalarKind F α)
    (readBack : Value F → Option (DefaultValue α)) : Prop where
  oneType : kind.oneType ∈ atomicTypes
  listType : kind.listType ∈ listTypes
  one : ∀ {x message}, kind.set x (.new py) = .ok message →
    ∃ v, getValue (.message message) kind.oneType = .ok v ∧ readBack v = some (.one x)
  many : ∀ {xs message}, kind.extend xs (.new py) = .ok message →
    ∃ v, getValue (.message message) kind.listType = .ok v ∧ readBack v = some (.many xs)
  list : ∀ {message : Attribute F} {v}, getValue (.message message) kind.listType = .ok v →
    ∃ xs, readBack v = some (.many xs)
  passes : ∀ {args con attr x message}, kind.Stored py args con attr → args.isList = false →
    kind.set x (.new py) = .ok message →
    (∀ values, con.allowedValues = some values → kind.mem x values = true) →
    Passes py (.message message) attr

theorem allowedValues_ne_nil {kind : ScalarKind F α} {con : Constraint α} {x : α}
    (h : ∀ values, con.allowedValues = some values → kind.mem x values = true) :
    con.allowedValues ≠ some [] := by
  intro hnil
  have hmem := h [] hnil
  simp [ScalarKind.mem] at hmem

theorem readsBack_int (py : PyLibs F) : ReadsBack py (intKind F) Value.asInt where
  oneType := by simp [intKind, atomicTypes]
  listType := by simp [intKind, listTypes]
  one := by
    intro x message h
    simp only [intKind, bind_eq_ok] at h
    obtain ⟨y, hy, hset⟩ := h
    cases hset
    exact ⟨_, rfl, by rw [Value.asInt, toInt64_eq_ok hy]⟩
  many := by
    intro xs message h
    simp only [intKind, bind_eq_ok] at h
    obtain ⟨ys, hys, hset⟩ := h
    cases hset
    refine ⟨_, rfl, ?_⟩
    rw [Value.asInt, ← map_eq_of_mapM toInt64_eq_ok hys]
    rfl
  list := by
    rintro message v ⟨⟩
    exact ⟨_, rfl⟩
  passes := by
    intro args con attr x message hstored hlist hset hallowed
    have hempty := allowedValues_ne_nil hallowed
    simp only [intKind, bind_eq_ok] at hset
    obtain ⟨y, hy, hset⟩ := hset
    cases hset
    rw [passes_int_iff hlist hempty hstored,
      Constraint.admits_iff hstored.noLowerBound.1 hstored.noUpperBound.1, toInt64_eq_ok hy]
    intro values hvalues
    simpa [ScalarKind.mem, intKind] using hallowed values hvalues

theorem readsBack_str (py : PyLibs F) : ReadsBack py (strKind py) Value.asStr where
  oneType := by simp [strKind, atomicTypes]
  listType := by simp [strKind, listTypes]
  one := by
    rintro x message ⟨⟩
    exact ⟨_, rfl, rfl⟩
  many := by
    rintro xs message ⟨⟩
    exact ⟨_, rfl, rfl⟩
  list := by
    rintro message v ⟨⟩
    exact ⟨_, rfl⟩
  passes := by
    intro args con attr x message hstored hlist hset hallowed
    have hempty := allowedValues_ne_nil hallowed
    cases hset
    rw [passes_str_iff hlist hempty hstored,
      Constraint.admits_iff hstored.noLowerBound.1 hstored.noUpperBound.1]
    intro values hvalues
    simpa [ScalarKind.mem, strKind] using hallowed values hvalues

theorem readsBack_bool (py : PyLibs F) : ReadsBack py (boolKind F) Value.asBool where
  oneType := by simp [boolKind, atomicTypes]
  listType := by simp [boolKind, listTypes]
  one := by
    rintro x message ⟨⟩
    exact ⟨_, rfl, rfl⟩
  many := by
    rintro xs message ⟨⟩
    exact ⟨_, rfl, rfl⟩
  list := by
    rintro message v ⟨⟩
    exact ⟨_, rfl⟩
  passes := by
    intro args con attr x message hstored hlist _ _
    have htype : attr.type = .bool := hstored.type_of_scalar hlist
    exact ⟨by simp [checkAllowedValues, htype],
      by simp [checkLowerBound, hstored.noLowerBound.2],
      by simp [checkUpperBound, hstored.noUpperBound.2]⟩

/-! ## The default value of one attribute -/

theorem attrReads_none {py : PyLibs F} {attr : AttributeDef F} {v : Value F} :
    AttrReads py none attr v ↔ attr.type ∈ atomicTypes ∧ attr.atomic.isOptional = true ∧
      Passes py (.message attr.atomic.defaultValue) attr ∧
      getValue (.message attr.atomic.defaultValue) attr.type = .ok v := by
  simp [AttrReads, and_assoc]

/-- If nothing is given, the default value is read, unless a list has a single one. -/
theorem ReadsBack.attrReads_iff {py : PyLibs F} {kind : ScalarKind F α}
    {readBack : Value F → Option (DefaultValue α)} (h : ReadsBack py kind readBack)
    {args : AttrArgs α} {con : Constraint α} {attr : AttributeDef F}
    (hattr : kind.attributeDef py args con = .ok attr) (hoptional : args.isOptional = true) :
    (∃ v, AttrReads py none attr v ∧ readBack v = args.defaultValue) ↔
      (args.isList = true → ∀ x, args.defaultValue ≠ some (.one x)) := by
  have hstored := kind.stored_of_attributeDef hattr
  obtain ⟨hsome, hallowed⟩ := ScalarKind.sanityChecks_eq_ok (kind.attributeDef_eq_ok.mp hattr).1
  obtain ⟨d, hd⟩ := Option.isSome_iff_exists.mp (hsome hoptional)
  have hopt : attr.atomic.isOptional = true := hstored.isOptional.trans hoptional
  have htype := hstored.type
  have hdefault := hstored.defaultValue
  simp only [attrReads_none, hopt, true_and]
  cases hlist : args.isList with
  | false =>
    simp only [hlist, Bool.false_eq_true, if_false] at htype
    simp only [Bool.false_eq_true, false_implies, iff_true]
    cases d with
    | many xs => simp [ScalarKind.storeDefault, hd, hlist] at hdefault
    | one x =>
      simp only [ScalarKind.storeDefault, hd, hlist] at hdefault
      obtain ⟨v, hv, hback⟩ := h.one hdefault
      have hpasses := h.passes hstored hlist hdefault fun values hvalues =>
        hallowed values x hvalues hd hlist
      exact ⟨v, ⟨htype ▸ h.oneType, hpasses, htype ▸ hv⟩, hback.trans hd.symm⟩
  | true =>
    simp only [hlist, if_true] at htype
    cases d with
    | many xs =>
      simp only [ScalarKind.storeDefault, hd, hlist] at hdefault
      obtain ⟨v, hv, hback⟩ := h.many hdefault
      have hlistType : attr.type ∈ listTypes := htype ▸ h.listType
      have hatomic : attr.type ∈ atomicTypes := by
        revert hlistType
        cases attr.type <;> simp [listTypes, atomicTypes]
      refine ⟨fun _ _ x hx => ?_, fun _ =>
        ⟨v, ⟨hatomic, passes_of_listType hlistType _, htype ▸ hv⟩, hback.trans hd.symm⟩⟩
      rw [hd] at hx
      cases hx
    | one x =>
      refine ⟨?_, fun hno => absurd hd (hno rfl x)⟩
      rintro ⟨v, ⟨_, _, hv⟩, hback⟩
      obtain ⟨xs, hxs⟩ := h.list (htype ▸ hv)
      rw [hxs, hd] at hback
      cases hback

/-! ## Parameters without the attribute -/

/-- The definition without one attribute. -/
def ComponentDef.without (d : ComponentDef F) (attr : AttributeDef F) : ComponentDef F :=
  { d with attrs := d.attrs.filter fun b => b.fullName ≠ attr.fullName }

/-- The reader accepts the parameters, and answers the default value. -/
def DefaultTaken (py : PyLibs F) (d : ComponentDef F) (p : NodeEvalParam F)
    (attr : AttributeDef F) (readBack : Value F → Option (DefaultValue α))
    (default : Option (DefaultValue α)) : Prop :=
  ∃ reader v, EvalParamReader.new py p d = .ok reader ∧
    reader.getAttr attr.fullName = .ok (.value v) ∧ readBack v = default

theorem mem_without {d : ComponentDef F} {attr b : AttributeDef F} :
    b ∈ (d.without attr).attrs ↔ b ∈ d.attrs ∧ b.fullName ≠ attr.fullName := by
  simp [ComponentDef.without]

theorem eq_of_fullName_eq {d : ComponentDef F} (hd : d.WellNamed) {attr b : AttributeDef F}
    (hattr : attr ∈ d.attrs) (hb : b ∈ d.attrs) (h : b.fullName = attr.fullName) : b = attr :=
  List.inj_on_of_nodup_map hd.fullName_nodup hb hattr h

/-- If the parameters are valid without the attribute and give nothing for it, the default value
    is taken exactly if it can be read, and no column has the name of the attribute. -/
theorem defaultTaken_iff {py : PyLibs F} {d : ComponentDef F} (hd : d.WellNamed)
    {attr : AttributeDef F} (hattr : attr ∈ d.attrs) {p : NodeEvalParam F}
    (hslot : p.slot attr.fullName = none) (hvalid : Accepts py (d.without attr) p)
    {readBack : Value F → Option (DefaultValue α)} {default : Option (DefaultValue α)} :
    DefaultTaken py d p attr readBack default ↔
      attr.fullName ∉ (columns d.inputs).map Column.fullName ∧
        ∃ v, AttrReads py none attr v ∧ readBack v = default := by
  constructor
  · rintro ⟨reader, v, hreader, hget, hback⟩
    obtain ⟨w, hw, hget'⟩ := EvalParamReader.getAttr_eq_ok hreader hattr
    rw [hget] at hget'
    cases hget'
    obtain ⟨_, _, _, _, _, _, hcols⟩ := EvalParamReader.exists_new_iff.mp ⟨reader, hreader⟩
    refine ⟨fun hmem => ?_, v, hslot ▸ hw, hback⟩
    obtain ⟨col, hcol, hname⟩ := List.mem_map.mp hmem
    exact (hcols col hcol).1 (hname ▸ List.mem_map_of_mem hattr)
  · rintro ⟨hnew, v, hv, hback⟩
    obtain ⟨hheader, hio, honce, _, hreads, hnodup, hcols⟩ :=
      EvalParamReader.exists_new_iff.mp hvalid
    have hreads' : ∀ b ∈ d.attrs, ∃ v, AttrReads py (p.slot b.fullName) b v := by
      intro b hb
      by_cases hname : b.fullName = attr.fullName
      · obtain rfl := eq_of_fullName_eq hd hattr hb hname
        exact ⟨v, hslot ▸ hv⟩
      · exact hreads b (mem_without.mpr ⟨hb, hname⟩)
    have hcols' : ∀ col ∈ columns d.inputs, col.fullName ∉ d.attrs.map AttributeDef.fullName ∧
        ∃ v, ColumnReads py (p.slot col.fullName) col v := by
      intro col hcol
      refine ⟨fun hmem => ?_, (hcols col hcol).2⟩
      obtain ⟨b, hb, hname⟩ := List.mem_map.mp hmem
      by_cases hself : b.fullName = attr.fullName
      · exact hnew (hself ▸ hname ▸ List.mem_map_of_mem hcol)
      · exact (hcols col hcol).1 (List.mem_map.mpr ⟨b, mem_without.mpr ⟨hb, hself⟩, hname⟩)
    have hio' : IoMatches p d := ⟨hio.inputs_length, hio.inputs_nodup, hio.types,
      hio.outputs_length, hio.outputs_nodup⟩
    obtain ⟨reader, hreader⟩ : Accepts py d p := EvalParamReader.exists_new_iff.mpr
      ⟨hheader, hio', honce, hd.fullName_nodup, hreads', hnodup, hcols'⟩
    obtain ⟨w, hw, hget⟩ := EvalParamReader.getAttr_eq_ok hreader hattr
    rw [hslot, attrReads_none] at hw
    rw [attrReads_none] at hv
    have hsame : w = v := Except.ok.inj (hw.2.2.2.symm.trans hv.2.2.2)
    exact ⟨reader, v, hreader, hsame ▸ hget, hback⟩

/-! ## Declared default values -/

/-- In every definition that lists the attribute, parameters that are valid without it and give
    nothing for it get the declared default value, exactly if no column has its full name and a
    list was given a list. -/
def DefaultRule (py : PyLibs F) (attr : AttributeDef F)
    (readBack : Value F → Option (DefaultValue α)) (args : AttrArgs α) : Prop :=
  ∀ c d, Component.Reachable py c → c.definition.1 = .ok d → attr ∈ d.attrs →
    ∀ p, (∀ message, (attr.fullName, message) ∈ p.given → message.isNa = true) →
      Accepts py (d.without attr) p →
      (DefaultTaken py d p attr readBack args.defaultValue ↔
        attr.fullName ∉ (columns d.inputs).map Column.fullName ∧
          (args.isList = true → ∀ x, args.defaultValue ≠ some (.one x)))

theorem ReadsBack.defaultRule {py : PyLibs F} {kind : ScalarKind F α}
    {readBack : Value F → Option (DefaultValue α)} (h : ReadsBack py kind readBack)
    {args : AttrArgs α} {con : Constraint α} {attr : AttributeDef F}
    (hattr : kind.attributeDef py args con = .ok attr) (hoptional : args.isOptional = true) :
    DefaultRule py attr readBack args := by
  intro c d hc hd hmem p hgiven hvalid
  have hnamed := (Component.definition_wellNamed hc.wellNamed).2 d hd
  have hslot : p.slot attr.fullName = none := by
    rw [NodeEvalParam.slot, available_eq_none_iff.mpr hgiven]
    rfl
  rw [defaultTaken_iff hnamed hmem hslot hvalid, h.attrReads_iff hattr hoptional]

theorem defaults_acceptable_iff (py : PyLibs F) :
    (∀ (args : AttrArgs Int) (con : Constraint Int) (attr : AttributeDef F),
      (intKind F).attributeDef py args con = .ok attr → args.isOptional = true →
      DefaultRule py attr Value.asInt args) ∧
    (∀ (args : AttrArgs String) (con : Constraint String) (attr : AttributeDef F),
      (strKind py).attributeDef py args con = .ok attr → args.isOptional = true →
      DefaultRule py attr Value.asStr args) ∧
    (∀ (args : AttrArgs Bool) (con : Constraint Bool) (attr : AttributeDef F),
      (boolKind F).attributeDef py args con = .ok attr → args.isOptional = true →
      DefaultRule py attr Value.asBool args) :=
  ⟨fun _ _ _ hattr hoptional => (readsBack_int py).defaultRule hattr hoptional,
    fun _ _ _ hattr hoptional => (readsBack_str py).defaultRule hattr hoptional,
    fun _ _ _ hattr hoptional => (readsBack_bool py).defaultRule hattr hoptional⟩

def shuffle : AttrArgs Bool where
  name := "shuffle"
  desc := "Shuffle the rows."
  isList := false
  isOptional := true
  defaultValue := some (.one true)

def defaultLabels (default : DefaultValue String) : AttrArgs String :=
  { labels with defaultValue := some default }

/-- A component of three attributes, of which the last may have a default value of its own. -/
def optionalCalls (default : DefaultValue String) : List (Call Int) :=
  [.intAttr maxDepth {}, .boolAttr shuffle, .strAttr (defaultLabels default) none]

def optionalComponent (default : DefaultValue String) : Component Int :=
  (optionalCalls default).foldl (Call.run plainPy) (.new plainPy "" "" "" "")

theorem defaults_acceptable_taken :
    (∃ attr, (intKind Int).attributeDef plainPy maxDepth {} = .ok attr ∧
      DefaultTaken plainPy (optionalComponent (.many ["a"])).compDef (plainParam [] []) attr
        Value.asInt (some (.one 6))) ∧
    (∃ attr, (strKind plainPy).attributeDef plainPy (defaultLabels (.many ["a"])) {} = .ok attr ∧
      DefaultTaken plainPy (optionalComponent (.many ["a"])).compDef (plainParam [] []) attr
        Value.asStr (some (.many ["a"]))) ∧
    ∃ attr, (boolKind Int).attributeDef plainPy shuffle {} = .ok attr ∧
      DefaultTaken plainPy (optionalComponent (.many ["a"])).compDef (plainParam [] []) attr
        Value.asBool (some (.one true)) := by
  have hreach : Component.Reachable plainPy (optionalComponent (.many ["a"])) :=
    Component.Reachable.history (.new "" "" "" "") _
  have hnone : ∀ name (message : Attribute Int),
      (name, message) ∈ (plainParam [] []).given → message.isNa = true := by
    simp [NodeEvalParam.given, plainParam]
  obtain ⟨hint, hstr, hbool⟩ := defaults_acceptable_iff plainPy
  refine ⟨⟨_, rfl, ?_⟩, ⟨_, rfl, ?_⟩, ⟨_, rfl, ?_⟩⟩
  · exact (hint maxDepth {} _ rfl rfl _ _ hreach rfl List.mem_cons_self _ (hnone _)
      ⟨_, rfl⟩).mpr ⟨by decide, by simp [maxDepth]⟩
  · exact (hstr (defaultLabels (.many ["a"])) {} _ rfl rfl _ _ hreach rfl
      (List.mem_cons_of_mem _ (List.mem_cons_of_mem _ List.mem_cons_self)) _ (hnone _)
      ⟨_, rfl⟩).mpr ⟨by decide, by simp [defaultLabels]⟩
  · exact (hbool shuffle {} _ rfl rfl _ _ hreach rfl (List.mem_cons_of_mem _ List.mem_cons_self) _
      (hnone _) ⟨_, rfl⟩).mpr ⟨by decide, by simp [shuffle]⟩

/-- A text given for a list of texts is read back as its characters, and an attribute with the
    full name of a column is an AttributeError. -/
theorem default_changed :
    (∃ d reader, (optionalComponent (.one "abc")).definition.1 = .ok d ∧
      EvalParamReader.new plainPy (plainParam [] []) d = .ok reader ∧
      reader.getAttr "labels" = .ok (.value (.strs ["a", "b", "c"]))) ∧
    (∃ attr, (intKind Int).attributeDef plainPy { maxDepth with name := "input/t/ids" } {} =
        .ok attr ∧
      (∃ reader, EvalParamReader.new plainPy (plainParam [] [⟨"", ""⟩])
        ((tableComponent "input/t/ids" ["ids"]).compDef.without attr) = .ok reader) ∧
      EvalParamReader.new plainPy (plainParam [] [⟨"", ""⟩])
        (tableComponent "input/t/ids" ["ids"]).compDef = .error (.attributeError "ss")) :=
  ⟨⟨_, _, rfl, rfl, rfl⟩, ⟨_, rfl, ⟨_, rfl⟩, rfl⟩⟩

end TrustFlow.Componentize
