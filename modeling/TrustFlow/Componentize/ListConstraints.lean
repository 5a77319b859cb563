import TrustFlow.Componentize.ScalarConstraints
import Mathlib.Data.Fintype.EquivFin

/-! # Constraints of lists and of table columns

The reader checks nothing of an attribute that is a list: neither its length nor its
elements.  It checks the number of columns of a table attribute, but takes a limit of 0
for no limit.

* `listEnforced_iff` — what every accepted list meets is what every list meets;
* `list_constraints_enforced_iff` — when the limits of lists and of columns are enforced. -/

namespace TrustFlow.Componentize

variable {F α : Type}

/-! ## Components with one declaration -/

section Sole

variable (py : PyLibs F)

def soleAttr (attr : AttributeDef F) : Component F :=
  (Component.new py "" "" "" "").append attr

theorem soleAttr_definition (attr : AttributeDef F) :
    (soleAttr py attr).definition.1 = .ok (soleAttr py attr).compDef := rfl

/-- Parameters that give a message for each path, and a table for each input. -/
def plainParam (given : List (String × Attribute F)) (inputs : List DistData) :
    NodeEvalParam F where
  domain := ""
  name := ""
  version := ""
  attrPaths := given.map Prod.fst
  attrs := given.map Prod.snd
  inputs := inputs
  outputUris := []

theorem new_soleAttr {attr : AttributeDef F} {message : Attribute F} {v : Value F}
    (htype : attr.type ∈ atomicTypes) (hna : message.isNa = false)
    (hpasses : Passes py (.message message) attr)
    (hvalue : getValue (.message message) attr.type = .ok v) :
    EvalParamReader.new py (plainParam [(attr.fullName, message)] [])
      (soleAttr py attr).compDef = .ok ⟨[(attr.fullName, .value v)], [], []⟩ := by
  have hcollect : collectAttrs [(attr.fullName, message)] [] =
      .ok [(attr.fullName, .message message)] := by
    simp [collectAttrs, Dict.keys, hna, Dict.set]
  have hread : readAttr py [(attr.fullName, .message message)] attr =
      .ok [(attr.fullName, .value v)] :=
    readAttr_eq_ok.mpr ⟨htype, .message message, by simp [givenOrDefault, Dict.get?], hpasses,
      v, hvalue, by simp [Dict.set]⟩
  refine EvalParamReader.new_eq_ok.mpr ⟨rfl, _, hcollect, _, ?_, rfl⟩
  show (readAttr py [(attr.fullName, .message message)] attr >>= fun s => pure s) = _
  rw [hread]
  rfl

end Sole

/-! ## Lists -/

structure AttrArgs.LengthWithin (args : AttrArgs α) (n : Nat) : Prop where
  min : ∀ m, args.listMinLengthInclusive = some m → m ≤ n
  max : ∀ m, args.listMaxLengthInclusive = some m → (n : Int) ≤ m

/-- Whatever parameters are accepted, the value of the attribute meets the requirement. -/
def ListEnforced (py : PyLibs F) (declare : Component F → Except CompError (Component F))
    (meets : Value F → Prop) : Prop :=
  ∀ c₀ attr, declare c₀ = .ok (c₀.append attr) →
    ∀ c d, Component.Reachable py c → c.definition.1 = .ok d → attr ∈ d.attrs →
      ∀ p reader, EvalParamReader.new py p d = .ok reader →
        ∃ v, reader.getAttr attr.fullName = .ok (.value v) ∧ meets v

def listTypes : List AttrType := [.floats, .ints, .strings, .bools]

/-- The checks let every list pass. -/
theorem passes_of_listType {py : PyLibs F} {attr : AttributeDef F} (htype : attr.type ∈ listTypes)
    (slot : Slot F) : Passes py slot attr := by
  simp only [listTypes, List.mem_cons, List.not_mem_nil, or_false] at htype
  rcases htype with h | h | h | h <;>
    simp [Passes, checkAllowedValues, checkLowerBound, checkUpperBound, h]

theorem attr_eq_of_append {c : Component F} {attr attr' : AttributeDef F}
    (h : c.append attr = c.append attr') : attr = attr' := by
  have hdecls : c.attrDecls ++ [attr] = c.attrDecls ++ [attr'] :=
    congrArg Component.attrDecls h
  simpa using hdecls

theorem listEnforced_iff {py : PyLibs F} {kind : ScalarKind F α} {args : AttrArgs α}
    {con : Constraint α} {declare : Component F → Except CompError (Component F)}
    (hdeclare : ∀ c, declare c = c.append <$> kind.attributeDef py args con)
    (hcall : ∃ call : Call F, ∀ c, call.run py c = orUnchanged (declare c) c)
    (hlist : args.isList = true) (htype : kind.listType ∈ listTypes)
    (hdeclared : ∃ attr, kind.attributeDef py args con = .ok attr) {meets : Value F → Prop} :
    ListEnforced py declare meets ↔
      ∀ message v, getValue (.message message) kind.listType = .ok v → meets v := by
  obtain ⟨attr, hattr⟩ := hdeclared
  have hstored := (kind.stored_of_attributeDef hattr).type
  rw [if_pos hlist] at hstored
  have hown : ∀ c, declare c = .ok (c.append attr) := fun c => by
    rw [hdeclare, hattr]
    rfl
  constructor
  · intro h message v hv
    -- The component that declares only this attribute accepts the message.
    obtain ⟨call, hrun⟩ := hcall
    have hreach : Component.Reachable py (soleAttr py attr) := by
      have hnext : Component.Reachable py (call.run py (Component.new py "" "" "" "")) :=
        .call call (.new "" "" "" "")
      rw [hrun, hown] at hnext
      exact hnext
    have hvalue : getValue (.message { message with isNa := false }) attr.type = .ok v := by
      rw [hstored, ← hv]
      cases kind.listType <;> rfl
    have hatomic : attr.type ∈ atomicTypes := by
      rw [hstored]
      revert htype
      cases kind.listType <;> simp [listTypes, atomicTypes]
    have hnew := new_soleAttr py hatomic rfl (passes_of_listType (hstored ▸ htype) _) hvalue
    obtain ⟨w, hw, hmeets⟩ := h (soleAttr py attr) attr (hown _) _ _ hreach
      (soleAttr_definition py attr) List.mem_cons_self _ _ hnew
    simp only [EvalParamReader.getAttr, Dict.get?, if_true, Except.ok.injEq,
      Slot.value.injEq] at hw
    exact hw ▸ hmeets
  · intro h c₀ attr' hattr' c d _ _ hmem p reader hreader
    rw [hown] at hattr'
    obtain rfl := attr_eq_of_append (Except.ok.inj hattr')
    obtain ⟨message, v, _, hv, hget⟩ := EvalParamReader.getAttr_of_mem hreader hmem
    exact ⟨v, hget, h message v (hstored ▸ hv)⟩

/-- Limits that every list is within. -/
structure AttrArgs.NoLimits (args : AttrArgs α) : Prop where
  min : ∀ m, args.listMinLengthInclusive = some m → m ≤ 0
  max : args.listMaxLengthInclusive = none

theorem forall_lists_iff {β : Type} [Nonempty β] {args : AttrArgs α} {P : β → Prop} :
    (∀ xs : List β, args.LengthWithin xs.length ∧ ∀ x ∈ xs, P x) ↔ args.NoLimits ∧ ∀ x, P x := by
  constructor
  · intro h
    refine ⟨⟨fun m hm => (h []).1.min m hm, ?_⟩, fun x => (h [x]).2 x List.mem_cons_self⟩
    cases hmax : args.listMaxLengthInclusive with
    | none => rfl
    | some m =>
      -- A list that is one longer than the limit.
      obtain ⟨x⟩ := ‹Nonempty β›
      have hlong := (h (List.replicate (m.toNat + 1) x)).1.max m hmax
      rw [List.length_replicate] at hlong
      omega
  · rintro ⟨⟨hmin, hmax⟩, hP⟩ xs
    refine ⟨⟨fun m hm => ?_, fun m hm => ?_⟩, fun x _ => hP x⟩
    · have hm := hmin m hm
      omega
    · rw [hmax] at hm
      cases hm

theorem exists_attributeDef {kind : ScalarKind F α} {py : PyLibs F} {args : AttrArgs α}
    {con : Constraint α}
    (h : ∃ c c', Component.append c <$> kind.attributeDef py args con = .ok c') :
    ∃ attr, kind.attributeDef py args con = .ok attr := by
  obtain ⟨c, c', h⟩ := h
  cases hattr : kind.attributeDef py args con with
  | error e =>
    rw [hattr] at h
    cases h
  | ok attr => exact ⟨attr, rfl⟩

theorem int_list_enforced_iff {py : PyLibs F} {args : AttrArgs Int} {con : Constraint Int}
    (hlist : args.isList = true) (hdeclared : ∃ c c', Component.intAttr py c args con = .ok c') :
    ListEnforced py (fun c => c.intAttr py args con)
        (fun v => ∃ xs, v = .ints xs ∧ args.LengthWithin xs.length ∧
          ∀ x ∈ xs, con.Admits x.toInt) ↔
      args.NoLimits ∧ ∀ x : Int64, con.Admits x.toInt := by
  refine (listEnforced_iff (fun _ => rfl) ⟨.intAttr args con, fun _ => rfl⟩ hlist
    (by simp [intKind, listTypes]) (exists_attributeDef hdeclared)).trans ?_
  rw [← forall_lists_iff]
  constructor
  · intro h xs
    obtain ⟨ys, heq, hys⟩ := h { Attribute.new py with i64s := xs } _ rfl
    cases heq
    exact hys
  · rintro h message v ⟨⟩
    exact ⟨message.i64s, rfl, h _⟩

/-- No list of texts has all texts. -/
theorem exists_text_not_mem (values : List String) : ∃ x, x ∉ values := by
  have hinj : Function.Injective fun n => String.ofList (List.replicate n 'a') := by
    intro m n h
    simpa using congrArg (fun s => s.toList.length) h
  have : Infinite String := Infinite.of_injective _ hinj
  obtain ⟨x, hx⟩ := Infinite.exists_notMem_finset values.toFinset
  exact ⟨x, by simpa using hx⟩

theorem str_list_enforced_iff {py : PyLibs F} {args : AttrArgs String}
    {allowedValues : Option (List String)} (hlist : args.isList = true)
    (hdeclared : ∃ c c', Component.strAttr py c args allowedValues = .ok c') :
    ListEnforced py (fun c => c.strAttr py args allowedValues)
        (fun v => ∃ xs, v = .strs xs ∧ args.LengthWithin xs.length ∧
          ∀ x ∈ xs, ∀ values, allowedValues = some values → x ∈ values) ↔
      args.NoLimits ∧ allowedValues = none := by
  have hnone : (∀ x : String, ∀ values, allowedValues = some values → x ∈ values) ↔
      allowedValues = none := by
    cases allowedValues with
    | none => simp
    | some values =>
      obtain ⟨x, hx⟩ := exists_text_not_mem values
      simp only [Option.some.injEq, forall_eq', reduceCtorEq, iff_false, not_forall]
      exact ⟨x, hx⟩
  refine (listEnforced_iff (fun _ => rfl) ⟨.strAttr args allowedValues, fun _ => rfl⟩ hlist
    (by simp [strKind, listTypes]) (exists_attributeDef hdeclared)).trans ?_
  rw [← hnone, ← forall_lists_iff]
  constructor
  · intro h xs
    obtain ⟨ys, heq, hys⟩ := h { Attribute.new py with ss := xs } _ rfl
    cases heq
    exact hys
  · rintro h message v ⟨⟩
    exact ⟨message.ss, rfl, h _⟩

/-! ## Columns -/

structure TableColParam.CountWithin (colParam : TableColParam) (n : Nat) : Prop where
  min : ∀ m, colParam.colMinCntInclusive = some m → m ≤ n
  max : ∀ m, colParam.colMaxCntInclusive = some m → (n : Int) ≤ m

/-- Whatever parameters are accepted, the columns of the attribute are as many as declared. -/
def ColumnsEnforced (py : PyLibs F) (colParam : TableColParam) : Prop :=
  ∀ c d, Component.Reachable py c → c.definition.1 = .ok d →
    ∀ io ∈ d.inputs, ∀ attr ∈ io.attrs, tableAttrDef py colParam = .ok attr →
      ∀ p reader, EvalParamReader.new py p d = .ok reader →
        ∃ xs, reader.getInputAttrs io.name attr.name = .ok (.value (.strs xs)) ∧
          colParam.CountWithin xs.length

theorem toInt64OrZero_eq_ok {x : Option Int} {y : Int64} (h : toInt64OrZero x = .ok y) :
    y.toInt = x.getD 0 := by
  cases x with
  | none =>
    cases h
    rfl
  | some x => exact toInt64_eq_ok h

theorem tableAttrDef_eq_ok {py : PyLibs F} {colParam : TableColParam} {attr : TableAttrDef F}
    (h : tableAttrDef py colParam = .ok attr) :
    attr.attrs = [] ∧ attr.colMinCntInclusive.toInt = colParam.colMinCntInclusive.getD 0 ∧
      attr.colMaxCntInclusive.toInt = colParam.colMaxCntInclusive.getD 0 := by
  simp only [tableAttrDef, bind_eq_ok] at h
  obtain ⟨min, hmin, max, hmax, heq⟩ := h
  cases heq
  exact ⟨rfl, toInt64OrZero_eq_ok hmin, toInt64OrZero_eq_ok hmax⟩

theorem toInt_eq_zero_iff {x : Int64} : x.toInt = 0 ↔ x = 0 := by
  rw [← Int64.toInt_inj]
  rfl

theorem checkTableAttrColCnt_iff {message : Attribute F} {attr : TableAttrDef F} :
    checkTableAttrColCnt (.message message) attr = .ok true ↔
      (attr.colMinCntInclusive.toInt = 0 ∨
        attr.colMinCntInclusive.toInt ≤ message.ss.length) ∧
      (attr.colMaxCntInclusive.toInt = 0 ∨
        (message.ss.length : Int) ≤ attr.colMaxCntInclusive.toInt) := by
  simp only [checkTableAttrColCnt, Slot.field, ok_bind, ne_eq, ← toInt_eq_zero_iff]
  split
  next h =>
    simp only [pure, Except.pure, Except.ok.injEq, Bool.false_eq_true, false_iff]
    omega
  next h =>
    split
    next h' =>
      simp only [pure, Except.pure, Except.ok.injEq, Bool.false_eq_true, false_iff]
      omega
    next h' =>
      simp only [pure, Except.pure, true_iff]
      omega

/-- A component with one input, a table with one attribute. -/
def soleInput (py : PyLibs F) (attr : TableAttrDef F) : Component F :=
  { Component.new py "" "" "" "" with
    inputDecls := [{ name := "t", desc := py.cleanText "" true, types := [], attrs := [attr] }] }

theorem soleInput_reachable {py : PyLibs F} {colParam : TableColParam} {attr : TableAttrDef F}
    (h : tableAttrDef py colParam = .ok attr) : Component.Reachable py (soleInput py attr) := by
  have hnext : Component.Reachable py (Call.run py (Component.new py "" "" "" "")
      (.io { ioType := .input, name := "t", desc := "", types := [],
             colParams := some [colParam] })) :=
    .call _ (.new "" "" "" "")
  have hmapM : [colParam].mapM (tableAttrDef py) = .ok [attr] := by
    simp [List.mapM_cons, h, pure, Except.pure]
  have hio : Component.io py (Component.new py "" "" "" "")
      { ioType := .input, name := "t", desc := "", types := [], colParams := some [colParam] } =
      .ok (soleInput py attr) := by
    simp only [Component.io, Option.getD_some, hmapM]
    rfl
  rw [Call.run, hio] at hnext
  exact hnext

theorem new_soleInput {py : PyLibs F} {attr : TableAttrDef F} (hattrs : attr.attrs = [])
    {message : Attribute F} (hna : message.isNa = false)
    (hwithin : checkTableAttrColCnt (.message message) attr = .ok true) :
    EvalParamReader.new py (plainParam [(inputAttrName "t" attr.name, message)] [⟨"", ""⟩])
      (soleInput py attr).compDef = .ok ⟨[(inputAttrName "t" attr.name,
        .value (.strs message.ss))], [("t", ⟨"", ""⟩)], []⟩ := by
  have hcollect : collectAttrs [(inputAttrName "t" attr.name, message)] [] =
      .ok [(inputAttrName "t" attr.name, .message message)] := by
    simp [collectAttrs, Dict.keys, hna, Dict.set]
  have hread : readInputAttr py "t" [(inputAttrName "t" attr.name, .message message)] attr =
      .ok [(inputAttrName "t" attr.name, .value (.strs message.ss))] :=
    readInputAttr_eq_ok.mpr ⟨hattrs, message, by simp [Dict.get?], hwithin, by simp [Dict.set]⟩
  have hattr : [attr].foldlM (readInputAttr py "t")
      [(inputAttrName "t" attr.name, .message message)] =
      .ok [(inputAttrName "t" attr.name, .value (.strs message.ss))] := by
    rw [List.foldlM_cons, hread]
    rfl
  have hinput : readInput py ([(inputAttrName "t" attr.name, .message message)], [])
      (⟨"", ""⟩, ⟨"t", py.cleanText "" true, [], [attr]⟩) = .ok
        ([(inputAttrName "t" attr.name, .value (.strs message.ss))], [("t", ⟨"", ""⟩)]) :=
    readInput_eq_ok.mpr ⟨by simp [Dict.keys], Or.inl rfl, _, hattr, rfl⟩
  have hio : EvalParamReader.readIo py
      (plainParam [(inputAttrName "t" attr.name, message)] [⟨"", ""⟩])
      (soleInput py attr).compDef [(inputAttrName "t" attr.name, .message message)] =
      .ok ⟨[(inputAttrName "t" attr.name, .value (.strs message.ss))], [("t", ⟨"", ""⟩)], []⟩ := by
    refine EvalParamReader.readIo_eq_ok.mpr
      ⟨rfl, ([(inputAttrName "t" attr.name, .value (.strs message.ss))], [("t", ⟨"", ""⟩)]), ?_,
        rfl, [], rfl, rfl⟩
    show (readInput py _ _ >>= fun state => pure state) = _
    rw [hinput]
    rfl
  exact EvalParamReader.new_eq_ok.mpr ⟨rfl, _, hcollect, _, rfl, hio⟩

/-- A maximum of 0 is the only limit that is not enforced. -/
theorem columnsEnforced_iff {py : PyLibs F} {colParam : TableColParam}
    (hdeclared : ∃ attr, tableAttrDef py colParam = .ok attr) :
    ColumnsEnforced py colParam ↔ colParam.colMaxCntInclusive ≠ some 0 := by
  constructor
  · intro h hmax
    obtain ⟨attr, hattr⟩ := hdeclared
    obtain ⟨hattrs, hattrMin, hattrMax⟩ := tableAttrDef_eq_ok hattr
    -- As many columns as the minimum asks for, and one at least.
    let message : Attribute F :=
      { Attribute.new py with
        ss := List.replicate ((colParam.colMinCntInclusive.getD 0).toNat + 1) "" }
    have hwithin : checkTableAttrColCnt (.message message) attr = .ok true := by
      rw [checkTableAttrColCnt_iff, hattrMin, hattrMax, hmax]
      simp only [message, List.length_replicate, Option.getD_some, true_or, and_true]
      omega
    have hna : message.isNa = false := rfl
    obtain ⟨xs, hxs, hcount⟩ := h _ _ (soleInput_reachable hattr) rfl _ List.mem_cons_self attr
      List.mem_cons_self hattr _ _ (new_soleInput hattrs hna hwithin)
    simp only [EvalParamReader.getInputAttrs, Dict.get?, if_true, Except.ok.injEq,
      Slot.value.injEq, Value.strs.injEq] at hxs
    have hle := hcount.max 0 hmax
    rw [← hxs] at hle
    simp only [message, List.length_replicate] at hle
    omega
  · intro hmax c d _ _ io hio attr hmem hattr p reader hreader
    obtain ⟨_, hattrMin, hattrMax⟩ := tableAttrDef_eq_ok hattr
    obtain ⟨message, hwithin, hget⟩ := EvalParamReader.getInputAttrs_of_mem hreader hio hmem
    rw [checkTableAttrColCnt_iff, hattrMin, hattrMax] at hwithin
    refine ⟨message.ss, hget, ⟨fun m hm => ?_, fun m hm => ?_⟩⟩
    · rw [hm, Option.getD_some] at hwithin
      omega
    · rw [hm, Option.getD_some] at hwithin
      have hne : m ≠ 0 := by
        rintro rfl
        exact hmax hm
      omega

/-! ## List and cardinality constraints -/

/-- The limits and elements of a list are enforced only if there is nothing to enforce; the
    number of columns is enforced unless its maximum is 0. -/
theorem list_constraints_enforced_iff (py : PyLibs F) :
    (∀ (args : AttrArgs Int) (con : Constraint Int), args.isList = true →
      (∃ c c', Component.intAttr py c args con = .ok c') →
      (ListEnforced py (fun c => c.intAttr py args con)
          (fun v => ∃ xs, v = .ints xs ∧ args.LengthWithin xs.length ∧
            ∀ x ∈ xs, con.Admits x.toInt) ↔
        args.NoLimits ∧ ∀ x : Int64, con.Admits x.toInt)) ∧
    (∀ (args : AttrArgs String) (allowedValues : Option (List String)), args.isList = true →
      (∃ c c', Component.strAttr py c args allowedValues = .ok c') →
      (ListEnforced py (fun c => c.strAttr py args allowedValues)
          (fun v => ∃ xs, v = .strs xs ∧ args.LengthWithin xs.length ∧
            ∀ x ∈ xs, ∀ values, allowedValues = some values → x ∈ values) ↔
        args.NoLimits ∧ allowedValues = none)) ∧
    (∀ colParam : TableColParam, (∃ attr, tableAttrDef py colParam = .ok attr) →
      (ColumnsEnforced py colParam ↔ colParam.colMaxCntInclusive ≠ some 0)) :=
  ⟨fun _ _ hlist hdeclared => int_list_enforced_iff hlist hdeclared,
    fun _ _ hlist hdeclared => str_list_enforced_iff hlist hdeclared,
    fun _ hdeclared => columnsEnforced_iff hdeclared⟩

/-- A list of seeds, with or without a limit on its length. -/
def seeds (max : Option Int) : AttrArgs Int where
  name := "seeds"
  desc := "Seeds of the generators."
  isList := true
  isOptional := false
  listMaxLengthInclusive := max

def labels : AttrArgs String where
  name := "labels"
  desc := "Labels of the rows."
  isList := true
  isOptional := true
  defaultValue := some (.many [])

def idColumns (max : Int) : TableColParam where
  name := "ids"
  desc := "Columns that identify a row."
  colMaxCntInclusive := some max

theorem list_constraints_enforced_unlimited :
    ListEnforced plainPy (fun c => c.intAttr plainPy (seeds none) {})
        (fun v => ∃ xs, v = .ints xs ∧ (seeds none).LengthWithin xs.length ∧
          ∀ x ∈ xs, Constraint.Admits {} x.toInt) ∧
      ListEnforced plainPy (fun c => c.strAttr plainPy labels none)
        (fun v => ∃ xs, v = .strs xs ∧ labels.LengthWithin xs.length ∧
          ∀ x ∈ xs, ∀ values : List String, none = some values → x ∈ values) ∧
      ColumnsEnforced plainPy (idColumns 3) := by
  have hall : ∀ x : Int64, Constraint.Admits {} x.toInt := fun x =>
    (Constraint.admits_iff rfl rfl).mpr (by simp)
  have hclaims := list_constraints_enforced_iff plainPy
  exact ⟨(hclaims.1 (seeds none) {} rfl ⟨Component.new plainPy "" "" "" "", _, rfl⟩).mpr
      ⟨⟨by simp [seeds], rfl⟩, hall⟩,
    (hclaims.2.1 labels none rfl ⟨Component.new plainPy "" "" "" "", _, rfl⟩).mpr
      ⟨⟨by simp [labels], rfl⟩, rfl⟩,
    (hclaims.2.2 (idColumns 3) ⟨_, rfl⟩).mpr (by decide)⟩

/-- Two seeds where one is the limit, and a column where none is. -/
theorem excess_accepted :
    (∃ c d reader, Component.intAttr plainPy (Component.new plainPy "" "" "" "")
        (seeds (some 1)) {} = .ok c ∧ c.definition.1 = .ok d ∧
      EvalParamReader.new plainPy (plainParam [("seeds", { f := 0, i64s := [1, 2] })] []) d =
        .ok reader ∧
      reader.getAttr "seeds" = .ok (.value (.ints [1, 2])) ∧
      ¬ (seeds (some 1)).LengthWithin [1, 2].length) ∧
    (∃ attr, ∃ reader : EvalParamReader Int, tableAttrDef plainPy (idColumns 0) = .ok attr ∧
      EvalParamReader.new plainPy
        (plainParam [("input/t/ids", { f := 0, ss := ["id"] })] [⟨"", ""⟩])
        (soleInput plainPy attr).compDef = .ok reader ∧
      reader.getInputAttrs "t" "ids" = .ok (.value (.strs ["id"])) ∧
      ¬ (idColumns 0).CountWithin ["id"].length) := by
  refine ⟨⟨_, _, _, rfl, rfl, rfl, rfl, fun h => ?_⟩, ⟨_, _, rfl, rfl, rfl, fun h => ?_⟩⟩
  · exact absurd (h.max 1 rfl) (by decide)
  · exact absurd (h.max 0 rfl) (by decide)

end TrustFlow.Componentize
