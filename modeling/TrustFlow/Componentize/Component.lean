import TrustFlow.Componentize.Spec

/-! # Declaring a component

The attributes, inputs and outputs of a component are declared one after the other.  A
declaration checks its arguments and writes them into a message; `definition` collects
the messages.

The four attribute functions share one body.  They differ in the type of their values,
and in the constraints they take: bounds only for numbers, and no allowed values for
booleans. -/

namespace TrustFlow.Componentize

variable {F α : Type}

def checkReservedWords (word : String) : Except CompError Unit :=
  if word ∈ ["input", "output"] then
    .error (.compDeclError (word ++ " is a reserved word."))
  else .ok ()

/-! ## Attributes -/

/-- A default value, which is a list or a single value whatever `is_list` says. -/
inductive DefaultValue (α : Type) where
  | one (x : α)
  | many (xs : List α)

structure AttrArgs (α : Type) where
  name : String
  desc : String
  isList : Bool
  isOptional : Bool
  defaultValue : Option (DefaultValue α) := none
  listMinLengthInclusive : Option Int := none
  listMaxLengthInclusive : Option Int := none

structure Constraint (α : Type) where
  allowedValues : Option (List α) := none
  lowerBound : Option α := none
  upperBound : Option α := none
  lowerBoundInclusive : Bool := false
  upperBoundInclusive : Bool := false

/-- What depends on the type of the values: the types of the attribute, the iteration over
    a single value, the comparisons, the texts in messages, and the fields of `Attribute`
    that hold a value and a list of values. -/
structure ScalarKind (F α : Type) where
  oneType : AttrType
  listType : AttrType
  iterate : α → Except CompError (List α)
  falsy : α → Bool
  eq : α → α → Bool
  lt : α → α → Bool
  close : α → α → Bool
  text : α → String
  repr : α → String
  boundLabel : String → String
  set : α → Attribute F → Except CompError (Attribute F)
  extend : List α → Attribute F → Except CompError (Attribute F)

namespace ScalarKind

variable (kind : ScalarKind F α)

def mem (v : α) (values : List α) : Bool := values.any (kind.eq v)

/-- `for v in default_value`, or the check of the value itself if `is_list` is not set, when
    `mismatch` is what the check does with a list. -/
def checkDefault (isList : Bool) (defaultValue : DefaultValue α)
    (check : α → Except CompError Unit) (mismatch : List α → CompError) :
    Except CompError Unit :=
  match isList, defaultValue with
  | true, .many xs => xs.forM check
  | true, .one x => do
    let xs ← kind.iterate x
    xs.forM check
  | false, .one x => check x
  | false, .many xs => .error (mismatch xs)

def checkAllowed (allowed : List α) (v : α) : Except CompError Unit :=
  if kind.mem v allowed then .ok ()
  else .error (.compDeclError ("default_value " ++ kind.text v ++ " is not in allowed_values " ++
    listText (allowed.map kind.repr)))

def aboveLower (con : Constraint α) (lower v : α) : Bool :=
  kind.lt lower v || (con.lowerBoundInclusive && kind.close v lower)

def belowUpper (con : Constraint α) (upper v : α) : Bool :=
  kind.lt v upper || (con.upperBoundInclusive && kind.close v upper)

def checkLower (name : String) (con : Constraint α) (lower v : α) : Except CompError Unit :=
  if kind.aboveLower con lower v then .ok ()
  else .error (.compDeclError (kind.boundLabel name ++ kind.text v ++
    " fails bound check: lower_bound " ++ kind.text lower ++ ", lower_bound_inclusive " ++
    boolText con.lowerBoundInclusive))

def checkUpper (name : String) (con : Constraint α) (upper v : α) : Except CompError Unit :=
  if kind.belowUpper con upper v then .ok ()
  else .error (.compDeclError (kind.boundLabel name ++ kind.text v ++
    " fails bound check: upper_bound " ++ kind.text upper ++ ", upper_bound_inclusive " ++
    boolText con.upperBoundInclusive))

/-- The part of an attribute function under "sanity checks". -/
def sanityChecks (args : AttrArgs α) (con : Constraint α) : Except CompError Unit := do
  checkReservedWords args.name
  if args.isOptional && args.defaultValue.isNone then
    .error (.compDeclError
      ("attr " ++ args.name ++ ": default_value must be provided if optional."))
  if con.allowedValues.isSome && (con.lowerBound.isSome || con.upperBound.isSome) then
    .error (.compDeclError "allowed_values and bounds could not be set at the same time.")
  match con.allowedValues, args.defaultValue with
  | some allowed, some d =>
    kind.checkDefault args.isList d (kind.checkAllowed allowed) fun xs =>
      .compDeclError ("default_value " ++ listText (xs.map kind.repr) ++
        " is not in allowed_values " ++ listText (allowed.map kind.repr))
  | _, _ => .ok ()
  match con.lowerBound, con.upperBound with
  | some lower, some upper =>
    if kind.lt upper lower then
      .error (.compDeclError ("lower_bound " ++ kind.text lower ++
        " is greater than upper_bound " ++ kind.text upper))
  | _, _ => .ok ()
  match args.defaultValue, con.lowerBound with
  | some d, some lower =>
    kind.checkDefault args.isList d (kind.checkLower args.name con lower) fun _ => .typeError
  | _, _ => .ok ()
  match args.defaultValue, con.upperBound with
  | some d, some upper =>
    kind.checkDefault args.isList d (kind.checkUpper args.name con upper) fun _ => .typeError
  | _, _ => .ok ()
  match args.listMinLengthInclusive, args.listMaxLengthInclusive with
  | some min, some max =>
    if max < min then
      .error (.compDeclError ("list_min_length_inclusive " ++ toString min ++
        " should not be greater than list_max_length_inclusive " ++ toString max ++ "."))
  | _, _ => .ok ()

/-- The default value in the message.  `extend` ignores a single value that is falsy. -/
def storeDefault (py : PyLibs F) (args : AttrArgs α) : Except CompError (Attribute F) :=
  match args.defaultValue, args.isList with
  | none, _ => .ok (.new py)
  | some (.one x), false => kind.set x (.new py)
  | some (.many _), false => .error .typeError
  | some (.one x), true =>
    if kind.falsy x then .ok (.new py)
    else do
      let xs ← kind.iterate x
      kind.extend xs (.new py)
  | some (.many xs), true => kind.extend xs (.new py)

def storeAllowed (py : PyLibs F) (con : Constraint α) : Except CompError (Attribute F) :=
  match con.allowedValues with
  | some allowed => kind.extend allowed (.new py)
  | none => .ok (.new py)

def storeLowerBound (con : Constraint α) (atomic : AtomicAttrDesc F) :
    Except CompError (AtomicAttrDesc F) :=
  match con.lowerBound with
  | some lower => do
    let atomic ← atomic.setBool "has_lower_bound" true
    let atomic ← atomic.setBool "lower_bound_inclusive" con.lowerBoundInclusive
    let bound ← kind.set lower atomic.lowerBound
    return { atomic with lowerBound := bound }
  | none => .ok atomic

def storeUpperBound (con : Constraint α) (atomic : AtomicAttrDesc F) :
    Except CompError (AtomicAttrDesc F) :=
  match con.upperBound with
  | some upper => do
    let atomic ← atomic.setBool "has_upper_bound" true
    let atomic ← atomic.setBool "upper_bound_inclusive" con.upperBoundInclusive
    let bound ← kind.set upper atomic.upperBound
    return { atomic with upperBound := bound }
  | none => .ok atomic

def storeListLimits (args : AttrArgs α) (atomic : AtomicAttrDesc F) :
    Except CompError (AtomicAttrDesc F) :=
  if args.isList then do
    let min ← toInt64 (args.listMinLengthInclusive.getD 0)
    let max ← toInt64 (args.listMaxLengthInclusive.getD (-1))
    return { atomic with listMinLengthInclusive := min, listMaxLengthInclusive := max }
  else .ok atomic

/-- The part of an attribute function under "create pb". -/
def createPb (py : PyLibs F) (args : AttrArgs α) (con : Constraint α) :
    Except CompError (AttributeDef F) := do
  let atomic : AtomicAttrDesc F := { AtomicAttrDesc.new py with isOptional := args.isOptional }
  let defaultValue ← kind.storeDefault py args
  let allowedValues ← kind.storeAllowed py con
  let atomic := { atomic with defaultValue := defaultValue, allowedValues := allowedValues }
  let atomic ← kind.storeLowerBound con atomic
  let atomic ← kind.storeUpperBound con atomic
  let atomic ← storeListLimits args atomic
  return {
    name := args.name
    desc := py.cleanText args.desc true
    type := if args.isList then kind.listType else kind.oneType
    atomic := atomic }

def attributeDef (py : PyLibs F) (args : AttrArgs α) (con : Constraint α) :
    Except CompError (AttributeDef F) := do
  kind.sanityChecks args con
  kind.createPb py args con

/-! ## What a declaration stores -/

/-- A bound is never stored: the flag that is to be set with it is not a field. -/
theorem storeLowerBound_eq_ok {con : Constraint α} {atomic atomic' : AtomicAttrDesc F} :
    kind.storeLowerBound con atomic = .ok atomic' ↔ con.lowerBound = none ∧ atomic' = atomic := by
  cases hlower : con.lowerBound with
  | none => simp [storeLowerBound, hlower, eq_comm]
  | some lower => simp [storeLowerBound, hlower, AtomicAttrDesc.setBool]

theorem storeUpperBound_eq_ok {con : Constraint α} {atomic atomic' : AtomicAttrDesc F} :
    kind.storeUpperBound con atomic = .ok atomic' ↔ con.upperBound = none ∧ atomic' = atomic := by
  cases hupper : con.upperBound with
  | none => simp [storeUpperBound, hupper, eq_comm]
  | some upper => simp [storeUpperBound, hupper, AtomicAttrDesc.setBool]

/-- The message of a declaration that succeeded. -/
structure Stored (py : PyLibs F) (args : AttrArgs α) (con : Constraint α)
    (attr : AttributeDef F) : Prop where
  prefixes : attr.prefixes = []
  name : attr.name = args.name
  type : attr.type = if args.isList then kind.listType else kind.oneType
  isOptional : attr.atomic.isOptional = args.isOptional
  defaultValue : kind.storeDefault py args = .ok attr.atomic.defaultValue
  allowedValues : kind.storeAllowed py con = .ok attr.atomic.allowedValues
  noLowerBound : con.lowerBound = none ∧ attr.atomic.lowerBoundEnabled = false
  noUpperBound : con.upperBound = none ∧ attr.atomic.upperBoundEnabled = false

theorem storeListLimits_eq_ok {args : AttrArgs α} {atomic atomic' : AtomicAttrDesc F}
    (h : storeListLimits args atomic = .ok atomic') :
    ∃ min max, atomic' = { atomic with
      listMinLengthInclusive := min, listMaxLengthInclusive := max } := by
  unfold storeListLimits at h
  split at h
  next =>
    simp only [bind_eq_ok] at h
    obtain ⟨min, _, max, _, hset⟩ := h
    cases hset
    exact ⟨min, max, rfl⟩
  next =>
    cases h
    exact ⟨atomic.listMinLengthInclusive, atomic.listMaxLengthInclusive, rfl⟩

theorem storeListLimits_of_scalar {args : AttrArgs α} (hlist : args.isList = false)
    (atomic : AtomicAttrDesc F) : storeListLimits args atomic = .ok atomic := by
  simp [storeListLimits, hlist]

theorem createPb_eq_ok {py : PyLibs F} {args : AttrArgs α} {con : Constraint α}
    {attr : AttributeDef F} :
    kind.createPb py args con = .ok attr ↔
      con.lowerBound = none ∧ con.upperBound = none ∧
      ∃ defaultValue, kind.storeDefault py args = .ok defaultValue ∧
      ∃ allowedValues, kind.storeAllowed py con = .ok allowedValues ∧
      ∃ atomic, storeListLimits args { AtomicAttrDesc.new py with
          isOptional := args.isOptional, defaultValue := defaultValue,
          allowedValues := allowedValues } = .ok atomic ∧
        attr = {
          name := args.name
          desc := py.cleanText args.desc true
          type := if args.isList then kind.listType else kind.oneType
          atomic := atomic } := by
  simp only [createPb, bind_eq_ok, storeLowerBound_eq_ok, storeUpperBound_eq_ok]
  constructor
  · rintro ⟨d, hd, allowed, hallowed, _, ⟨hlower, rfl⟩, _, ⟨hupper, rfl⟩, atomic, hatomic, hattr⟩
    cases hattr
    exact ⟨hlower, hupper, d, hd, allowed, hallowed, atomic, hatomic, rfl⟩
  · rintro ⟨hlower, hupper, d, hd, allowed, hallowed, atomic, hatomic, rfl⟩
    exact ⟨d, hd, allowed, hallowed, _, ⟨hlower, rfl⟩, _, ⟨hupper, rfl⟩, atomic, hatomic, rfl⟩

theorem attributeDef_eq_ok {py : PyLibs F} {args : AttrArgs α} {con : Constraint α}
    {attr : AttributeDef F} :
    kind.attributeDef py args con = .ok attr ↔
      kind.sanityChecks args con = .ok () ∧ kind.createPb py args con = .ok attr := by
  simp only [attributeDef, bind_eq_ok]
  constructor
  · rintro ⟨_, hchecks, hattr⟩
    exact ⟨hchecks, hattr⟩
  · rintro ⟨hchecks, hattr⟩
    exact ⟨(), hchecks, hattr⟩

theorem stored_of_attributeDef {py : PyLibs F} {args : AttrArgs α} {con : Constraint α}
    {attr : AttributeDef F} (h : kind.attributeDef py args con = .ok attr) :
    kind.Stored py args con attr := by
  obtain ⟨_, hpb⟩ := kind.attributeDef_eq_ok.mp h
  obtain ⟨hlower, hupper, d, hd, allowed, hallowed, atomic, hatomic, rfl⟩ :=
    kind.createPb_eq_ok.mp hpb
  obtain ⟨min, max, rfl⟩ := storeListLimits_eq_ok hatomic
  exact ⟨rfl, rfl, rfl, rfl, hd, hallowed, ⟨hlower, rfl⟩, ⟨hupper, rfl⟩⟩

end ScalarKind

def floatKind (py : PyLibs F) : ScalarKind F F where
  oneType := .float
  listType := .floats
  iterate _ := .error .typeError
  falsy x := py.eq x py.zero
  eq := py.eq
  lt := py.lt
  close := py.isClose
  text := py.reprFloat
  repr := py.reprFloat
  boundLabel _ := "default_value "
  set x value := .ok { value with f := py.toSingle x }
  extend xs value := .ok { value with fs := value.fs ++ xs.map py.toSingle }

def intKind (F : Type) : ScalarKind F Int where
  oneType := .int
  listType := .ints
  iterate _ := .error .typeError
  falsy x := x == 0
  eq x y := x == y
  lt x y := x < y
  close x y := x == y
  text := toString
  repr := toString
  boundLabel name := "attr " ++ name ++ " default_value "
  set x value := do
    let x ← toInt64 x
    return { value with i64 := x }
  extend xs value := do
    let xs ← xs.mapM toInt64
    return { value with i64s := value.i64s ++ xs }

/-- Texts iterate over their characters, and are never given bounds. -/
def strKind (py : PyLibs F) : ScalarKind F String where
  oneType := .string
  listType := .strings
  iterate x := .ok (x.toList.map String.singleton)
  falsy x := x == ""
  eq x y := x == y
  lt x y := x < y
  close x y := x == y
  text := id
  repr := py.repr
  boundLabel _ := ""
  set x value := .ok { value with s := x }
  extend xs value := .ok { value with ss := value.ss ++ xs }

def boolKind (F : Type) : ScalarKind F Bool where
  oneType := .bool
  listType := .bools
  iterate _ := .error .typeError
  falsy x := !x
  eq x y := x == y
  lt x y := !x && y
  close x y := x == y
  text := boolText
  repr := boolText
  boundLabel _ := ""
  set x value := .ok { value with b := x }
  extend xs value := .ok { value with bs := value.bs ++ xs }

/-! ## Components -/

structure Component (F : Type) where
  name : String
  domain : String
  version : String
  desc : String
  cached : Option (ComponentDef F) := none
  attrDecls : List (AttributeDef F) := []
  inputDecls : List (IoDef F) := []
  outputDecls : List (IoDef F) := []
  argnames : List String := []

inductive IoType where
  | input
  | output
deriving DecidableEq

structure TableColParam where
  name : String
  desc : String
  colMinCntInclusive : Option Int := none
  colMaxCntInclusive : Option Int := none

structure IoArgs where
  ioType : IoType
  name : String
  desc : String
  types : List String
  colParams : Option (List TableColParam) := none

/-- The values of `DistDataType`. -/
def distDataTypes : List String :=
  ["sf.table.vertical_table", "sf.table.individual", "sf.model.ss_sgd", "sf.model.sgb",
    "sf.rule.woe_binning", "sf.model.ss_xgb", "sf.report"]

def checkIoDef (ioDef : IoDef F) : Except CompError Unit :=
  ioDef.types.forM fun t =>
    if t ∈ distDataTypes then .ok ()
    else .error (.valueError
      ("IoDef " ++ ioDef.name ++ ": " ++ t ++ " is not a supported DistData types"))

def tableAttrDef (py : PyLibs F) (colParam : TableColParam) :
    Except CompError (TableAttrDef F) := do
  let min ← toInt64OrZero colParam.colMinCntInclusive
  let max ← toInt64OrZero colParam.colMaxCntInclusive
  return {
    name := colParam.name
    desc := py.cleanText colParam.desc true
    colMinCntInclusive := min
    colMaxCntInclusive := max }

namespace Component

variable (py : PyLibs F)

def new (name domain version desc : String) : Component F where
  name := name
  domain := domain
  version := version
  desc := py.cleanText desc false

def append (c : Component F) (attr : AttributeDef F) : Component F :=
  { c with attrDecls := c.attrDecls ++ [attr] }

def floatAttr (c : Component F) (args : AttrArgs F) (con : Constraint F) :
    Except CompError (Component F) :=
  c.append <$> (floatKind py).attributeDef py args con

def intAttr (c : Component F) (args : AttrArgs Int) (con : Constraint Int) :
    Except CompError (Component F) :=
  c.append <$> (intKind F).attributeDef py args con

def strAttr (c : Component F) (args : AttrArgs String) (allowedValues : Option (List String)) :
    Except CompError (Component F) :=
  c.append <$> (strKind py).attributeDef py args { allowedValues := allowedValues }

def boolAttr (c : Component F) (args : AttrArgs Bool) : Except CompError (Component F) :=
  c.append <$> (boolKind F).attributeDef py args {}

def io (c : Component F) (args : IoArgs) : Except CompError (Component F) := do
  checkReservedWords args.name
  let attrs ← (args.colParams.getD []).mapM (tableAttrDef py)
  let ioDef : IoDef F :=
    { name := args.name, desc := py.cleanText args.desc true, types := args.types, attrs := attrs }
  checkIoDef ioDef
  match args.ioType with
  | .input => return { c with inputDecls := c.inputDecls ++ [ioDef] }
  | .output => return { c with outputDecls := c.outputDecls ++ [ioDef] }

/-! ## The definition -/

/-- A name that `definition` adds to the names it has seen, with those it adds beside it. -/
structure NameDecl where
  label : String
  name : String
  derived : List String := []

def nameDecls (c : Component F) : List NameDecl :=
  c.attrDecls.map (fun a => { label := "attr", name := a.name }) ++
    c.inputDecls.map (fun io =>
      { label := "input", name := io.name,
        derived := io.attrs.map fun inputAttr => "_".intercalate [io.name, inputAttr.name] }) ++
    c.outputDecls.map fun io => { label := "output", name := io.name }

/-- The names seen so far stay, also those of a run that ends at a duplicate. -/
def addNames : List NameDecl → List String → Except CompError Unit × List String
  | [], argnames => (.ok (), argnames)
  | d :: decls, argnames =>
    if d.name ∈ argnames then
      (.error (.compDeclError (d.label ++ " " ++ d.name ++ " is duplicate.")), argnames)
    else addNames decls (d.derived ++ d.name :: argnames)

def compDef (c : Component F) : ComponentDef F where
  domain := c.domain
  name := c.name
  desc := c.desc
  version := c.version
  attrs := c.attrDecls
  inputs := c.inputDecls
  outputs := c.outputDecls

def definition (c : Component F) : Except CompError (ComponentDef F) × Component F :=
  match c.cached with
  | some d => (.ok d, c)
  | none =>
    match addNames c.nameDecls c.argnames with
    | (.ok (), argnames) =>
      (.ok c.compDef, { c with cached := some c.compDef, argnames := argnames })
    | (.error e, argnames) => (.error e, { c with argnames := argnames })

end Component

/-! ## Sequences of calls -/

inductive Call (F : Type) where
  | floatAttr (args : AttrArgs F) (con : Constraint F)
  | intAttr (args : AttrArgs Int) (con : Constraint Int)
  | strAttr (args : AttrArgs String) (allowedValues : Option (List String))
  | boolAttr (args : AttrArgs Bool)
  | io (args : IoArgs)
  | definition

/-- The component after a declaration; one that fails declares nothing. -/
def orUnchanged (result : Except CompError (Component F)) (c : Component F) : Component F :=
  match result with
  | .ok c' => c'
  | .error _ => c

def Call.run (py : PyLibs F) (c : Component F) : Call F → Component F
  | .floatAttr args con => orUnchanged (c.floatAttr py args con) c
  | .intAttr args con => orUnchanged (c.intAttr py args con) c
  | .strAttr args allowedValues => orUnchanged (c.strAttr py args allowedValues) c
  | .boolAttr args => orUnchanged (c.boolAttr py args) c
  | .io args => orUnchanged (c.io py args) c
  | .definition => c.definition.2

/-- The components that calls in any order lead to. -/
inductive Component.Reachable (py : PyLibs F) : Component F → Prop where
  | new (name domain version desc : String) :
    Reachable py (Component.new py name domain version desc)
  | call {c : Component F} (call : Call F) : Reachable py c → Reachable py (call.run py c)

/-! ## Names -/

/-- The attributes of a definition have no prefixes, and different names. -/
structure ComponentDef.WellNamed (d : ComponentDef F) : Prop where
  prefixes : ∀ attr ∈ d.attrs, attr.prefixes = []
  nodup : (d.attrs.map AttributeDef.name).Nodup

theorem AttributeDef.fullName_eq {attr : AttributeDef F} (h : attr.prefixes = []) :
    attr.fullName = attr.name := by
  rw [AttributeDef.fullName, h]
  rfl

theorem ComponentDef.WellNamed.fullName_nodup {d : ComponentDef F} (h : d.WellNamed) :
    (d.attrs.map AttributeDef.fullName).Nodup := by
  have hnames : d.attrs.map AttributeDef.fullName = d.attrs.map AttributeDef.name :=
    List.map_congr_left fun attr hattr => AttributeDef.fullName_eq (h.prefixes attr hattr)
  rw [hnames]
  exact h.nodup

namespace Component

/-- No name is that of an earlier declaration, or one that was added beside it. -/
def Distinct (decls : List NameDecl) : Prop :=
  decls.Pairwise fun d e => e.name ≠ d.name ∧ e.name ∉ d.derived

theorem addNames_ok_iff {decls : List NameDecl} {argnames : List String} :
    (∃ argnames', addNames decls argnames = (.ok (), argnames')) ↔
      Distinct decls ∧ ∀ d ∈ decls, d.name ∉ argnames := by
  induction decls generalizing argnames with
  | nil => simp [addNames, Distinct]
  | cons d decls ih =>
    simp only [addNames, Distinct, List.pairwise_cons, List.forall_mem_cons]
    by_cases hd : d.name ∈ argnames
    · simp [hd]
    · simp only [if_neg hd, ih, List.mem_append, List.mem_cons, not_or]
      rw [and_iff_right hd]
      constructor
      · rintro ⟨hdistinct, hfresh⟩
        exact ⟨⟨fun e he => ⟨(hfresh e he).2.1, (hfresh e he).1⟩, hdistinct⟩,
          fun e he => (hfresh e he).2.2⟩
      · rintro ⟨⟨happart, hdistinct⟩, hfresh⟩
        exact ⟨hdistinct, fun e he => ⟨(happart e he).2, (happart e he).1, hfresh e he⟩⟩

theorem Distinct.nodup {decls : List NameDecl} (h : Distinct decls) :
    (decls.map NameDecl.name).Nodup := by
  rw [List.Nodup, List.pairwise_map]
  exact h.imp fun hne => hne.1.symm

/-- What the declarations so far, and the definition kept from an earlier call, have. -/
structure WellNamed (c : Component F) : Prop where
  prefixes : ∀ attr ∈ c.attrDecls, attr.prefixes = []
  cached : ∀ d, c.cached = some d → d.WellNamed

theorem compDef_wellNamed {c : Component F} (h : c.WellNamed) {argnames : List String}
    (hnames : addNames c.nameDecls c.argnames = (.ok (), argnames)) : c.compDef.WellNamed := by
  refine ⟨h.prefixes, ?_⟩
  have hnodup := (addNames_ok_iff.mp ⟨_, hnames⟩).1.nodup
  simp only [nameDecls, List.map_append, List.map_map] at hnodup
  exact (List.nodup_append.mp (List.nodup_append.mp hnodup).1).1

theorem definition_wellNamed {c : Component F} (h : c.WellNamed) :
    c.definition.2.WellNamed ∧ ∀ d, c.definition.1 = .ok d → d.WellNamed := by
  unfold definition
  split
  next d hcached =>
    refine ⟨h, fun d' hd' => ?_⟩
    cases hd'
    exact h.cached d hcached
  next =>
    split
    next argnames hnames =>
      have hdef := compDef_wellNamed h hnames
      refine ⟨⟨h.prefixes, fun d hd => ?_⟩, fun d hd => ?_⟩
      · cases hd
        exact hdef
      · cases hd
        exact hdef
    next => exact ⟨⟨h.prefixes, h.cached⟩, fun d hd => by cases hd⟩

theorem append_wellNamed {c : Component F} (h : c.WellNamed) {attr : AttributeDef F}
    (hattr : attr.prefixes = []) : (c.append attr).WellNamed := by
  refine ⟨fun b hb => ?_, h.cached⟩
  rcases List.mem_append.mp hb with hb | hb
  · exact h.prefixes b hb
  · rw [List.mem_singleton.mp hb]
    exact hattr

theorem attr_wellNamed {c : Component F} (h : c.WellNamed) (py : PyLibs F)
    (kind : ScalarKind F α) (args : AttrArgs α) (con : Constraint α) :
    (orUnchanged (c.append <$> kind.attributeDef py args con) c).WellNamed := by
  cases hattr : kind.attributeDef py args con with
  | error e => exact h
  | ok attr => exact append_wellNamed h (kind.stored_of_attributeDef hattr).prefixes

theorem io_wellNamed {c : Component F} (h : c.WellNamed) (py : PyLibs F) (args : IoArgs) :
    (orUnchanged (c.io py args) c).WellNamed := by
  cases hio : c.io py args with
  | error e => exact h
  | ok c' =>
    simp only [io, bind_eq_ok] at hio
    obtain ⟨_, _, attrs, _, _, _, hc'⟩ := hio
    cases htype : args.ioType <;> simp only [htype] at hc' <;> cases hc' <;>
      exact ⟨h.prefixes, h.cached⟩

theorem Reachable.wellNamed {py : PyLibs F} {c : Component F} (h : Reachable py c) :
    c.WellNamed := by
  induction h with
  | new => exact ⟨fun _ hattr => absurd hattr List.not_mem_nil, fun _ hd => by cases hd⟩
  | call call _ ih =>
    cases call with
    | floatAttr args con => exact attr_wellNamed ih py (floatKind py) args con
    | intAttr args con => exact attr_wellNamed ih py (intKind F) args con
    | strAttr args allowedValues => exact attr_wellNamed ih py (strKind py) args _
    | boolAttr args => exact attr_wellNamed ih py (boolKind F) args {}
    | io args => exact io_wellNamed ih py args
    | definition => exact (definition_wellNamed ih).1

end Component

end TrustFlow.Componentize
