import TrustFlow.Componentize.Spec

/-! # Reading the parameters of a run

The reader checks the parameters of a run against the definition of the component.  It
keeps the attributes in one dictionary: first the messages that were given, by their
paths, and then the values of those that the definition declares, under their full names.
Reading a field of an entry that is a value already is an AttributeError. -/

namespace TrustFlow.Componentize

variable {F : Type}

inductive Value (F : Type) where
  | float (x : F)
  | int (x : Int64)
  | str (x : String)
  | bool (x : Bool)
  | floats (xs : List F)
  | ints (xs : List Int64)
  | strs (xs : List String)
  | bools (xs : List Bool)

/-- An entry of `_instance_attrs`. -/
inductive Slot (F : Type) where
  | message (attr : Attribute F)
  | value (v : Value F)

def Slot.field (slot : Slot F) (name : String) : Except CompError (Attribute F) :=
  match slot with
  | .message attr => .ok attr
  | .value _ => .error (.attributeError name)

/-! ## Checks -/

def checkAllowedValues (py : PyLibs F) (value : Slot F) (definition : AttributeDef F) :
    Except CompError Bool :=
  match definition.type with
  | .float =>
    if definition.atomic.allowedValues.fs.length = 0 then .ok true
    else do
      let value ← value.field "f"
      return definition.atomic.allowedValues.fs.any fun i => py.isClose i value.f
  | .int =>
    if definition.atomic.allowedValues.i64s.length = 0 then .ok true
    else do
      let value ← value.field "i64"
      return decide (value.i64 ∈ definition.atomic.allowedValues.i64s)
  | .string =>
    if definition.atomic.allowedValues.ss.length = 0 then .ok true
    else do
      let value ← value.field "s"
      return decide (value.s ∈ definition.atomic.allowedValues.ss)
  | _ => .ok true

def checkLowerBound (py : PyLibs F) (value : Slot F) (definition : AttributeDef F) :
    Except CompError Bool :=
  if !definition.atomic.lowerBoundEnabled then .ok true
  else
    match definition.type with
    | .float => do
      let value ← value.field "f"
      return py.lt definition.atomic.lowerBound.f value.f ||
        (definition.atomic.lowerBoundInclusive &&
          py.isClose value.f definition.atomic.lowerBound.f)
    | .int => do
      let value ← value.field "i64"
      return decide (definition.atomic.lowerBound.i64 < value.i64) ||
        (definition.atomic.lowerBoundInclusive &&
          value.i64 == definition.atomic.lowerBound.i64)
    | _ => .ok true

def checkUpperBound (py : PyLibs F) (value : Slot F) (definition : AttributeDef F) :
    Except CompError Bool :=
  if !definition.atomic.upperBoundEnabled then .ok true
  else
    match definition.type with
    | .float => do
      let value ← value.field "f"
      return py.lt value.f definition.atomic.upperBound.f ||
        (definition.atomic.upperBoundInclusive &&
          py.isClose value.f definition.atomic.upperBound.f)
    | .int => do
      let value ← value.field "i64"
      return decide (value.i64 < definition.atomic.upperBound.i64) ||
        (definition.atomic.upperBoundInclusive &&
          value.i64 == definition.atomic.upperBound.i64)
    | _ => .ok true

/-- A limit of 0 is not checked. -/
def checkTableAttrColCnt (value : Slot F) (definition : TableAttrDef F) :
    Except CompError Bool := do
  let value ← value.field "ss"
  let cnt : Int := value.ss.length
  if definition.colMinCntInclusive ≠ 0 ∧ cnt < definition.colMinCntInclusive.toInt then
    return false
  else if definition.colMaxCntInclusive ≠ 0 ∧ definition.colMaxCntInclusive.toInt < cnt then
    return false
  else return true

def getValue (value : Slot F) : AttrType → Except CompError (Value F)
  | .unspecified => .error (.evalParamError "Type of Attribute is undefined.")
  | .float => do return .float (← value.field "f").f
  | .int => do return .int (← value.field "i64").i64
  | .string => do return .str (← value.field "s").s
  | .bool => do return .bool (← value.field "b").b
  | .floats => do return .floats (← value.field "fs").fs
  | .ints => do return .ints (← value.field "i64s").i64s
  | .strings => do return .strs (← value.field "ss").ss
  | .bools => do return .bools (← value.field "bs").bs
  | .other number => .error (.evalParamError ("unsupported type: " ++ toString number ++ "."))

/-! ## The reader -/

def ensure (cond : Bool) (msg : String) : Except CompError Unit :=
  if cond then .ok () else .error (.evalParamError msg)

/-- The loop over the given paths and attributes; one that is not available is skipped. -/
def collectAttrs : List (String × Attribute F) → Dict String (Slot F) →
    Except CompError (Dict String (Slot F))
  | [], slots => .ok slots
  | (path, attr) :: given, slots =>
    if path ∈ Dict.keys slots then
      .error (.evalParamError ("attr " ++ path ++ " is duplicate in node def."))
    else collectAttrs given (if attr.isNa then slots else Dict.set slots path (.message attr))

def atomicTypes : List AttrType :=
  [.float, .floats, .int, .ints, .string, .strings, .bool, .bools]

/-- What was given for a declared attribute, or else its default value. -/
def givenOrDefault (slots : Dict String (Slot F)) (attr : AttributeDef F) :
    Except CompError (Slot F) :=
  match Dict.get? slots attr.fullName with
  | some slot => .ok slot
  | none =>
    if attr.atomic.isOptional then .ok (.message attr.atomic.defaultValue)
    else .error (.evalParamError ("attr " ++ attr.fullName ++ " is not optional and not set."))

/-- One turn of the loop over the attributes of the definition. -/
def readAttr (py : PyLibs F) (slots : Dict String (Slot F)) (attr : AttributeDef F) :
    Except CompError (Dict String (Slot F)) := do
  ensure (attr.type ∈ atomicTypes) "only support ATOMIC at this moment."
  let slot ← givenOrDefault slots attr
  let allowed ← checkAllowedValues py slot attr
  ensure allowed ("attr " ++ attr.fullName ++ ": check_allowed_values failed.")
  let above ← checkLowerBound py slot attr
  ensure above ("attr " ++ attr.fullName ++ ": check_lower_bound failed.")
  let below ← checkUpperBound py slot attr
  ensure below ("attr " ++ attr.fullName ++ ": check_upper_bound failed.")
  let value ← getValue slot attr.type
  return Dict.set slots attr.fullName (.value value)

def inputAttrName (input attr : String) : String := "/".intercalate ["input", input, attr]

/-- One turn of the loop over the attributes of an input. -/
def readInputAttr (py : PyLibs F) (input : String) (slots : Dict String (Slot F))
    (attr : TableAttrDef F) : Except CompError (Dict String (Slot F)) := do
  ensure attr.attrs.isEmpty "extra attribute is unsupported at this moment."
  let fullName := inputAttrName input attr.name
  let slot := (Dict.get? slots fullName).getD (.message (.new py))
  let within ← checkTableAttrColCnt slot attr
  ensure within ("input attr " ++ fullName ++ " check_table_attr_col_cnt fails.")
  let value ← getValue slot .strings
  return Dict.set slots fullName (.value value)

/-- One turn of the loop over the inputs. -/
def readInput (py : PyLibs F) (state : Dict String (Slot F) × Dict String DistData)
    (input : DistData × IoDef F) :
    Except CompError (Dict String (Slot F) × Dict String DistData) := do
  let (inputInstance, inputDef) := input
  ensure (inputDef.name ∉ Dict.keys state.2) ("input " ++ inputDef.name ++ " is duplicate.")
  ensure (inputDef.types.isEmpty || inputInstance.type ∈ inputDef.types)
    ("type of input " ++ inputDef.name ++ " is wrong, got " ++ inputInstance.type ++
      ", expect " ++ listText (inputDef.types.map py.repr))
  let slots ← inputDef.attrs.foldlM (readInputAttr py inputDef.name) state.1
  return (slots, Dict.set state.2 inputDef.name inputInstance)

/-- One turn of the loop over the outputs. -/
def readOutput (outputs : Dict String String) (output : String × IoDef F) :
    Except CompError (Dict String String) := do
  let (outputUri, outputDef) := output
  ensure (outputDef.name ∉ Dict.keys outputs) ("output " ++ outputDef.name ++ " is duplicate.")
  return Dict.set outputs outputDef.name outputUri

structure EvalParamReader (F : Type) where
  attrs : Dict String (Slot F)
  inputs : Dict String DistData
  outputs : Dict String String

namespace EvalParamReader

def mismatch (field given declared : String) : String :=
  field ++ " inst:'" ++ given ++ "' def:'" ++ declared ++ "'"

def checkHeader (inst : NodeEvalParam F) (definition : ComponentDef F) :
    Except CompError Unit := do
  ensure (inst.domain = definition.domain)
    (mismatch "domain" inst.domain definition.domain ++ "  does not match.")
  ensure (inst.name = definition.name)
    (mismatch "name" inst.name definition.name ++ " does not match.")
  ensure (inst.version = definition.version)
    (mismatch "version" inst.version definition.version ++ " does not match.")

/-- The inputs and outputs, read when the attributes are. -/
def readIo (py : PyLibs F) (inst : NodeEvalParam F) (definition : ComponentDef F)
    (slots : Dict String (Slot F)) : Except CompError (EvalParamReader F) := do
  ensure (inst.inputs.length = definition.inputs.length) "number of input does not match."
  let (slots, inputs) ← (inst.inputs.zip definition.inputs).foldlM (readInput py) (slots, [])
  ensure (inst.outputUris.length = definition.outputs.length) "number of output does not match."
  let outputs ← (inst.outputUris.zip definition.outputs).foldlM readOutput []
  return { attrs := slots, inputs := inputs, outputs := outputs }

/-- `EvalParamReader(instance, definition)`. -/
def new (py : PyLibs F) (inst : NodeEvalParam F) (definition : ComponentDef F) :
    Except CompError (EvalParamReader F) := do
  checkHeader inst definition
  let slots ← collectAttrs (inst.attrPaths.zip inst.attrs) []
  let slots ← definition.attrs.foldlM (readAttr py) slots
  readIo py inst definition slots

def getAttr (reader : EvalParamReader F) (name : String) : Except CompError (Slot F) :=
  match Dict.get? reader.attrs name with
  | some slot => .ok slot
  | none => .error (.evalParamError ("attr " ++ name ++ " does not exist."))

def getInput (reader : EvalParamReader F) (name : String) : Except CompError DistData :=
  match Dict.get? reader.inputs name with
  | some input => .ok input
  | none => .error (.evalParamError ("input " ++ name ++ " does not exist."))

def getInputAttrs (reader : EvalParamReader F) (inputName attrName : String) :
    Except CompError (Slot F) :=
  match Dict.get? reader.attrs (inputAttrName inputName attrName) with
  | some slot => .ok slot
  | none => .error (.evalParamError
    ("input attr " ++ inputAttrName inputName attrName ++ " does not exist."))

def getOutputUri (reader : EvalParamReader F) (name : String) : Except CompError String :=
  match Dict.get? reader.outputs name with
  | some uri => .ok uri
  | none => .error (.evalParamError ("output " ++ name ++ " does not exist."))

end EvalParamReader

/-! ## What a run does with one attribute -/

theorem ensure_eq_ok {cond : Bool} {msg : String} {u : Unit} :
    ensure cond msg = .ok u ↔ cond = true := by
  cases cond <;> simp [ensure]

/-- The three checks of an attribute. -/
def Passes (py : PyLibs F) (slot : Slot F) (attr : AttributeDef F) : Prop :=
  checkAllowedValues py slot attr = .ok true ∧ checkLowerBound py slot attr = .ok true ∧
    checkUpperBound py slot attr = .ok true

theorem readAttr_eq_ok {py : PyLibs F} {slots slots' : Dict String (Slot F)}
    {attr : AttributeDef F} :
    readAttr py slots attr = .ok slots' ↔ attr.type ∈ atomicTypes ∧
      ∃ slot, givenOrDefault slots attr = .ok slot ∧ Passes py slot attr ∧
        ∃ v, getValue slot attr.type = .ok v ∧
          slots' = Dict.set slots attr.fullName (.value v) := by
  simp only [readAttr, bind_eq_ok, ensure_eq_ok, exists_const, decide_eq_true_eq]
  constructor
  · rintro ⟨htype, slot, hslot, _, hallowed, rfl, _, habove, rfl, _, hbelow, rfl, v, hv, hset⟩
    cases hset
    exact ⟨htype, slot, hslot, ⟨hallowed, habove, hbelow⟩, v, hv, rfl⟩
  · rintro ⟨htype, slot, hslot, ⟨hallowed, habove, hbelow⟩, v, hv, rfl⟩
    exact ⟨htype, slot, hslot, true, hallowed, rfl, true, habove, rfl, true, hbelow, rfl, v, hv,
      rfl⟩

theorem readInputAttr_eq_ok {py : PyLibs F} {input : String}
    {slots slots' : Dict String (Slot F)} {attr : TableAttrDef F} :
    readInputAttr py input slots attr = .ok slots' ↔ attr.attrs = [] ∧
      ∃ value,
        (Dict.get? slots (inputAttrName input attr.name)).getD (.message (.new py)) =
          .message value ∧
        checkTableAttrColCnt (.message value) attr = .ok true ∧
        slots' = Dict.set slots (inputAttrName input attr.name) (.value (.strs value.ss)) := by
  simp only [readInputAttr, bind_eq_ok, ensure_eq_ok, exists_const, List.isEmpty_iff]
  refine and_congr_right fun _ => ?_
  cases hslot : (Dict.get? slots (inputAttrName input attr.name)).getD (.message (.new py)) with
  | message value =>
    constructor
    · rintro ⟨_, hwithin, rfl, v, hv, hset⟩
      cases hv
      cases hset
      exact ⟨value, rfl, hwithin, rfl⟩
    · rintro ⟨_, heq, hwithin, rfl⟩
      cases heq
      exact ⟨true, hwithin, rfl, _, rfl, rfl⟩
  | value v =>
    constructor
    · rintro ⟨_, hwithin, _⟩
      cases hwithin
    · rintro ⟨_, heq, _⟩
      cases heq

/-- Only a message has a value to read. -/
theorem exists_message_of_getValue {slot : Slot F} {type : AttrType} {v : Value F}
    (h : getValue slot type = .ok v) : ∃ attr, slot = .message attr := by
  cases slot with
  | message attr => exact ⟨attr, rfl⟩
  | value w => cases type <;> cases h

theorem readAttr_frame {py : PyLibs F} {slots slots' : Dict String (Slot F)}
    {attr : AttributeDef F} (h : readAttr py slots attr = .ok slots') {name : String}
    (hname : name ≠ attr.fullName) : Dict.get? slots' name = Dict.get? slots name := by
  obtain ⟨_, slot, _, _, v, _, rfl⟩ := readAttr_eq_ok.mp h
  rw [Dict.get?_set, if_neg hname]

/-- The entry is a value already.  It stays, since a second read of it would fail. -/
def HasValue (name : String) (v : Value F) (slots : Dict String (Slot F)) : Prop :=
  Dict.get? slots name = some (.value v)

theorem hasValue_set (name : String) (v : Value F) (slots : Dict String (Slot F)) :
    HasValue name v (Dict.set slots name (.value v)) := by
  rw [HasValue, Dict.get?_set, if_pos rfl]

theorem readAttr_keeps {py : PyLibs F} {slots slots' : Dict String (Slot F)}
    {attr : AttributeDef F} {name : String} {v : Value F}
    (h : readAttr py slots attr = .ok slots') (hv : HasValue name v slots) :
    HasValue name v slots' := by
  by_cases hname : name = attr.fullName
  · obtain ⟨_, slot, hslot, _, w, hw, _⟩ := readAttr_eq_ok.mp h
    obtain ⟨message, rfl⟩ := exists_message_of_getValue hw
    rw [givenOrDefault, ← hname, hv] at hslot
    cases hslot
  · rw [HasValue, readAttr_frame h hname, hv]

theorem readInputAttr_keeps {py : PyLibs F} {input : String}
    {slots slots' : Dict String (Slot F)} {attr : TableAttrDef F} {name : String} {v : Value F}
    (h : readInputAttr py input slots attr = .ok slots') (hv : HasValue name v slots) :
    HasValue name v slots' := by
  obtain ⟨_, value, hvalue, _, rfl⟩ := readInputAttr_eq_ok.mp h
  rw [HasValue, Dict.get?_set]
  split
  next hname =>
    rw [← hname, hv] at hvalue
    cases hvalue
  next => exact hv

theorem readInput_eq_ok {py : PyLibs F}
    {state state' : Dict String (Slot F) × Dict String DistData} {input : DistData × IoDef F} :
    readInput py state input = .ok state' ↔
      input.2.name ∉ Dict.keys state.2 ∧
      (input.2.types = [] ∨ input.1.type ∈ input.2.types) ∧
      ∃ slots, input.2.attrs.foldlM (readInputAttr py input.2.name) state.1 = .ok slots ∧
        state' = (slots, Dict.set state.2 input.2.name input.1) := by
  simp only [readInput, bind_eq_ok, ensure_eq_ok, exists_const, Bool.or_eq_true,
    List.isEmpty_iff, decide_eq_true_eq]
  constructor
  · rintro ⟨hname, htype, slots, hslots, hset⟩
    cases hset
    exact ⟨hname, htype, slots, hslots, rfl⟩
  · rintro ⟨hname, htype, slots, hslots, rfl⟩
    exact ⟨hname, htype, slots, hslots, rfl⟩

theorem readInput_keeps {py : PyLibs F}
    {state state' : Dict String (Slot F) × Dict String DistData} {input : DistData × IoDef F}
    {name : String} {v : Value F} (h : readInput py state input = .ok state')
    (hv : HasValue name v state.1) : HasValue name v state'.1 := by
  obtain ⟨_, _, slots, hslots, rfl⟩ := readInput_eq_ok.mp h
  exact foldlM_invariant (HasValue name v) readInputAttr_keeps hslots hv

namespace EvalParamReader

theorem new_eq_ok {py : PyLibs F} {inst : NodeEvalParam F} {d : ComponentDef F}
    {reader : EvalParamReader F} :
    new py inst d = .ok reader ↔ checkHeader inst d = .ok () ∧
      ∃ given, collectAttrs (inst.attrPaths.zip inst.attrs) [] = .ok given ∧
        ∃ slots, d.attrs.foldlM (readAttr py) given = .ok slots ∧
          readIo py inst d slots = .ok reader := by
  simp only [new, bind_eq_ok]
  constructor
  · rintro ⟨_, hheader, hrest⟩
    exact ⟨hheader, hrest⟩
  · rintro ⟨hheader, hrest⟩
    exact ⟨(), hheader, hrest⟩

theorem readIo_eq_ok {py : PyLibs F} {inst : NodeEvalParam F} {d : ComponentDef F}
    {slots : Dict String (Slot F)} {reader : EvalParamReader F} :
    readIo py inst d slots = .ok reader ↔ inst.inputs.length = d.inputs.length ∧
      ∃ state, (inst.inputs.zip d.inputs).foldlM (readInput py) (slots, []) = .ok state ∧
        inst.outputUris.length = d.outputs.length ∧
        ∃ outputs, (inst.outputUris.zip d.outputs).foldlM readOutput [] = .ok outputs ∧
          reader = ⟨state.1, state.2, outputs⟩ := by
  simp only [readIo, bind_eq_ok, ensure_eq_ok, exists_const, decide_eq_true_eq]
  constructor
  · rintro ⟨hinputs, state, hstate, houtputs, outputs, hread, hreader⟩
    cases hreader
    exact ⟨hinputs, state, hstate, houtputs, outputs, hread, rfl⟩
  · rintro ⟨hinputs, state, hstate, houtputs, outputs, hread, rfl⟩
    exact ⟨hinputs, state, hstate, houtputs, outputs, hread, rfl⟩

/-- What the reader answers for a declared attribute: the value of a message that passed the
    checks. -/
theorem getAttr_of_mem {py : PyLibs F} {inst : NodeEvalParam F} {d : ComponentDef F}
    {reader : EvalParamReader F} (h : new py inst d = .ok reader) {attr : AttributeDef F}
    (hattr : attr ∈ d.attrs) :
    ∃ message v, Passes py (.message message) attr ∧
      getValue (.message message) attr.type = .ok v ∧
      reader.getAttr attr.fullName = .ok (.value v) := by
  obtain ⟨_, given, _, slots, hslots, hio⟩ := new_eq_ok.mp h
  obtain ⟨_, state, hstate, _, outputs, _, rfl⟩ := readIo_eq_ok.mp hio
  obtain ⟨before, after, slots₁, slots₂, _, _, hturn, hafter⟩ := exists_turn_of_mem hslots hattr
  obtain ⟨_, slot, _, hpasses, v, hv, rfl⟩ := readAttr_eq_ok.mp hturn
  obtain ⟨message, rfl⟩ := exists_message_of_getValue hv
  refine ⟨message, v, hpasses, hv, ?_⟩
  -- The value is there after its own turn, and stays through the other turns and the inputs.
  have hattrs := foldlM_invariant (HasValue attr.fullName v) readAttr_keeps hafter
    (hasValue_set _ _ _)
  have hinputs : HasValue attr.fullName v state.1 :=
    foldlM_invariant (fun state => HasValue attr.fullName v state.1) readInput_keeps hstate hattrs
  rw [getAttr, hinputs]

/-- What the reader answers for an attribute of an input: the columns of a message whose
    number passed the check. -/
theorem getInputAttrs_of_mem {py : PyLibs F} {inst : NodeEvalParam F} {d : ComponentDef F}
    {reader : EvalParamReader F} (h : new py inst d = .ok reader) {io : IoDef F}
    (hio : io ∈ d.inputs) {attr : TableAttrDef F} (hattr : attr ∈ io.attrs) :
    ∃ message, checkTableAttrColCnt (.message message) attr = .ok true ∧
      reader.getInputAttrs io.name attr.name = .ok (.value (.strs message.ss)) := by
  obtain ⟨_, given, _, slots, _, hreadIo⟩ := new_eq_ok.mp h
  obtain ⟨hlen, state, hstate, _, outputs, _, rfl⟩ := readIo_eq_ok.mp hreadIo
  obtain ⟨input, hinput⟩ : ∃ input, (input, io) ∈ inst.inputs.zip d.inputs := by
    obtain ⟨i, hi, rfl⟩ := List.mem_iff_getElem.mp hio
    exact ⟨inst.inputs[i], List.mem_iff_getElem.mpr ⟨i, by simp; omega, by simp⟩⟩
  obtain ⟨_, _, state₁, state₂, _, _, hturn, hafter⟩ := exists_turn_of_mem hstate hinput
  obtain ⟨_, _, slots₂, hslots₂, rfl⟩ := readInput_eq_ok.mp hturn
  obtain ⟨_, _, slots₃, slots₄, _, _, hturn', hafter'⟩ := exists_turn_of_mem hslots₂ hattr
  obtain ⟨_, message, _, hwithin, rfl⟩ := readInputAttr_eq_ok.mp hturn'
  refine ⟨message, hwithin, ?_⟩
  have hattrs := foldlM_invariant (HasValue (inputAttrName io.name attr.name) _)
    readInputAttr_keeps hafter' (hasValue_set _ _ _)
  have hinputs : HasValue (inputAttrName io.name attr.name) (.strs message.ss) state.1 :=
    foldlM_invariant (fun state => HasValue (inputAttrName io.name attr.name) _ state.1)
      readInput_keeps hafter hattrs
  rw [getInputAttrs, hinputs]

end EvalParamReader

end TrustFlow.Componentize
