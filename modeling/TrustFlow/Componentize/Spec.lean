import TrustFlow.Data.Dict
import TrustFlow.Exception

/-! # The messages of a component

A component is described by a `ComponentDef` and run with a `NodeEvalParam`.  Both are
protobuf messages: a field that is not set has the default value of its type, an integer
field takes only 64-bit values, and assigning to a field that the message does not have is
an error.  Floats, and what the libraries do with texts, are parameters. -/

namespace TrustFlow.Componentize

/-- The exceptions of the component code, of protobuf and of the interpreter. -/
inductive CompError where
  | compDeclError (msg : String)
  | evalParamError (msg : String)
  | valueError (msg : String)
  | attributeError (field : String)
  | typeError
deriving DecidableEq

/-- What the code takes from Python and its libraries: `clean_text`, `repr` of texts and
    floats, the comparisons of floats, and the rounding to single precision. -/
structure PyLibs (F : Type) where
  cleanText : String → Bool → String
  repr : String → String
  reprFloat : F → String
  zero : F
  eq : F → F → Bool
  lt : F → F → Bool
  isClose : F → F → Bool
  toSingle : F → F

/-- `str` of a list, from the `repr` of its items. -/
def listText (items : List String) : String := "[" ++ ", ".intercalate items ++ "]"

def boolText (b : Bool) : String := if b then "True" else "False"

/-! ## Attributes -/

inductive AttrType where
  | unspecified
  | float
  | int
  | string
  | bool
  | floats
  | ints
  | strings
  | bools
  | other (number : Nat)
deriving DecidableEq

structure Attribute (F : Type) where
  f : F
  i64 : Int64 := 0
  s : String := ""
  b : Bool := false
  fs : List F := []
  i64s : List Int64 := []
  ss : List String := []
  bs : List Bool := []
  isNa : Bool := false

def Attribute.new {F : Type} (py : PyLibs F) : Attribute F := { f := py.zero }

structure AtomicAttrDesc (F : Type) where
  listMinLengthInclusive : Int64 := 0
  listMaxLengthInclusive : Int64 := 0
  isOptional : Bool := false
  defaultValue : Attribute F
  allowedValues : Attribute F
  lowerBoundEnabled : Bool := false
  lowerBound : Attribute F
  lowerBoundInclusive : Bool := false
  upperBoundEnabled : Bool := false
  upperBound : Attribute F
  upperBoundInclusive : Bool := false

def AtomicAttrDesc.new {F : Type} (py : PyLibs F) : AtomicAttrDesc F where
  defaultValue := .new py
  allowedValues := .new py
  lowerBound := .new py
  upperBound := .new py

structure AttributeDef (F : Type) where
  prefixes : List String := []
  name : String
  desc : String
  type : AttrType
  atomic : AtomicAttrDesc F

/-- `"/".join(list(attr.prefixes) + [attr.name])`. -/
def AttributeDef.fullName {F : Type} (attr : AttributeDef F) : String :=
  "/".intercalate (attr.prefixes ++ [attr.name])

/-! ## Components and their parameters -/

structure TableAttrDef (F : Type) where
  name : String
  desc : String
  colMinCntInclusive : Int64 := 0
  colMaxCntInclusive : Int64 := 0
  attrs : List (AttributeDef F) := []

structure IoDef (F : Type) where
  name : String
  desc : String
  types : List String
  attrs : List (TableAttrDef F) := []

structure ComponentDef (F : Type) where
  domain : String
  name : String
  desc : String
  version : String
  attrs : List (AttributeDef F)
  inputs : List (IoDef F)
  outputs : List (IoDef F)

structure DistData where
  name : String
  type : String
deriving DecidableEq

structure NodeEvalParam (F : Type) where
  domain : String
  name : String
  version : String
  attrPaths : List String
  attrs : List (Attribute F)
  inputs : List DistData
  outputUris : List String

/-! ## Assigning to fields -/

/-- An integer assigned to a field of type int64. -/
def toInt64 (x : Int) : Except CompError Int64 :=
  if -2 ^ 63 ≤ x ∧ x < 2 ^ 63 then .ok (Int64.ofInt x)
  else .error (.valueError ("Value out of range: " ++ toString x))

/-- An integer given for an int64 field, or None to leave the field as it is. -/
def toInt64OrZero : Option Int → Except CompError Int64
  | some x => toInt64 x
  | none => .ok 0

/-- `setattr(atomic, field, value)` for a boolean value. -/
def AtomicAttrDesc.setBool {F : Type} (atomic : AtomicAttrDesc F) (field : String)
    (value : Bool) : Except CompError (AtomicAttrDesc F) :=
  match field with
  | "is_optional" => .ok { atomic with isOptional := value }
  | "lower_bound_enabled" => .ok { atomic with lowerBoundEnabled := value }
  | "lower_bound_inclusive" => .ok { atomic with lowerBoundInclusive := value }
  | "upper_bound_enabled" => .ok { atomic with upperBoundEnabled := value }
  | "upper_bound_inclusive" => .ok { atomic with upperBoundInclusive := value }
  | _ => .error (.attributeError field)

theorem toInt64_eq_ok {x : Int} {y : Int64} (h : toInt64 x = .ok y) : y.toInt = x := by
  unfold toInt64 at h
  split at h
  next hx =>
    cases h
    exact Int64.toInt_ofInt_of_le hx.1 hx.2
  next => cases h

theorem exists_toInt64_iff {x : Int} :
    (∃ y, toInt64 x = .ok y) ↔ -2 ^ 63 ≤ x ∧ x < 2 ^ 63 := by
  unfold toInt64
  split <;> simp_all

end TrustFlow.Componentize
