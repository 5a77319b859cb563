import Mathlib.Data.Nat.Digits.Defs
import TrustFlow.PyValue

/-! # The JSON module of Python

`json.dumps`, which writes ASCII, with an indentation or without, and `json.loads`.  A code
point outside of the Basic Multilingual Plane is written as the escapes of a pair of surrogates,
and the escapes of a pair are read as one code point. -/

namespace TrustFlow

/-- A float is kept as the text that it is written with. -/
inductive JsonScalar where
  | bool (b : Bool)
  | int (n : Int)
  | float (text : PyStr)
deriving DecidableEq

abbrev JsonValue (γ : Type) := PyValue γ JsonScalar

namespace PyJson

variable {γ : Type}

def quote : CodePoint := codePoint 34

def backslash : CodePoint := codePoint 92

def comma : CodePoint := codePoint 44

def colon : CodePoint := codePoint 58

def minus : CodePoint := codePoint 45

/-! ## Writing -/

def hexDigit (n : Nat) : CodePoint :=
  codePoint (if n % 16 < 10 then 48 + n % 16 else 87 + n % 16)

def unicodeEscape (n : Nat) : PyStr :=
  [backslash, ch 'u', hexDigit (n / 4096), hexDigit (n / 256), hexDigit (n / 16), hexDigit n]

/-- The code points with an escape of one letter. -/
def shortEscapes : List (CodePoint × CodePoint) :=
  [(quote, quote), (backslash, backslash), (codePoint 8, ch 'b'),
    (codePoint 12, ch 'f'), (codePoint 10, ch 'n'), (codePoint 13, ch 'r'), (codePoint 9, ch 't')]

def highOf (c : CodePoint) : Nat := 0xD800 + (c.val - 0x10000) / 0x400

def lowOf (c : CodePoint) : Nat := 0xDC00 + (c.val - 0x10000) % 0x400

def escapeChar (c : CodePoint) : PyStr :=
  match shortEscapes.find? fun e => e.1 = c with
  | some e => [backslash, e.2]
  | none =>
    if 0x20 ≤ c.val ∧ c.val ≤ 0x7E then [c]
    else if c.val < 0x10000 then unicodeEscape c.val
    else unicodeEscape (highOf c) ++ unicodeEscape (lowOf c)

def writeStr (s : PyStr) : PyStr := quote :: (s.flatMap escapeChar ++ [quote])

def writeNat (n : Nat) : PyStr :=
  if n = 0 then [codePoint 48] else (Nat.digits 10 n).reverse.map fun d => codePoint (48 + d)

def writeInt (n : Int) : PyStr :=
  if n < 0 then minus :: writeNat n.natAbs else writeNat n.natAbs

def writeScalar : JsonScalar → PyStr
  | .bool true => py "true"
  | .bool false => py "false"
  | .int n => writeInt n
  | .float text => text

def isWs (c : CodePoint) : Bool := c.val = 32 || c.val = 9 || c.val = 10 || c.val = 13

/-- What is written between the parts of a list or a dictionary, at each depth. -/
structure Layout where
  newline : Nat → PyStr
  afterComma : Nat → PyStr
  afterColon : PyStr
  newline_ws : ∀ level, (newline level).all isWs = true
  afterComma_ws : ∀ level, (afterComma level).all isWs = true
  afterColon_ws : afterColon.all isWs = true

def indentation (indent level : Nat) : PyStr :=
  codePoint 10 :: List.replicate (indent * level) (codePoint 32)

theorem indentation_ws (indent level : Nat) : (indentation indent level).all isWs = true := by
  simp only [indentation, List.all_cons, List.all_replicate]
  split <;> decide

theorem nil_ws (_ : Nat) : ([] : PyStr).all isWs = true := rfl

theorem blank_ws : [codePoint 32].all isWs = true := by decide

/-- The separators that `json.dumps` takes for an indentation. -/
def Layout.ofIndent : Option Nat → Layout
  | none =>
    ⟨fun _ => [], fun _ => [codePoint 32], [codePoint 32], nil_ws, fun _ => blank_ws, blank_ws⟩
  | some indent =>
    ⟨indentation indent, indentation indent, [codePoint 32], indentation_ws indent,
      indentation_ws indent, blank_ws⟩

/-- Without any blanks. -/
def Layout.compact : Layout := ⟨fun _ => [], fun _ => [], [], nil_ws, nil_ws, nil_ws 0⟩

/-- The parts of a list or a dictionary between its brackets. -/
def enclose (lay : Layout) (level : Nat) (open' close : CodePoint) : List PyStr → PyStr
  | [] => [open', close]
  | part :: parts =>
    open' :: (lay.newline (level + 1) ++ part ++
      parts.flatMap (fun part => comma :: (lay.afterComma (level + 1) ++ part)) ++
      lay.newline level ++ [close])

mutual

def write (lay : Layout) (level : Nat) : JsonValue γ → PyStr
  | .none => py "null"
  | .scalar x => writeScalar x
  | .str s => writeStr s
  | .list items =>
    enclose lay level (codePoint 91) (codePoint 93) (writeItems lay (level + 1) items)
  | .dict items =>
    enclose lay level (codePoint 123) (codePoint 125) (writeMembers lay (level + 1) items)
  | .object _ _ => []

def writeItems (lay : Layout) (level : Nat) : List (JsonValue γ) → List PyStr
  | [] => []
  | v :: items => write lay level v :: writeItems lay level items

def writeMembers (lay : Layout) (level : Nat) : List (PyStr × JsonValue γ) → List PyStr
  | [] => []
  | (key, v) :: items =>
    (writeStr key ++ colon :: (lay.afterColon ++ write lay level v)) ::
      writeMembers lay level items

end

mutual

/-- There is no instance of a class in the value. -/
def serializable : JsonValue γ → Bool
  | .none | .scalar _ | .str _ => true
  | .list items => serializableItems items
  | .dict items => serializableMembers items
  | .object _ _ => false

def serializableItems : List (JsonValue γ) → Bool
  | [] => true
  | v :: items => serializable v && serializableItems items

def serializableMembers : List (PyStr × JsonValue γ) → Bool
  | [] => true
  | (_, v) :: items => serializable v && serializableMembers items

end

def dumps (indent : Option Nat) (v : JsonValue γ) : Except PyError PyStr :=
  if serializable v then .ok (write (.ofIndent indent) 0 v) else .error .typeError

/-! ## Reading -/

/-- What was read, and the rest of the text. -/
abbrev Scanned (α : Type) := α × PyStr

def skipWs (text : PyStr) : PyStr := text.dropWhile isWs

def expect (c : CodePoint) : PyStr → Except PyError PyStr
  | [] => .error .jsonDecodeError
  | d :: rest => if d = c then .ok rest else .error .jsonDecodeError

def hexVal? (c : CodePoint) : Option Nat :=
  if 48 ≤ c.val ∧ c.val ≤ 57 then some (c.val - 48)
  else if 97 ≤ c.val ∧ c.val ≤ 102 then some (c.val - 87)
  else if 65 ≤ c.val ∧ c.val ≤ 70 then some (c.val - 55)
  else none

def readHex4 : PyStr → Option (CodePoint × PyStr)
  | a :: b :: c :: d :: rest => do
    let a ← hexVal? a
    let b ← hexVal? b
    let c ← hexVal? c
    let d ← hexVal? d
    return (codePoint (4096 * a + 256 * b + 16 * c + d), rest)
  | _ => none

/-- The escape of a low surrogate. -/
def readLow : PyStr → Option (CodePoint × PyStr)
  | b :: u :: rest =>
    if b = backslash ∧ u = ch 'u' then
      match readHex4 rest with
      | some (low, rest) => if low.isLow then some (low, rest) else none
      | none => none
    else none
  | _ => none

/-- After a high surrogate the escape of a low one belongs to it. -/
def joinNext (high : CodePoint) (rest : PyStr) : CodePoint × PyStr :=
  match readLow rest with
  | some (low, rest) => (joinPair high low, rest)
  | none => (high, rest)

/-- What follows a backslash. -/
def readEscape : PyStr → Option (CodePoint × PyStr)
  | [] => none
  | e :: rest =>
    if e = ch 'u' then
      match readHex4 rest with
      | some (c, rest) => some (if c.isHigh then joinNext c rest else (c, rest))
      | none => none
    else
      ((shortEscapes ++ [(codePoint 47, codePoint 47)]).find? fun x => x.2 = e).map
        fun x => (x.1, rest)

/-- A text after its opening quote.  Each step takes a character, so the length of the text is
    fuel enough. -/
def scanString : Nat → PyStr → Except PyError (Scanned PyStr)
  | 0, _ | _, [] => .error .jsonDecodeError
  | fuel + 1, c :: rest =>
    if c = quote then .ok ([], rest)
    else if c = backslash then
      match readEscape rest with
      | some (c, rest) => (scanString fuel rest).map (Prod.map (c :: ·) id)
      | none => .error .jsonDecodeError
    else if c.val < 0x20 then .error .jsonDecodeError
    else (scanString fuel rest).map (Prod.map (c :: ·) id)

def isDigit (c : CodePoint) : Bool := 48 ≤ c.val && c.val ≤ 57

def digitsVal (digits : PyStr) : Nat := digits.foldl (fun n d => 10 * n + (d.val - 48)) 0

def splitMinus : PyStr → Bool × PyStr
  | [] => (false, [])
  | c :: text => if c = minus then (true, text) else (false, c :: text)

/-- A zero, or digits that do not start with one. -/
def scanDigits : PyStr → Option (PyStr × PyStr)
  | [] => none
  | c :: rest =>
    if c.val = 48 then some ([c], rest)
    else if isDigit c then some (c :: rest.takeWhile isDigit, rest.dropWhile isDigit)
    else none

def someDigits (text : PyStr) : Bool := (text.takeWhile isDigit) ≠ []

def scanFraction : PyStr → PyStr × PyStr
  | [] => ([], [])
  | c :: rest =>
    if c.val = 46 ∧ someDigits rest then (c :: rest.takeWhile isDigit, rest.dropWhile isDigit)
    else ([], c :: rest)

def splitSign : PyStr → PyStr × PyStr
  | [] => ([], [])
  | c :: text => if c.val = 43 ∨ c = minus then ([c], text) else ([], c :: text)

def scanExponent : PyStr → PyStr × PyStr
  | [] => ([], [])
  | c :: rest =>
    let (sign, digits) := splitSign rest
    if (c.val = 69 ∨ c.val = 101) ∧ someDigits digits then
      (c :: (sign ++ digits.takeWhile isDigit), digits.dropWhile isDigit)
    else ([], c :: rest)

def scanNumber (text : PyStr) : Except PyError (Scanned JsonScalar) :=
  let (negative, unsigned) := splitMinus text
  match scanDigits unsigned with
  | none => .error .jsonDecodeError
  | some (digits, rest) =>
    let (fraction, rest) := scanFraction rest
    let (exponent, rest) := scanExponent rest
    let sign := if negative then [minus] else []
    if fraction = [] ∧ exponent = [] then
      .ok (.int (if negative then -digitsVal digits else digitsVal digits), rest)
    else .ok (.float (sign ++ digits ++ fraction ++ exponent), rest)

def constants : List (PyStr × JsonValue γ) :=
  [(py "null", .none), (py "true", .scalar (.bool true)), (py "false", .scalar (.bool false)),
    (py "NaN", .scalar (.float (py "NaN"))), (py "Infinity", .scalar (.float (py "Infinity"))),
    (py "-Infinity", .scalar (.float (py "-Infinity")))]

def scanConstant (text : PyStr) : Option (JsonValue γ × PyStr) :=
  (constants.find? fun lit => lit.1.isPrefixOf text).map fun lit =>
    (lit.2, text.drop lit.1.length)

section Parts

variable {α : Type}

/-- One part after the other, up to the closing bracket; the fuel is for their number. -/
def scanParts (part : PyStr → Except PyError (Scanned α)) (close : CodePoint) :
    Nat → PyStr → Except PyError (Scanned (List α))
  | 0, _ => .error .jsonDecodeError
  | fuel + 1, text => do
    let (x, rest) ← part text
    match skipWs rest with
    | [] => .error .jsonDecodeError
    | c :: rest =>
      if c = close then .ok ([x], rest)
      else if c = comma then do
        let (xs, rest) ← scanParts part close fuel (skipWs rest)
        return (x :: xs, rest)
      else .error .jsonDecodeError

/-- What follows an opening bracket. -/
def scanEnclosed (part : PyStr → Except PyError (Scanned α)) (close : CodePoint) (text : PyStr) :
    Except PyError (Scanned (List α)) :=
  match skipWs text with
  | [] => .error .jsonDecodeError
  | c :: rest => if c = close then .ok ([], rest) else scanParts part close text.length (c :: rest)

def scanMember (value : PyStr → Except PyError (Scanned α)) (text : PyStr) :
    Except PyError (Scanned (PyStr × α)) := do
  let rest ← expect quote text
  let (key, rest) ← scanString rest.length rest
  let rest ← expect colon (skipWs rest)
  let (v, rest) ← value (skipWs rest)
  return ((key, v), rest)

end Parts

/-- A value that starts with the text; the fuel is for its depth. -/
def scanValue : Nat → PyStr → Except PyError (Scanned (JsonValue γ))
  | 0, _ | _, [] => .error .jsonDecodeError
  | depth + 1, c :: rest =>
    if c = quote then do
      let (s, rest) ← scanString rest.length rest
      return (.str s, rest)
    else if c.val = 91 then do
      let (items, rest) ← scanEnclosed (scanValue depth) (codePoint 93) rest
      return (.list items, rest)
    else if c.val = 123 then do
      let (items, rest) ← scanEnclosed (scanMember (scanValue depth)) (codePoint 125) rest
      return (.dict (items.foldl (fun d kv => Dict.set d kv.1 kv.2) []), rest)
    else
      match scanConstant (c :: rest) with
      | some (v, rest) => .ok (v, rest)
      | none => do
        let (x, rest) ← scanNumber (c :: rest)
        return (.scalar x, rest)

def loads (text : PyStr) : Except PyError (JsonValue γ) :=
  if text.head? = some (codePoint 0xFEFF) then .error .jsonDecodeError
  else do
    let (v, rest) ← scanValue text.length (skipWs text)
    if skipWs rest = [] then .ok v else .error .jsonDecodeError

end PyJson

end TrustFlow
