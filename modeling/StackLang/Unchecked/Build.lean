import StackLang.Number.Numeral
import StackLang.Unchecked
import StackLang.Value.Conversion

/-! Unchecked trees from JSON. Every object becomes a node. Its type and the names of its fields have
to fit; what the fields hold does not matter, but for the value of a number. -/

namespace StackLang.Unchecked

inductive BuildError where
  | noType
  | noValue
  | typeNotText (typeName : String)
  | unknownType (name : Text)
  | numberText (t : Text)
  | numberTooLarge
  | numberType (typeName : String)
  /-- A node of a family was given fields. -/
  | noFields (t : NodeType)
  | unexpected (t : NodeType) (key : Text)
  /-- A field has the name under which a node knows itself. -/
  | ownName (t : NodeType)
  | missing (t : NodeType) (keys : List String)

namespace BuildError

/-- The families of errors: a key that is not there, an unknown type, a type that does not fit,
a text that does not fit, a number that is too large. -/
inductive Family where
  | key | attribute | type | value | overflow
deriving DecidableEq

def family : BuildError → Family
  | noType | noValue => .key
  | unknownType _ => .attribute
  | numberText _ => .value
  | numberTooLarge => .overflow
  | typeNotText _ | numberType _ | noFields _ | unexpected .. | ownName _ | missing .. => .type

/-- Names in a row, with an `and` before the last one. -/
def listed : List String → String
  | [] => ""
  | [a] => a
  | [a, b] => a ++ " and " ++ b
  | names => ", ".intercalate names.dropLast ++ ", and " ++ names.getLastD ""

def message : BuildError → Text
  | noType => "'type'"
  | noValue => "'value'"
  | typeNotText typeName => "attribute name must be string, not '" ++ typeName ++ "'"
  | unknownType name => "module 'stax.ast' has no attribute '" ++ name ++ "'"
  | numberText t => "could not convert string to float: " ++ t.quoted
  | numberTooLarge => "int too large to convert to float"
  | numberType typeName =>
    "float() argument must be a string or a real number, not '" ++ typeName ++ "'"
  | noFields t => t.name ++ "() takes no arguments"
  | unexpected t key => t.name ++ ".__init__() got an unexpected keyword argument '" ++ key ++ "'"
  | ownName t => t.name ++ ".__init__() got multiple values for argument 'self'"
  | missing t keys =>
    t.name ++ ".__init__() missing " ++ toString keys.length ++ " required positional argument" ++
      (if keys.length = 1 then "" else "s") ++ ": " ++ listed (keys.map fun key => (Text.ofString key).quoted)

end BuildError

namespace NodeType

/-- A node from its fields in any order. A surplus field is complained about before a missing one.
Without a line it is on line 0. -/
def create (t : NodeType) (fields : List (Text × Part)) : Except BuildError Part :=
  let names := t.fieldNames.map Text.ofString
  match t.isFamily, fields.find? (!names.contains ·.1) with
  | true, none => .ok (.node t [])
  | true, some _ => .error (.noFields t)
  | false, some (key, _) => .error (if key = "self" then .ownName t else .unexpected t key)
  | false, none =>
    match t.required.filter fun key => (fields.lookup (Text.ofString key)).isNone with
    | [] => .ok (.node t (names.map fun key => (fields.lookup key).getD (.integer 0)))
    | keys => .error (.missing t keys)

end NodeType

namespace Part

/-- The number that a part denotes; text may, too. -/
def toDouble : Part → Except BuildError Double
  | float x => .ok x
  | boolean b => .ok (if b then .one else .zero)
  | integer n =>
    match Value.doubleOfInt? n with
    | some x => .ok x
    | none => .error .numberTooLarge
  | text t =>
    match Numeral.read? (Text.trim t.chars) with
    | some x => .ok x
    | none => .error (.numberText t)
  | p => .error (.numberType p.typeName)

/-- Puts a number in the place of the value. -/
def withNumber (fields : List (Text × Part)) : Except BuildError (List (Text × Part)) :=
  match fields.lookup (Text.ofString "value") with
  | none => .error .noValue
  | some p => do
    let x ← p.toDouble
    pure (fields.map fun f => if f.1 = Text.ofString "value" then (f.1, .float x) else f)

def assemble (type : Json) (fields : List (Text × Part)) : Except BuildError Part :=
  match type with
  | .text name => do
    let fields ← if name = NodeType.number.name then withNumber fields else pure fields
    match name.string?.bind NodeType.ofName? with
    | some t => t.create fields
    | none => .error (.unknownType name)
  | j => .error (.typeNotText j.typeName)

mutual

def ofJson : Json → Except BuildError Part
  | .null => .ok .null
  | .boolean b => .ok (.boolean b)
  | .integer n => .ok (.integer n)
  | .float x => .ok (.float x)
  | .text t => .ok (.text t)
  | .array items => do pure (.list (← ofItems items))
  | .object fields =>
    match fields.lookup (Text.ofString "type") with
    | none => .error .noType
    | some type => do assemble type (← ofFields fields)
termination_by structural j => j

def ofItems : List Json → Except BuildError (List Part)
  | [] => .ok []
  | j :: rest => do
    let p ← ofJson j
    let ps ← ofItems rest
    pure (p :: ps)
termination_by structural js => js

/-- The fields but for the type. -/
def ofFields : List (Text × Json) → Except BuildError (List (Text × Part))
  | [] => .ok []
  | (key, j) :: rest =>
    if key = "type" then ofFields rest
    else do
      let p ← ofJson j
      let ps ← ofFields rest
      pure ((key, p) :: ps)
termination_by structural fields => fields

end

end Part

end StackLang.Unchecked
