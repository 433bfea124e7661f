import StackLang.Document
import StackLang.Fault

/-! JSON values to documents. A node is put together from its fields in a fixed order, so that of
several problems always the same one is reported; fields that a node does not use are ignored. -/

namespace StackLang

inductive LoadError where
  | notObject
  | nodeType (got : Json)
  | unhashable (typeName : String)
  | missing (typeName key : String)
  | numberValue (got : Json)
  | numberTooLarge
  | textValue (got : Json)
  | nameValue (typeName : String) (got : Json)
  | operator (typeName : String) (got : Json)
  | target (got : Json)
  | notExpression (got : String)
  | notIterable (typeName : String)
  | lineText (got : Text)
  | lineDigits (digits : Nat)
  | lineNaN
  | lineInfinite
  | lineType (typeName : String)

namespace LoadError

/-- The three families of load errors. -/
inductive Family where
  | value | type | overflow
deriving DecidableEq

def family : LoadError → Family
  | notObject | unhashable _ | notIterable _ | lineType _ => .type
  | numberTooLarge | lineInfinite => .overflow
  | _ => .value

def message : LoadError → Text
  | notObject => "Invalid AST object"
  | nodeType got => "Unknown AST node type: " ++ got.plain
  | unhashable typeName => "unhashable type: '" ++ typeName ++ "'"
  | missing typeName key => typeName ++ " node is missing '" ++ key ++ "'"
  | numberValue got => "NumberLiteral value must be a number, got " ++ got.shown
  | numberTooLarge => "int too large to convert to float"
  | textValue got => "StringLiteral value must be a string, got " ++ got.shown
  | nameValue typeName got => typeName ++ " name must be a non-empty string, got " ++ got.shown
  | operator typeName got => "Unknown " ++ typeName ++ " operator: " ++ got.shown
  | target got => "Unknown conversion target: " ++ got.shown
  | notExpression got => "expected an expression, got " ++ got
  | notIterable typeName => "'" ++ typeName ++ "' object is not iterable"
  | lineText got =>
    "invalid literal for int() with base 10: " ++
      String.ofList (got.quoted.toList.take 200)
  | lineDigits digits => tooManyDigitsMessage digits
  | lineNaN => "cannot convert float NaN to integer"
  | lineInfinite => "cannot convert float infinity to integer"
  | lineType typeName =>
    "int() argument must be a string, a bytes-like object or a real number, not '" ++ typeName ++ "'"

end LoadError

namespace Document

/-- A line as a tree file may give it: any number, or text that denotes an integer. -/
def lineOf : Json → Except LoadError Int
  | .integer n => .ok n
  | .boolean b => .ok (if b then 1 else 0)
  | .float x =>
    match x.trunc? with
    | some n => .ok n
    | none => .error (if x.isNaN then .lineNaN else .lineInfinite)
  | .text t =>
    match Integer.readLoose t.chars with
    | .ok n => .ok n
    | .error .malformed => .error (.lineText t)
    | .error (.tooLong digits) => .error (.lineDigits digits)
  | j => .error (.lineType j.typeName)

def numberOf : Json → Except LoadError Double
  | .float x => .ok x
  | .integer n => (Value.doubleOfInt? n).elim (.error .numberTooLarge) .ok
  | j => .error (.numberValue j)

def asExpr : Document → Except LoadError Expr
  | .statement (.bare e) => .ok e
  | .nothing => .error (.notExpression "nothing")
  | d => .error (.notExpression d.typeName)

/-- A field: its value, and what the value is as a node and as the body of a program. -/
structure Field where
  raw : Json
  node : Except LoadError Document
  body : Except LoadError (List Document)

abbrev Fields := List (Text × Field)

namespace Fields

def get? (fields : Fields) (key : Text) : Option Field := fields.lookup key

def get (fields : Fields) (typeName key : String) : Except LoadError Field :=
  match fields.get? key with
  | some f => .ok f
  | none => .error (.missing typeName key)

def line (fields : Fields) : Except LoadError Int :=
  match fields.get? "line" with
  | some f => lineOf f.raw
  | none => .ok 0

def expr (fields : Fields) (typeName key : String) : Except LoadError Expr := do
  let f ← fields.get typeName key
  asExpr (← f.node)

def name (fields : Fields) (typeName : String) : Except LoadError Text := do
  let f ← fields.get typeName "name"
  match f.raw with
  | .text t => if t.isEmpty then .error (.nameValue typeName f.raw) else .ok t
  | got => .error (.nameValue typeName got)

/-- The name in a field that has to be one of the known ones. -/
def oneOf {α : Type} (fields : Fields) (typeName key : String) (ofName? : String → Option α)
    (unknown : Json → LoadError) : Except LoadError α := do
  let f ← fields.get typeName key
  match f.raw with
  | .text t =>
    match t.string?.bind ofName? with
    | some a => .ok a
    | none => .error (unknown f.raw)
  | got => .error (unknown got)

def number (fields : Fields) : Except LoadError Double := do
  numberOf (← fields.get "NumberLiteral" "value").raw

def text (fields : Fields) : Except LoadError Text := do
  let f ← fields.get "StringLiteral" "value"
  match f.raw with
  | .text t => .ok t
  | got => .error (.textValue got)

/-- The operators of `BooleanExpr`; negation is none of the binary ones. -/
def logicName? (s : String) : Option (Option LogicOp) :=
  if s = "not" then some none else (LogicOp.ofName? s).map some

def arithmetic (fields : Fields) (line : Int) : Except LoadError Expr := do
  let left ← fields.expr "ArithmeticExpr" "left"
  let op ← fields.oneOf "ArithmeticExpr" "op" ArithOp.ofName? (.operator "ArithmeticExpr")
  let right ← fields.expr "ArithmeticExpr" "right"
  pure (.arith op left right line)

/-- The right operand of a negation is ignored. -/
def logical (fields : Fields) (line : Int) : Except LoadError Expr := do
  let op? ← fields.oneOf "BooleanExpr" "op" logicName? (.operator "BooleanExpr")
  let left ← fields.expr "BooleanExpr" "left"
  match op? with
  | none => pure (.not left line)
  | some op => pure (.logic op left (← fields.expr "BooleanExpr" "right") line)

def convert (fields : Fields) (line : Int) : Except LoadError Stmt := do
  pure (.convert (← fields.oneOf "ConvertStmt" "target" Kind.ofName? .target) line)

/-- The node with the given type and line. -/
def tagged (fields : Fields) (typeName : String) (line : Int) : Except LoadError Document :=
  match typeName with
  | "Program" => do .program <$> (← fields.get "Program" "body").body
  | "NumberLiteral" => do pure (.statement (.bare (.number (← fields.number) line)))
  | "StringLiteral" => do pure (.statement (.bare (.text (← fields.text) line)))
  | "BooleanLiteral" => do
    let f ← fields.get "BooleanLiteral" "value"
    pure (.statement (.bare (.boolean f.raw.isTruthy line)))
  | "VarRef" => do pure (.statement (.bare (.var (← fields.name "VarRef") line)))
  | "ArithmeticExpr" => do pure (.statement (.bare (← fields.arithmetic line)))
  | "BooleanExpr" => do pure (.statement (.bare (← fields.logical line)))
  | "PushStmt" => do pure (.statement (.push (← fields.expr "PushStmt" "expr") line))
  | "ConvertStmt" => do pure (.statement (← fields.convert line))
  | "StoreLocal" => do pure (.statement (.store (← fields.name "StoreLocal") line))
  | "LoadLocal" => do pure (.statement (.load (← fields.name "LoadLocal") line))
  | "RemoveLocal" => do pure (.statement (.remove (← fields.name "RemoveLocal") line))
  | "PrintStmt" => .ok (.statement (.print line))
  | "PopStmt" => .ok (.statement (.pop line))
  | "DupStmt" => .ok (.statement (.dup line))
  | "ReadStmt" => .ok (.statement (.read line))
  | other => .error (.nodeType (.text other))

/-- The line is looked at before the type. -/
def assemble (fields : Fields) : Except LoadError Document := do
  let line ← fields.line
  match (fields.get? "type").map Field.raw with
  | some (.text t) =>
    match t.string? with
    | some typeName => fields.tagged typeName line
    | none => .error (.nodeType (.text t))
  | some (.array _) => .error (.unhashable "list")
  | some (.object _) => .error (.unhashable "dict")
  | some got => .error (.nodeType got)
  | none => .error (.nodeType .null)

end Fields

mutual

def ofJson : Json → Except LoadError Document
  | .null => .ok .nothing
  | .object fields => Fields.assemble (ofFields fields)
  | _ => .error .notObject
termination_by structural j => j

/-- The body of a program: the elements of an array. Text and objects are no arrays, but an empty
one has no element to complain about. -/
def ofBody : Json → Except LoadError (List Document)
  | .array items => ofItems items
  | .text t => if t.isEmpty then .ok [] else .error .notObject
  | .object fields => if fields.isEmpty then .ok [] else .error .notObject
  | j => .error (.notIterable j.typeName)
termination_by structural j => j

def ofItems : List Json → Except LoadError (List Document)
  | [] => .ok []
  | j :: rest => do
    let d ← ofJson j
    let ds ← ofItems rest
    pure (d :: ds)
termination_by structural js => js

def ofFields : List (Text × Json) → Fields
  | [] => []
  | (key, j) :: rest => (key, ⟨j, ofJson j, ofBody j⟩) :: ofFields rest
termination_by structural fields => fields

end

end Document

end StackLang
