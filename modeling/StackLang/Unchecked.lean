import StackLang.Json

/-! Trees that nobody checked. A part is any piece of data or a node, and the fields of a node are
again any parts: an operator may be a list, a line may be text. -/

namespace StackLang.Unchecked

/-- The types of nodes. The first four stand for families of nodes. -/
inductive NodeType where
  | node | statement | expression | literal
  | program | number | text | boolean | var | arith | logic
  | print | push | pop | dup | read | convert | store | load | remove
deriving DecidableEq

namespace NodeType

def name : NodeType → String
  | node => "Node"
  | statement => "Statement"
  | expression => "Expression"
  | literal => "Literal"
  | program => "Program"
  | number => "NumberLiteral"
  | text => "StringLiteral"
  | boolean => "BooleanLiteral"
  | var => "VarRef"
  | arith => "ArithmeticExpr"
  | logic => "BooleanExpr"
  | print => "PrintStmt"
  | push => "PushStmt"
  | pop => "PopStmt"
  | dup => "DupStmt"
  | read => "ReadStmt"
  | convert => "ConvertStmt"
  | store => "StoreLocal"
  | load => "LoadLocal"
  | remove => "RemoveLocal"

def all : List NodeType :=
  [node, statement, expression, literal, program, number, text, boolean, var, arith, logic, print,
    push, pop, dup, read, convert, store, load, remove]

def ofName? (s : String) : Option NodeType := all.find? (·.name == s)

def isFamily : NodeType → Bool
  | node | statement | expression | literal => true
  | _ => false

/-- The fields that have to be given. -/
def required : NodeType → List String
  | program => ["body"]
  | number | text | boolean => ["value"]
  | var | store | load | remove => ["name"]
  | arith | logic => ["left", "op", "right"]
  | push => ["expr"]
  | convert => ["target"]
  | _ => []

def hasLine (t : NodeType) : Bool := !t.isFamily && t != program

/-- All fields; the line is the last of them. -/
def fieldNames (t : NodeType) : List String := t.required ++ if t.hasLine then ["line"] else []

end NodeType

inductive Part where
  | null
  | boolean (b : Bool)
  | integer (n : Int)
  | float (x : Double)
  | text (t : Text)
  | list (items : List Part)
  /-- The fields are in the order of `fieldNames`. -/
  | node (type : NodeType) (fields : List Part)

namespace Part

def typeName : Part → String
  | null => "NoneType"
  | boolean _ => "bool"
  | integer _ => "int"
  | float _ => "float"
  | text _ => "str"
  | list _ => "list"
  | node t _ => t.name

/-- The type as messages about execution show it. -/
def className : Part → String
  | node t _ => "stax.ast." ++ t.name
  | p => p.typeName

def line? : Part → Option Part
  | node t fields => if t.hasLine then fields.getLast? else none
  | _ => none

/-- What there is to go through: the items of a list, and the characters of a text. -/
def elements? : Part → Option (List Part)
  | list items => some items
  | text t => some (t.codes.map fun c => text ⟨[c]⟩)
  | _ => none

def isTruthy : Part → Bool
  | null => false
  | boolean b => b
  | integer n => n != 0
  | float x => !x.isZero
  | text t => !t.isEmpty
  | list items => !items.isEmpty
  | node .. => true

/-! ### Text -/

mutual

/-- A part inside a message. A node of a family has no fields to show. -/
def shown : Part → String
  | null => "None"
  | boolean b => Text.booleanName b
  | integer n => Integer.text n
  | float x => x.text .display
  | text t => t.quoted
  | list items => "[" ++ ", ".intercalate (shownItems items) ++ "]"
  | node t fields =>
    if t.isFamily then "<stax.ast." ++ t.name ++ " object>"
    else
      t.name ++ "(" ++
        ", ".intercalate (t.fieldNames.zipWith (fun k s => k ++ "=" ++ s) (shownItems fields)) ++ ")"

def shownItems : List Part → List String
  | [] => []
  | p :: rest => p.shown :: shownItems rest

end

/-- A part as text of its own, without quotes around text. -/
def plain : Part → Text
  | text t => t
  | p => p.shown

/-! ### Equality -/

/-- Truth values count as numbers. -/
def number? : Part → Option (Int ⊕ Double)
  | boolean b => some (.inl (if b then 1 else 0))
  | integer n => some (.inl n)
  | float x => some (.inr x)
  | _ => none

def sameNumber : Int ⊕ Double → Int ⊕ Double → Bool
  | .inl m, .inl n => m == n
  | .inr x, .inr y => x.eq y
  | .inl n, .inr x | .inr x, .inl n => x.isWhole && x.trunc? == some n

mutual

/-- Equality of data. Numbers are equal by value, whatever their types. -/
def same : Part → Part → Bool
  | null, null => true
  | text s, text t => s == t
  | list items, list others => sameItems items others
  | node t fields, node u others => t == u && !t.isFamily && sameItems fields others
  | p, q =>
    match p.number?, q.number? with
    | some m, some n => sameNumber m n
    | _, _ => false

def sameItems : List Part → List Part → Bool
  | [], [] => true
  | p :: rest, q :: others => p.same q && sameItems rest others
  | _, _ => false

end

/-- The type of a part that cannot be the name of anything. -/
def unhashable? : Part → Option String
  | list _ => some "list"
  | node t _ => if t.isFamily then none else some t.name
  | _ => none

/-! ### Data -/

mutual

/-- A part as JSON. A node, which is no data, becomes its text. -/
def data : Part → Json
  | null => .null
  | boolean b => .boolean b
  | integer n => .integer n
  | float x => .float x
  | text t => .text t
  | list items => .array (dataItems items)
  | node t fields => .text (node t fields).shown

def dataItems : List Part → List Json
  | [] => []
  | p :: rest => p.data :: dataItems rest

end

end Part

end StackLang.Unchecked
