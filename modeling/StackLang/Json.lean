import StackLang.Number.Integer
import StackLang.Number.Layout
import StackLang.Text.Quoted

/-! JSON values. Integers and doubles are told apart; the fields of an object keep their order, and
each name occurs once. -/

namespace StackLang

inductive Json where
  | null
  | boolean (b : Bool)
  | integer (n : Int)
  | float (x : Double)
  | text (t : Text)
  | array (items : List Json)
  | object (fields : List (Text × Json))

namespace Json

/-- Sets a field: an old one keeps its place, a new one comes last. -/
def setField (key : Text) (value : Json) : List (Text × Json) → List (Text × Json)
  | [] => [(key, value)]
  | (k, v) :: rest =>
    if k = key then (k, value) :: rest else (k, v) :: setField key value rest

/-- The object that pairs in the order of the text make; the last of two equal names counts. -/
def ofPairs (pairs : List (Text × Json)) : Json :=
  object (pairs.foldl (fun fields p => setField p.1 p.2 fields) [])

/-- The name of the type in messages. -/
def typeName : Json → String
  | null => "NoneType"
  | boolean _ => "bool"
  | integer _ => "int"
  | float _ => "float"
  | text _ => "str"
  | array _ => "list"
  | object _ => "dict"

mutual

/-- A value inside a message. -/
def shown : Json → String
  | null => "None"
  | boolean b => Text.booleanName b
  | integer n => Integer.text n
  | float x => x.text .display
  | text t => t.quoted
  | array items => "[" ++ ", ".intercalate (shownItems items) ++ "]"
  | object fields => "\x7b" ++ ", ".intercalate (shownFields fields) ++ "\x7d"

def shownItems : List Json → List String
  | [] => []
  | j :: rest => j.shown :: shownItems rest

def shownFields : List (Text × Json) → List String
  | [] => []
  | (k, j) :: rest => (k.quoted ++ ": " ++ j.shown) :: shownFields rest

end

/-- A value as the end of a message, where text has no quotes. -/
def plain : Json → Text
  | text t => t
  | j => j.shown

/-- Whether the value counts as true: all but null, false, zero and what is empty. -/
def isTruthy : Json → Bool
  | null => false
  | boolean b => b
  | integer n => n != 0
  | float x => !x.isZero
  | text t => !t.isEmpty
  | array items => !items.isEmpty
  | object fields => !fields.isEmpty

end Json

end StackLang
