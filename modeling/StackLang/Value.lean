import StackLang.Number.Integer
import StackLang.Number.Layout
import StackLang.Text.Quoted

/-! The values of the language and their text. Only an integer beyond the digit limit has none. -/

namespace StackLang

/-- Float text of the language: whole numbers below 10^16 have no fraction, and no sign at zero. -/
def Double.plain : Double → String
  | .nan => "NaN"
  | .infinite s => if s then "-Infinity" else "Infinity"
  | .finite s n h =>
    if n % oneSteps = 0 ∧ n < Nat.pow 10 16 * oneSteps then Integer.text (signed s (n / oneSteps))
    else (Double.finite s n h).text .display

inductive Kind where
  | float | integer | text | boolean
deriving DecidableEq

def Kind.name : Kind → String
  | float => "Float"
  | integer => "Integer"
  | text => "String"
  | boolean => "Boolean"

def Kind.all : List Kind := [.integer, .float, .text, .boolean]

def Kind.ofName? (s : String) : Option Kind := Kind.all.find? (·.name == s)

inductive Value where
  | float (x : Double)
  | integer (n : Int)
  | text (t : Text)
  | boolean (b : Bool)
deriving DecidableEq

def booleanText (b : Bool) : String := if b then "true" else "false"

namespace Value

def kind : Value → Kind
  | float _ => .float
  | integer _ => .integer
  | text _ => .text
  | boolean _ => .boolean

/-- What `print` shows. -/
def text? : Value → Option Text
  | float x => some x.plain
  | integer n => (Integer.text? n).map Text.ofString
  | text t => some t
  | boolean b => some (booleanText b)

/-- What the trace shows of a variable. -/
def shown? : Value → Option Text
  | text t => some ("String(" ++ t.quoted ++ ")")
  | v => v.text?.map fun t => v.kind.name ++ "(" ++ t ++ ")"

def described? (v : Value) : Option Text :=
  v.text?.map fun t => v.kind.name ++ " " ++ t

end Value

/-- A stack, top first, as the trace shows it: bottom first between brackets. -/
def describeStack? (stack : List Value) : Option Text :=
  (stack.reverse.mapM Value.described?).map fun items => "[" ++ Text.intercalate ", " items ++ "]"

end StackLang
