import StackLang.Fault
import StackLang.Number.Numeral

/-! The four conversions between values. -/

namespace StackLang.Value

def toInteger : Value → Except ConversionFault Int
  | integer n => .ok n
  | float x =>
    match x.trunc? with
    | some n => .ok n
    | none => .error (.notFinite x)
  | text t =>
    match Integer.read t.chars with
    | .ok n => .ok n
    | .error .malformed => .error (.notInteger t)
    | .error (.tooLong digits) => .error (.tooManyDigits digits)
  | boolean b => .ok (if b then 1 else 0)

/-- The double nearest to an integer, if it is finite. -/
def doubleOfInt? (n : Int) : Option Double :=
  if (Double.ofInt n).isFinite then some (Double.ofInt n) else none

def parseFloat (t : Text) : Except ConversionFault Double :=
  match Numeral.readTyped? t.chars with
  | some x => .ok x
  | none => .error (.notFloat t)

def toFloat : Value → Except ConversionFault Double
  | float x => .ok x
  | integer n =>
    match doubleOfInt? n with
    | some x => .ok x
    | none => .error (.tooLarge n)
  | text t => parseFloat t
  | boolean b => .ok (if b then .one else .zero)

def toText (v : Value) : Except ConversionFault Text :=
  match v.text? with
  | some t => .ok t
  | none => .error .digitLimit

/-- Letters of either case spell a truth value. -/
def readBoolean? (cs : List Char) : Option Bool :=
  let word := String.ofList ((Text.trim cs).map Char.toLower)
  if word = "true" then some true else if word = "false" then some false else none

def toBoolean : Value → Except ConversionFault Bool
  | boolean b => .ok b
  | text t =>
    match readBoolean? t.chars with
    | some b => .ok b
    | none => .error (.notBoolean t)
  | integer n => .ok (n != 0)
  | float x => .ok !x.isZero

def convert (target : Kind) (v : Value) : Except ConversionFault Value :=
  match target with
  | .integer => v.toInteger.map integer
  | .float => v.toFloat.map float
  | .text => v.toText.map text
  | .boolean => v.toBoolean.map boolean

end StackLang.Value
