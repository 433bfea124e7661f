import StackLang.Value.Conversion

/-! Operators on values. Arithmetic wants two integers or two floats; comparison turns numbers into
doubles; `and` and `or` want truth values. -/

namespace StackLang

inductive ArithOp where
  | add | subtract | multiply | divide | modulo
deriving DecidableEq

namespace ArithOp

def name : ArithOp → String
  | add => "add"
  | subtract => "subtract"
  | multiply => "multiply"
  | divide => "divide"
  | modulo => "modulo"

def all : List ArithOp := [add, subtract, multiply, divide, modulo]

def ofName? (s : String) : Option ArithOp := all.find? (·.name == s)

/-- The quotient of the magnitudes, negative where the signs differ. -/
def quotient (x y : Int) : Int :=
  Integer.ofMagnitude (decide (x < 0) != decide (y < 0)) (x.natAbs / y.natAbs)

/-- The remainder is what the quotient leaves of the dividend. -/
def onIntegers : ArithOp → Int → Int → Except Fault Int
  | add, x, y => .ok (x + y)
  | subtract, x, y => .ok (x - y)
  | multiply, x, y => .ok (x * y)
  | divide, x, y => if y = 0 then .error .zeroDivisor else .ok (quotient x y)
  | modulo, x, y => if y = 0 then .error .zeroModulus else .ok (x - y * quotient x y)

def onDoubles : ArithOp → Double → Double → Double
  | add => Double.add
  | subtract => Double.sub
  | multiply => Double.mul
  | divide => Double.div
  | modulo => Double.mod

def apply (op : ArithOp) : Value → Value → Except Fault Value
  | .integer x, .integer y => (op.onIntegers x y).map .integer
  | .float x, .float y => .ok (.float (op.onDoubles x y))
  | a, b => .error (.arithmeticKinds op.name a.kind b.kind)

/-- Arithmetic by name. The operands are looked at before a name that is unknown. -/
def applyNamed (name : Text) (a b : Value) : Except Fault Value :=
  match name.string?.bind ofName? with
  | some op => op.apply a b
  | none =>
    match a, b with
    | .integer _, .integer _ | .float _, .float _ => .error (.unknownArithmetic name)
    | a, b => .error (.arithmeticKinds name a.kind b.kind)

end ArithOp

/-- The operators whose answer is a truth value, but for negation. -/
inductive LogicOp where
  | eq | ne | gt | lt | ge | le | and | or
deriving DecidableEq

namespace LogicOp

def name : LogicOp → String
  | eq => "eq"
  | ne => "ne"
  | gt => "gt"
  | lt => "lt"
  | ge => "ge"
  | le => "le"
  | and => "and"
  | or => "or"

def all : List LogicOp := [eq, ne, gt, lt, ge, le, and, or]

def ofName? (s : String) : Option LogicOp := all.find? (·.name == s)

def onBooleans? : LogicOp → Bool → Bool → Option Bool
  | eq, p, q => some (p == q)
  | ne, p, q => some (p != q)
  | and, p, q => some (p && q)
  | or, p, q => some (p || q)
  | _, _, _ => none

def onDoubles? : LogicOp → Double → Double → Option Bool
  | eq, x, y => some (x.eq y)
  | ne, x, y => some !(x.eq y)
  | gt, x, y => some (y.lt x)
  | lt, x, y => some (x.lt y)
  | ge, x, y => some (y.le x)
  | le, x, y => some (x.le y)
  | and, _, _ | or, _, _ => none

/-- A number as a double. -/
def operand : Value → Except OperandFault Double
  | .float x => .ok x
  | .integer n =>
    match Value.doubleOfInt? n with
    | some x => .ok x
    | none => .error .tooLarge
  | .text t => .error (.notNumber .text t)
  | .boolean b => .error (.notNumber .boolean (booleanText b))

def onNumbers (op : LogicOp) (a b : Value) : Except Fault Value :=
  match operand a, operand b with
  | .error e, _ => .error (.comparisonOperand op.name e)
  | .ok _, .error e => .error (.comparisonOperand op.name e)
  | .ok x, .ok y =>
    match op.onDoubles? x y with
    | some r => .ok (.boolean r)
    | none => .error (.notBooleans op.name a.kind b.kind)

def apply (op : LogicOp) (a b : Value) : Except Fault Value :=
  match a, b with
  | .boolean p, .boolean q =>
    match op.onBooleans? p q with
    | some r => .ok (.boolean r)
    | none => op.onNumbers a b
  | _, _ => op.onNumbers a b

end LogicOp

end StackLang
