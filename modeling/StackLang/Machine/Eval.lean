import StackLang.Machine
import StackLang.Program

/-! Expressions on the stack. The right operand of a binary operator is evaluated first, and what a
failure leaves on the stack are the right operands that were finished. -/

namespace StackLang

def Value.negate : Value → Except Failure Value
  | .boolean b => .ok (.boolean !b)
  | v =>
    match v.text? with
    | some t => .error (.fault (.negationKind v.kind t) none)
    | none => .error .digitLimit

/-- Negates the value on top, which is gone when it is no truth value. -/
def negateTop : List Value → Outcome (List Value)
  | [] => .failed (.fault .emptyPop none) []
  | v :: rest =>
    match v.negate with
    | .ok w => .ok (w :: rest)
    | .error f => .failed f rest

/-- Replaces the left operand on top and the right one below by the result. -/
def combineTop (apply : Value → Value → Except Fault Value) : List Value → Outcome (List Value)
  | a :: b :: rest =>
    match apply a b with
    | .ok v => .ok (v :: rest)
    | .error f => .failed (.fault f none) rest
  | _ => .failed (.fault .emptyPop none) []

namespace Expr

/-- Leaves the value of an expression on top of the stack. -/
def push (locals : Locals) : Expr → List Value → Outcome (List Value)
  | number x _, stack => .ok (.float x :: stack)
  | text s _, stack => .ok (.text s :: stack)
  | boolean b _, stack => .ok (.boolean b :: stack)
  | var name _, stack =>
    match locals.get? name with
    | some v => .ok (v :: stack)
    | none => .failed (.fault (.unbound name) none) stack
  | arith op left right _, stack =>
    ((right.push locals stack).andThen (left.push locals)).andThen (combineTop op.apply)
  | logic op left right _, stack =>
    ((right.push locals stack).andThen (left.push locals)).andThen (combineTop op.apply)
  | not operand _, stack => (operand.push locals stack).andThen negateTop

end Expr

namespace Machine

def eval (m : Machine) (e : Expr) : Outcome Machine :=
  (e.push m.locals m.stack).map m.withStack

end Machine

end StackLang
