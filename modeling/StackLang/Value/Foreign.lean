import StackLang.Json
import StackLang.Machine.Eval
import StackLang.Value.Operator

/-! Values as they come from outside, where anything may stand in their place. What is no value is
refused wherever a value is looked at. -/

namespace StackLang

inductive Datum where
  | value (v : Value)
  | foreign (j : Json)

inductive DatumError where
  | notValue (j : Json)
  | refused (j : Json)
  /-- Found by a conversion. -/
  | notConvertible (j : Json)
  /-- Found by a comparison. -/
  | notComparable (op : String) (j : Json)
  | failure (f : Failure)

namespace DatumError

def notValueMessage (j : Json) : Text := "not a Stax value: " ++ j.shown

/-- The errors that are faults of a program. -/
def diagnostic? : DatumError → Option Diagnostic
  | notConvertible j => some ⟨"RuntimeError", "ConversionError", notValueMessage j, none⟩
  | notComparable op j =>
    some ⟨"RuntimeError", "TypeMismatch", op ++ ": " ++ notValueMessage j, none⟩
  | failure (.fault f line) => some (f.diagnostic line)
  | _ => none

def message : DatumError → Text
  | refused j => "refusing to push non-Stax value " ++ j.shown
  | notValue j | notConvertible j | notComparable _ j => notValueMessage j
  | failure (.fault f _) => f.message
  | failure .digitLimit => digitLimitMessage
  | failure (.unencodable e) => e.message
  | failure (.unsupported u) => u.message

end DatumError

namespace Datum

def require : Datum → Except DatumError Value
  | value v => .ok v
  | foreign j => .error (.notValue j)

def shown? : Datum → Option Text
  | value v => v.shown?
  | foreign j => some j.shown

def ofFault {α : Type} (r : Except Fault α) : Except DatumError α :=
  r.mapError fun f => .failure (.fault f none)

/-- Conversion by the name of the target. -/
def convert (target : String) (d : Datum) : Except DatumError Value :=
  match Kind.ofName? target, d with
  | none, _ => .error (.failure (.fault (.unknownTarget target) none))
  | some _, foreign j => .error (.notConvertible j)
  | some kind, value v => ofFault ((v.convert kind).mapError .conversion)

def arithmetic (op : String) (a b : Datum) : Except DatumError Value := do
  let x ← a.require
  let y ← b.require
  ofFault (ArithOp.applyNamed op x y)

/-- The operator is looked at before the operands. -/
def compare (op : String) (a b : Datum) : Except DatumError Value :=
  match LogicOp.ofName? op, a, b with
  | none, _, _ => .error (.failure (.fault (.unknownComparison op) none))
  | some _, foreign j, _ => .error (.notComparable op j)
  | some known, value x, foreign j =>
    match LogicOp.operand x with
    | .ok _ => .error (.notComparable op j)
    | .error e => .error (.failure (.fault (.comparisonOperand known.name e) none))
  | some known, value x, value y => ofFault (known.apply x y)

def negate (d : Datum) : Except DatumError Value := do
  (← d.require).negate.mapError .failure

def pushOn (m : Machine) : Datum → Except DatumError Machine
  | value v => .ok (m.push v)
  | foreign j => .error (.refused j)

end Datum

end StackLang
