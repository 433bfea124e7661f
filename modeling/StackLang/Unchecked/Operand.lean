import StackLang.Machine.Eval
import StackLang.Unchecked.Stop
import StackLang.Value.Operator

/-! What the stack of an unchecked tree holds: values, and text and truth values that are really
something else. As long as nobody looks inside, these pass for what they are said to be. -/

namespace StackLang.Unchecked

inductive Operand where
  | value (v : Value)
  /-- Said to be text. -/
  | text (p : Part)
  /-- Said to be a truth value. -/
  | truth (p : Part)

namespace Operand

def ofText : Part → Operand
  | .text t => .value (.text t)
  | p => .text p

def ofTruth : Part → Operand
  | .boolean b => .value (.boolean b)
  | p => .truth p

def kind : Operand → Kind
  | value v => v.kind
  | text _ => .text
  | truth _ => .boolean

/-- What `print` shows. -/
def text? : Operand → Option Text
  | value v => v.text?
  | text p => some p.plain
  | truth p => some (booleanText p.isTruthy)

/-- What the trace shows of a variable. -/
def shown? : Operand → Option Text
  | text p => some ("String(" ++ p.shown ++ ")")
  | value v => v.shown?
  | truth p => (Value.boolean p.isTruthy).shown?

def described? (o : Operand) : Option Text := o.text?.map fun t => o.kind.name ++ " " ++ t

/-- A stack, top first, as the trace shows it. -/
def describe? (stack : List Operand) : Option Text :=
  (stack.reverse.mapM described?).map fun items => "[" ++ Text.intercalate ", " items ++ "]"

/-! ### Operators -/

def arithmetic (op : Text) : Operand → Operand → Except LooseFault Operand
  | value a, value b => ((ArithOp.applyNamed op a b).map value).mapError .known
  | a, b => .error (.known (.arithmeticKinds op a.kind b.kind))

/-- What is inside a truth value. -/
def truth? : Operand → Option Part
  | value (.boolean b) => some (.boolean b)
  | truth p => some p
  | _ => none

/-- Two truth values are compared by what is inside; a connective answers with one of the two. -/
def onTruths? (op : LogicOp) (p q : Part) : Option Operand :=
  match op with
  | .eq => some (.value (.boolean (p.same q)))
  | .ne => some (.value (.boolean !(p.same q)))
  | .and => some (.ofTruth (if p.isTruthy then q else p))
  | .or => some (.ofTruth (if p.isTruthy then p else q))
  | _ => none

def number (op : LogicOp) : Operand → Except LooseFault Double
  | value v => (LogicOp.operand v).mapError fun e => .known (.comparisonOperand op.name e)
  | text p => .error (.comparison op p)
  | truth p =>
    .error (.known (.comparisonOperand op.name (.notNumber .boolean (booleanText p.isTruthy))))

def onNumbers (op : LogicOp) (a b : Operand) : Except LooseFault Operand := do
  let x ← a.number op
  let y ← b.number op
  match op.onDoubles? x y with
  | some r => pure (.value (.boolean r))
  | none => throw (.known (.notBooleans op.name a.kind b.kind))

def compare (op : Text) (a b : Operand) : Except LooseFault Operand :=
  match op.string?.bind LogicOp.ofName? with
  | none => .error (.known (.unknownComparison op))
  | some known =>
    match a.truth?, b.truth? with
    | some p, some q =>
      match onTruths? known p q with
      | some r => .ok r
      | none => onNumbers known a b
    | _, _ => onNumbers known a b

def negate : Operand → Except Stop Operand
  | value v => (v.negate.map value).mapError .ofFailure
  | text p => .error (.fault (.negation p) .null)
  | truth p => .ok (.value (.boolean !p.isTruthy))

/-- Text that is none stays what it is, and gives nothing else. -/
def convert (target : Kind) : Operand → Except Stop Operand
  | value v => ((v.convert target).map value).mapError fun f => .ofFault (.conversion f)
  | text p => if target = .text then .ok (.text p) else .error (.misuse (.noStrip p.typeName))
  | truth p =>
    if target = .boolean then .ok (.truth p)
    else (((Value.boolean p.isTruthy).convert target).map value).mapError fun f =>
      .ofFault (.conversion f)

end Operand

end StackLang.Unchecked
