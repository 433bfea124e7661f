import StackLang.Value

/-! Why a program stops: faults of the program, each with its cause, and limits of the machine that
are no faults of the program. -/

namespace StackLang

inductive ConversionFault where
  | notInteger (text : Text)
  | notFloat (text : Text)
  | notBoolean (text : Text)
  | notFinite (x : Double)
  | tooLarge (n : Int)
  | tooManyDigits (digits : Nat)
  | digitLimit
deriving DecidableEq

def ConversionFault.message : ConversionFault → String
  | notInteger t => "cannot parse Integer from " ++ t.quoted
  | notFloat t => "cannot parse Float from " ++ t.quoted
  | notBoolean t => "cannot parse Boolean from " ++ t.quoted
  | notFinite x => "cannot convert " ++ x.plain ++ " to Integer"
  | tooLarge n =>
    match Integer.text? n with
    | some s => "Integer " ++ s ++ " is too large for Float"
    | none => digitLimitMessage
  | tooManyDigits digits => tooManyDigitsMessage digits
  | digitLimit => digitLimitMessage

/-- What an operand of a comparison has to be, and is not. -/
inductive OperandFault where
  | notNumber (kind : Kind) (text : Text)
  | tooLarge
deriving DecidableEq

def OperandFault.message : OperandFault → String
  | notNumber kind t =>
    "cannot convert " ++ kind.name ++ " value " ++ t.quoted ++ " to a number"
  | tooLarge => "int too large to convert to float"

inductive Fault where
  | emptyPop
  | emptyPeek
  | unbound (name : Text)
  | arithmeticKinds (op : Text) (left right : Kind)
  | negationKind (kind : Kind) (text : Text)
  | comparisonOperand (op : String) (fault : OperandFault)
  | notBooleans (op : String) (left right : Kind)
  | conversion (fault : ConversionFault)
  | zeroDivisor
  | zeroModulus
  | endOfInput
  | unknownArithmetic (op : Text)
  | unknownComparison (op : Text)
  | unknownTarget (target : Text)
deriving DecidableEq

namespace Fault

def name : Fault → String
  | emptyPop | emptyPeek => "StackUnderflow"
  | unbound _ => "UnknownVariable"
  | arithmeticKinds .. | negationKind .. | comparisonOperand .. | notBooleans .. => "TypeMismatch"
  | conversion _ => "ConversionError"
  | zeroDivisor | zeroModulus => "DivisionByZero"
  | endOfInput => "EndOfInput"
  | unknownArithmetic _ | unknownComparison _ | unknownTarget _ => "UnknownOperator"

def message : Fault → Text
  | emptyPop => "cannot pop from an empty stack"
  | emptyPeek => "cannot read the top of an empty stack"
  | unbound name => "local " ++ name ++ " does not exist, please set it first"
  | arithmeticKinds op left right =>
    "unsupported operands for " ++ op ++ ": " ++ left.name ++ " and " ++ right.name
  | negationKind kind t =>
    "cannot apply negation to non boolean " ++ kind.name ++ " " ++ t.quoted
  | comparisonOperand op fault => op ++ ": " ++ fault.message
  | notBooleans op left right =>
    op ++ " requires Boolean operands, got " ++ left.name ++ " and " ++ right.name
  | conversion fault => fault.message
  | zeroDivisor => "Integer division by zero"
  | zeroModulus => "Integer modulo by zero"
  | endOfInput => "read reached the end of input"
  | unknownArithmetic op => "unknown arithmetic operator " ++ op
  | unknownComparison op => "unknown binary boolean operator " ++ op
  | unknownTarget target => "unknown conversion target " ++ target

end Fault

/-- An error as it is reported: its family, its own name, its text and, where known, its line. -/
structure Diagnostic where
  family : String
  name : String
  message : Text
  line : Option Int
deriving DecidableEq

/-- One line of text; the family is left out where it is the name. A line number may be too long
to be written. -/
def Diagnostic.text? (d : Diagnostic) : Option Text := do
  let suffix ← match d.line with
    | none => some ""
    | some line => (Integer.text? line).map fun s => " (line " ++ s ++ ")"
  let body := d.name ++ ": " ++ d.message ++ suffix
  pure (if d.name = d.family then body else d.family ++ ": " ++ body)

def Fault.diagnostic (f : Fault) (line : Option Int) : Diagnostic :=
  ⟨"RuntimeError", f.name, f.message, line⟩

end StackLang
