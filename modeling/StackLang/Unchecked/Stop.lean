import StackLang.Machine.Outcome
import StackLang.Unchecked
import StackLang.Value.Operator

/-! Why the run of an unchecked tree ends early: faults as elsewhere, faults of operands that are not
what they are said to be, and parts that stand where they cannot be used. -/

namespace StackLang.Unchecked

inductive LooseFault where
  | known (f : Fault)
  /-- Negation of what is said to be text. -/
  | negation (p : Part)
  /-- Comparison of what is said to be text. -/
  | comparison (op : LogicOp) (p : Part)

namespace LooseFault

def name : LooseFault → String
  | known f => f.name
  | negation _ | comparison .. => "TypeMismatch"

def message : LooseFault → Text
  | known f => f.message
  | negation p => "cannot apply negation to non boolean String " ++ p.shown
  | comparison op p => op.name ++ ": cannot convert String value " ++ p.shown ++ " to a number"

/-- The report on a fault at a line, which may be anything. -/
def text (f : LooseFault) (line : Part) : Text :=
  "RuntimeError: " ++ f.name ++ ": " ++ f.message ++
    match line with
    | .null => ""
    | line => " (line " ++ line.plain ++ ")"

end LooseFault

/-- A part stands where it cannot be used. The strings name its type. -/
inductive Misuse where
  | unsupported (u : Unsupported)
  | noLength (typeName : String)
  | notIterable (typeName : String)
  | unhashable (typeName : String)
  /-- Only text has white space around it that could be removed. -/
  | noStrip (typeName : String)

def Misuse.message : Misuse → String
  | unsupported u => u.message
  | noLength typeName => "object of type '" ++ typeName ++ "' has no len()"
  | notIterable typeName => "'" ++ typeName ++ "' object is not iterable"
  | unhashable typeName => "unhashable type: '" ++ typeName ++ "'"
  | noStrip typeName => "'" ++ typeName ++ "' object has no attribute 'strip'"

inductive Stop where
  /-- The line is null as long as it is not known. -/
  | fault (f : LooseFault) (line : Part)
  /-- An integer was too long to be shown. -/
  | digitLimit
  /-- Text that was to be shown holds half of a surrogate pair. -/
  | unencodable (e : Text.EncodeError)
  | misuse (m : Misuse)

namespace Stop

def ofFault (f : Fault) : Stop := .fault (.known f) .null

def ofFailure : Failure → Stop
  | .fault f _ => .ofFault f
  | .digitLimit => .digitLimit
  | .unencodable e => .unencodable e
  | .unsupported u => .misuse (.unsupported u)

end Stop

end StackLang.Unchecked
