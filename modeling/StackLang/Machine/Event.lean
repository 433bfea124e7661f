import StackLang.Fault

/-! What the trace tells, and from which level on it does. -/

namespace StackLang

inductive Event where
  | started (statements : Nat)
  | entered (line : Option Int) (typeName : String)
  | stored (name : Text) (value : Value)
  | removed (name : Text) (old : Option Value)
  | stack (values : List Value)
  | failed (d : Diagnostic)
  | finished (values : List Value)
deriving DecidableEq

namespace Event

/-- The least level at which the event is told. -/
def level : Event → Nat
  | started _ | failed _ | finished _ => 1
  | entered .. | stored .. | removed .. => 2
  | stack _ => 3

def oldText? : Option Value → Option Text
  | none => some "None"
  | some v => v.shown?

/-- One line of the trace, unless it would show an integer that is too long. -/
def text? : Event → Option Text
  | started n => some ("run: " ++ toString n ++ " statements")
  | entered none typeName => some ("line ?: " ++ typeName)
  | entered (some line) typeName =>
    (Integer.text? line).map fun s => "line " ++ s ++ ": " ++ typeName
  | stored name v => v.shown?.map fun s => "stloc " ++ name ++ " = " ++ s
  | removed name old => (oldText? old).map fun s => "rmloc " ++ name ++ " (was " ++ s ++ ")"
  | stack values => (describeStack? values).map ("  stack=" ++ ·)
  | failed d => d.text?.map ("error: " ++ ·)
  | finished values => (describeStack? values).map ("run finished, stack=" ++ ·)

/-- Events as the text of a trace file, the oldest first. -/
def lines (events : List Event) : String :=
  String.join (events.map fun e => (e.text?.map Text.string).getD "" ++ "\n")

end Event

end StackLang
