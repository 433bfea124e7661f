import StackLang.Machine.Event
import StackLang.Machine.Locals
import StackLang.Machine.Outcome
import StackLang.Machine.Sink

/-! The state of a run: the operand stack, top first, the variables, the lines of input that are
left, what has been printed and where to, and the trace. -/

namespace StackLang

structure Machine where
  stack : List Value
  locals : Locals
  input : List Text
  printed : Text
  sink : Sink
  /-- Whether a trace file is open. -/
  tracing : Bool
  /-- What has been told, the newest first. -/
  events : List Event

namespace Machine

/-- Before the first statement. -/
def startOn (sink : Sink) (input : List Text) : Machine := ⟨[], .empty, input, "", sink, false, []⟩

/-- Prints to memory, and is given lines that are strings. -/
def start (lines : List String) : Machine := startOn .memory (lines.map Text.ofString)

/-- What has been printed, as it is shown. -/
def output (m : Machine) : String := m.printed.string

def withStack (m : Machine) (stack : List Value) : Machine := { m with stack }

def push (m : Machine) (v : Value) : Machine := m.withStack (v :: m.stack)

def print (m : Machine) (t : Text) : Machine := { m with printed := m.printed ++ t }

def fail (m : Machine) (f : Fault) : Outcome Machine := .failed (.fault f none) m

/-- Tells an event at the given level of detail. Text is made only for what is told, and has to be
encodable. -/
def tell (detail : Nat) (e : Event) (m : Machine) : Outcome Machine :=
  if e.level ≤ detail then
    match e.text? with
    | none => .failed .digitLimit m
    | some t =>
      match t.encodable with
      | .ok _ => .ok { m with events := e :: m.events }
      | .error problem => .failed (.unencodable problem) m
  else .ok m

theorem tell_of_lt {detail : Nat} {e : Event} (h : detail < e.level) (m : Machine) :
    m.tell detail e = .ok m := by
  simp [tell, Nat.not_le.mpr h]

/-! ### Single operations -/

def pop (m : Machine) : Except Fault (Value × Machine) :=
  match m.stack with
  | [] => .error .emptyPop
  | v :: rest => .ok (v, m.withStack rest)

def peek (m : Machine) : Except Fault Value :=
  match m.stack with
  | [] => .error .emptyPeek
  | v :: _ => .ok v

def setLocal (m : Machine) (name : Text) (v : Value) : Machine :=
  { m with locals := m.locals.set name v }

def getLocal (m : Machine) (name : Text) : Except Fault Value :=
  match m.locals.get? name with
  | some v => .ok v
  | none => .error (.unbound name)

def removeLocal (m : Machine) (name : Text) : Option Value × Machine :=
  (m.locals.get? name, { m with locals := m.locals.erase name })

end Machine

end StackLang
