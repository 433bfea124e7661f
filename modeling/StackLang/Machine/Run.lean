import StackLang.Machine.Exec

/-! Running a list of statements, or of anything else that can be executed like one: in order, up
to the first failure, which is reported with the line of the statement. -/

namespace StackLang

/-- What a block may consist of. -/
class Executable (ι : Type) where
  line? : ι → Option Int
  typeName : ι → String
  exec : Nat → ι → Machine → Outcome Machine

instance : Executable Stmt where
  line? s := some s.line
  typeName := Stmt.typeName
  exec := Stmt.exec

namespace Failure

/-- A fault that has no line yet gets one. -/
def atLine (line : Option Int) : Failure → Failure
  | fault f none => fault f line
  | f => f

end Failure

namespace Machine

variable {ι : Type} [Executable ι]

/-- Tells of a fault. The report is made at every level, and a line number may be too long for it. -/
def report (detail : Nat) (f : Failure) (m : Machine) : Outcome Machine :=
  match f with
  | .fault fault line =>
    match (fault.diagnostic line).text? with
    | some _ => (m.tell detail (.failed (fault.diagnostic line))).andThen fun m => .failed f m
    | none => .failed .digitLimit m
  | f => .failed f m

def runItem (detail : Nat) (item : ι) (m : Machine) : Outcome Machine :=
  match (m.tell detail (.entered (Executable.line? item) (Executable.typeName item))).andThen
      (Executable.exec detail item) with
  | .ok m => m.tell detail (.stack m.stack)
  | .failed f m => m.report detail (f.atLine (Executable.line? item))

def runBlock (detail : Nat) : List ι → Machine → Outcome Machine
  | [], m => .ok m
  | item :: rest, m => (m.runItem detail item).andThen (runBlock detail rest)

/-- The final stack is described at every level, and may be too long for it. -/
def finish (detail : Nat) (m : Machine) : Outcome Machine :=
  match describeStack? m.stack with
  | some _ => m.tell detail (.finished m.stack)
  | none => .failed .digitLimit m

def openTrace (detail : Nat) (m : Machine) : Machine := { m with tracing := m.tracing || detail != 0 }

def closeTrace (m : Machine) : Machine := { m with tracing := false }

/-- Does something with the trace open; however it ends, the trace is closed after it. -/
def traced (detail : Nat) (act : Machine → Outcome Machine) (m : Machine) : Outcome Machine :=
  (act (m.openTrace detail)).map closeTrace

def runBody (detail : Nat) (body : List ι) (m : Machine) : Outcome Machine :=
  ((m.tell detail (.started body.length)).andThen (runBlock detail body)).andThen (finish detail)

end Machine

def Program.run (detail : Nat) (p : Program) (m : Machine) : Outcome Machine :=
  m.traced detail (Machine.runBody detail p.body)

end StackLang
