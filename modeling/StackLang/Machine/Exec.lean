import StackLang.Machine.Eval

/-! Statements on the machine. -/

namespace StackLang

namespace Machine

/-- Takes the top off the stack and goes on with it. -/
def popThen (m : Machine) (next : Value → Machine → Outcome Machine) : Outcome Machine :=
  match m.pop with
  | .ok (v, m) => next v m
  | .error f => m.fail f

def printTop (m : Machine) : Outcome Machine :=
  match m.peek with
  | .error f => m.fail f
  | .ok v =>
    match v.text? with
    | none => .failed .digitLimit m
    | some t =>
      match m.sink.refusal? t with
      | none => .ok (m.print t)
      | some e => .failed (.unencodable e) m

def drop (m : Machine) : Outcome Machine := m.popThen fun _ m => .ok m

def dup (m : Machine) : Outcome Machine := m.popThen fun v m => .ok ((m.push v).push v)

def readLine (m : Machine) : Outcome Machine :=
  match m.input with
  | [] => m.fail .endOfInput
  | line :: rest => .ok ({ m with input := rest }.push (.text line))

/-- A value that cannot be converted is gone. -/
def convertTop (target : Kind) (m : Machine) : Outcome Machine :=
  m.popThen fun v m =>
    match v.convert target with
    | .ok w => .ok (m.push w)
    | .error f => m.fail (.conversion f)

def storeTop (detail : Nat) (name : Text) (m : Machine) : Outcome Machine :=
  m.popThen fun v m => (m.setLocal name v).tell detail (.stored name v)

def loadLocal (name : Text) (m : Machine) : Outcome Machine :=
  match m.getLocal name with
  | .ok v => .ok (m.push v)
  | .error f => m.fail f

def dropLocal (detail : Nat) (name : Text) (m : Machine) : Outcome Machine :=
  (m.removeLocal name).2.tell detail (.removed name (m.removeLocal name).1)

end Machine

/-- The effect of a statement, at a level of detail. -/
def Stmt.exec (detail : Nat) : Stmt → Machine → Outcome Machine
  | push e _, m | bare e, m => m.eval e
  | print _, m => m.printTop
  | pop _, m => m.drop
  | dup _, m => m.dup
  | read _, m => m.readLine
  | convert target _, m => m.convertTop target
  | store name _, m => m.storeTop detail name
  | load name _, m => m.loadLocal name
  | remove name _, m => m.dropLocal detail name

end StackLang
