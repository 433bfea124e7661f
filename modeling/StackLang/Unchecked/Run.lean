import StackLang.Unchecked.Operand

/-! Running an unchecked tree. Parts in good order do what they do elsewhere; of the others, each is
found out where it is used, and not before. -/

namespace StackLang.Unchecked

/-! ### Names -/

/-- What is stored, by name. A name may be any part that can be one. -/
abbrev Bindings := List (Part × Operand)

namespace Bindings

def get? (l : Bindings) (name : Part) : Option Operand :=
  (l.find? (·.1.same name)).map (·.2)

/-- An equal name is kept as it was written first. -/
def set (name : Part) (o : Operand) : Bindings → Bindings
  | [] => [(name, o)]
  | (key, old) :: rest => if key.same name then (key, o) :: rest else (key, old) :: set name o rest

def erase (l : Bindings) (name : Part) : Bindings := l.eraseP (·.1.same name)

end Bindings

/-! ### State -/

structure State where
  /-- Top first. -/
  stack : List Operand
  locals : Bindings
  input : List Text
  printed : Text
  sink : Sink
  /-- Whether a trace file is open. -/
  tracing : Bool
  /-- The lines of the trace, the newest first. -/
  trace : List String

def State.startOn (sink : Sink) (input : List Text) : State :=
  ⟨[], [], input, "", sink, false, []⟩

def State.start (lines : List String) : State := startOn .memory (lines.map Text.ofString)

/-- What has been printed, as it is shown. -/
def State.output (s : State) : String := s.printed.string

def State.traceText (s : State) : String := String.join (s.trace.reverse.map (· ++ "\n"))

/-- A step, which leaves a state behind also when it stops. -/
abbrev Action := EStateM Stop State

namespace Action

def ofExcept {α : Type} : Except Stop α → Action α
  | .ok a => pure a
  | .error e => throw e

/-- The text as a string, for where it is shown. -/
def encodable (t : Text) : Action String := ofExcept (t.encodable.mapError .unencodable)

/-- Tells a line from the given level of detail on. -/
def tell (detail least : Nat) (line? : Unit → Option Text) : Action Unit := do
  if least ≤ detail then
    match line? () with
    | some line =>
      let line ← encodable line
      modify fun s => { s with trace := line :: s.trace }
    | none => throw .digitLimit

def push (o : Operand) : Action Unit := modify fun s => { s with stack := o :: s.stack }

def pop : Action Operand := do
  match (← get).stack with
  | [] => throw (.ofFault .emptyPop)
  | o :: rest =>
    modify fun s => { s with stack := rest }
    pure o

def peek : Action Operand := do
  match (← get).stack with
  | [] => throw (.ofFault .emptyPeek)
  | o :: _ => pure o

/-- Stops at a part that cannot be a name. -/
def requireName (p : Part) : Action Unit :=
  match p.unhashable? with
  | some typeName => throw (.misuse (.unhashable typeName))
  | none => pure ()

def lookUp (name : Part) : Action Operand := do
  requireName name
  match (← get).locals.get? name with
  | some o => pure o
  | none => throw (.ofFault (.unbound name.plain))

/-! ### Statements -/

def printTop : Action Unit := do
  match (← peek).text? with
  | some text =>
    match (← get).sink.refusal? text with
    | none => modify fun s => { s with printed := s.printed ++ text }
    | some e => throw (.unencodable e)
  | none => throw .digitLimit

def dup : Action Unit := do
  let o ← pop
  push o
  push o

def readLine : Action Unit := do
  match (← get).input with
  | [] => throw (.ofFault .endOfInput)
  | line :: rest =>
    modify fun s => { s with input := rest }
    push (.value (.text line))

/-- The operand is gone before the target is looked at. -/
def convertTop (target : Part) : Action Unit := do
  let o ← pop
  requireName target
  match target.plain.string?.bind Kind.ofName? with
  | some kind => push (← ofExcept (o.convert kind))
  | none => throw (.ofFault (.unknownTarget target.plain))

def storeTop (detail : Nat) (name : Part) : Action Unit := do
  let o ← pop
  requireName name
  modify fun s => { s with locals := s.locals.set name o }
  tell detail 2 fun _ => o.shown?.map fun shown => "stloc " ++ name.plain ++ " = " ++ shown

/-- Where nothing is stored, the name is not looked at. -/
def dropLocal (detail : Nat) (name : Part) : Action Unit := do
  let locals := (← get).locals
  if !locals.isEmpty then requireName name
  modify fun s => { s with locals := s.locals.erase name }
  tell detail 2 fun _ => do
    let old ← match locals.get? name with
      | some o => o.shown?
      | none => some (Text.ofString "None")
    pure ("rmloc " ++ name.plain ++ " (was " ++ old ++ ")")

/-- Replaces the left operand on top and the right one below by the result. -/
def combine (apply : Operand → Operand → Except LooseFault Operand) : Action Unit := do
  let a ← pop
  let b ← pop
  push (← ofExcept ((apply a b).mapError (.fault · .null)))

end Action

namespace Part

/-- Leaves the operand that an expression stands for on the stack. -/
def eval : Part → Action Unit
  | node .literal _ => throw (.misuse (.unsupported .literal))
  | node .number [float x, _] => Action.push (.value (.float x))
  | node .text [p, _] => Action.push (.ofText p)
  | node .boolean [p, _] => Action.push (.ofTruth p)
  | node .var [name, _] => do Action.push (← Action.lookUp name)
  | node .arith [left, op, right, _] => do
    right.eval
    left.eval
    Action.combine (Operand.arithmetic op.plain)
  | node .logic [left, op, right, _] =>
    if op.plain = "not" then do
      left.eval
      Action.push (← Action.ofExcept (← Action.pop).negate)
    else do
      right.eval
      left.eval
      Action.combine (Operand.compare op.plain)
  | p => throw (.misuse (.unsupported (.expression p.className)))
termination_by structural p => p

def lineText (p : Part) : Text :=
  match p.line? with
  | some line => line.plain
  | none => "?"

def exec (detail : Nat) (p : Part) : Action Unit := do
  Action.tell detail 2 fun _ => some ("line " ++ p.lineText ++ ": " ++ p.typeName)
  match p with
  | node .push [e, _] => e.eval
  | node .print _ => Action.printTop
  | node .pop _ => discard Action.pop
  | node .dup _ => Action.dup
  | node .read _ => Action.readLine
  | node .convert [target, _] => Action.convertTop target
  | node .store [name, _] => Action.storeTop detail name
  | node .load [name, _] => do Action.push (← Action.lookUp name)
  | node .remove [name, _] => Action.dropLocal detail name
  | node .literal _ | node .number _ | node .text _ | node .boolean _ | node .var _ | node .arith _
  | node .logic _ => p.eval
  | p => throw (.misuse (.unsupported (.statement p.className)))

/-- Executes a part as one of a body; a fault gets the line of the part. -/
def runItem (detail : Nat) (p : Part) : Action Unit := do
  try p.exec detail
  catch
    | .fault f _ =>
      let line := p.line?.getD .null
      Action.tell detail 1 fun _ => some ("error: " ++ f.text line)
      throw (.fault f line)
    | stop => throw stop
  let stack := (← get).stack
  Action.tell detail 3 fun _ => (Operand.describe? stack).map ("  stack=" ++ ·)

/-- The parts of a body, each of which is executed. -/
def runBody (detail : Nat) (body : Part) : Action Unit := do
  match body.elements? with
  | none => throw (.misuse (.noLength body.typeName))
  | some items =>
    Action.tell detail 1 fun _ => some ("run: " ++ toString items.length ++ " statements")
    items.forM (runItem detail)
    match Operand.describe? (← get).stack with
    | some stack => Action.tell detail 1 fun _ => some ("run finished, stack=" ++ stack)
    | none => throw .digitLimit

/-- Only a program has a body. -/
def body : Part → Except Misuse Part
  | node .program [body] => .ok body
  | p => .error (.unsupported (.noBody p.typeName))

/-- The parts of the body, one by one. -/
def items (p : Part) : Except Misuse (List Part) := do
  let body ← p.body
  match body.elements? with
  | some items => pure items
  | none => throw (.notIterable body.typeName)

/-- The trace file is open during the run, and closed however it ends. -/
def run (detail : Nat) (p : Part) : Action Unit := do
  modify fun s => { s with tracing := s.tracing || detail != 0 }
  try
    match p.body with
    | .ok body => body.runBody detail
    | .error m => throw (.misuse m)
  finally modify fun s => { s with tracing := false }

end Part

end StackLang.Unchecked
