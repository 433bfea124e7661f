import StackLang.Unchecked

/-! Unchecked trees to JSON. Nodes are written where nodes belong, and everywhere else the fields are
written as they are. -/

namespace StackLang.Unchecked

/-- What cannot be written, by the name of its type. -/
inductive WriteError where
  | notNode (typeName : String)
  /-- Found in the place of a body. -/
  | notIterable (typeName : String)

def WriteError.message : WriteError → String
  | notNode typeName => "Unsupported node for serialization: " ++ typeName
  | notIterable typeName => "'" ++ typeName ++ "' object is not iterable"

/-- A node with its fields written. -/
def entry (t : NodeType) (fields : List (Text × Json)) : Json :=
  .object (("type", .text t.name) :: fields)

namespace Part

mutual

def write : Part → Except WriteError Json
  | null => .ok .null
  | node .program [list items] => do pure (entry .program [("body", .array (← writeItems items))])
  | node .program [text s] =>
    if s.isEmpty then .ok (entry .program [("body", .array [])])
    else .error (.notNode (text s).typeName)
  | node .program [p] => .error (.notIterable p.typeName)
  | node .push [e, line] => do pure (entry .push [("expr", ← e.write), ("line", line.data)])
  | node .arith [left, op, right, line] => do
    let l ← left.write
    let r ← right.write
    pure (entry .arith [("op", op.data), ("left", l), ("right", r), ("line", line.data)])
  | node .logic [left, op, right, line] => do
    let l ← left.write
    let r ← right.write
    pure (entry .logic [("op", op.data), ("left", l), ("right", r), ("line", line.data)])
  | node t fields =>
    if t.isFamily then .error (.notNode t.name)
    else .ok (entry t ((t.fieldNames.map Text.ofString).zip (dataItems fields)))
  | p => .error (.notNode p.typeName)
termination_by structural p => p

def writeItems : List Part → Except WriteError (List Json)
  | [] => .ok []
  | p :: rest => do
    let j ← p.write
    let js ← writeItems rest
    pure (j :: js)
termination_by structural ps => ps

end

end Part

end StackLang.Unchecked
