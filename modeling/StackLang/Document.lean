import StackLang.Json
import StackLang.Program

/-! What a tree file may hold: nothing, a program, or a single statement. The body of a program is
read loosely, so that it may again hold any of these; expressions are checked. -/

namespace StackLang

inductive Document where
  | nothing
  | program (body : List Document)
  | statement (s : Stmt)

def Program.document (p : Program) : Document := .program (p.body.map .statement)

/-- The kind of document in messages. -/
def Document.typeName : Document → String
  | nothing => "NoneType"
  | program _ => "Program"
  | statement s => s.typeName

def node (typeName : String) (fields : List (Text × Json)) (line : Int) : Json :=
  let named (key : String) (j : Json) : Text × Json := (key, j)
  .object (named "type" (.text typeName) :: fields ++ [named "line" (.integer line)])

def Expr.toJson : Expr → Json
  | number x line => node "NumberLiteral" [("value", .float x)] line
  | text s line => node "StringLiteral" [("value", .text s)] line
  | boolean b line => node "BooleanLiteral" [("value", .boolean b)] line
  | var name line => node "VarRef" [("name", .text name)] line
  | arith op left right line =>
    node "ArithmeticExpr"
      [("op", .text op.name), ("left", left.toJson), ("right", right.toJson)] line
  | logic op left right line =>
    node "BooleanExpr"
      [("op", .text op.name), ("left", left.toJson), ("right", right.toJson)] line
  | not operand line =>
    node "BooleanExpr" [("op", .text "not"), ("left", operand.toJson), ("right", .null)] line

def Stmt.toJson (s : Stmt) : Json :=
  match s with
  | bare e => e.toJson
  | push e line => node s.typeName [("expr", e.toJson)] line
  | convert target line => node s.typeName [("target", .text target.name)] line
  | store name line | load name line | remove name line =>
    node s.typeName [("name", .text name)] line
  | print line | pop line | dup line | read line => node s.typeName [] line

mutual

def Document.toJson : Document → Json
  | .nothing => .null
  | .program body =>
    .object [("type", .text "Program"), ("body", .array (Document.toJsonItems body))]
  | .statement s => s.toJson

def Document.toJsonItems : List Document → List Json
  | [] => []
  | d :: rest => d.toJson :: toJsonItems rest

end

end StackLang
