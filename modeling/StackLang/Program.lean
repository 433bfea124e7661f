import StackLang.Value.Operator

/-! Programs: flat lists of statements over expressions. Every node has a source line, which no
meaning depends on. -/

namespace StackLang

inductive Expr where
  | number (value : Double) (line : Int)
  | text (value : Text) (line : Int)
  | boolean (value : Bool) (line : Int)
  | var (name : Text) (line : Int)
  | arith (op : ArithOp) (left right : Expr) (line : Int)
  | logic (op : LogicOp) (left right : Expr) (line : Int)
  | not (operand : Expr) (line : Int)
deriving DecidableEq

def Expr.line : Expr → Int
  | number _ line | text _ line | boolean _ line | var _ line => line
  | arith _ _ _ line | logic _ _ _ line | not _ line => line

inductive Stmt where
  | push (e : Expr) (line : Int)
  | bare (e : Expr)
  | print (line : Int)
  | pop (line : Int)
  | dup (line : Int)
  | read (line : Int)
  | convert (target : Kind) (line : Int)
  | store (name : Text) (line : Int)
  | load (name : Text) (line : Int)
  | remove (name : Text) (line : Int)
deriving DecidableEq

/-- A bare expression is on the line of the expression. -/
def Stmt.line : Stmt → Int
  | bare e => e.line
  | push _ line | print line | pop line | dup line | read line => line
  | convert _ line | store _ line | load _ line | remove _ line => line

structure Program where
  body : List Stmt
deriving DecidableEq

/-- The name of a node in tree files and in the trace. -/
def Expr.typeName : Expr → String
  | number .. => "NumberLiteral"
  | text .. => "StringLiteral"
  | boolean .. => "BooleanLiteral"
  | var .. => "VarRef"
  | arith .. => "ArithmeticExpr"
  | logic .. | not .. => "BooleanExpr"

def Stmt.typeName : Stmt → String
  | push .. => "PushStmt"
  | bare e => e.typeName
  | print _ => "PrintStmt"
  | pop _ => "PopStmt"
  | dup _ => "DupStmt"
  | read _ => "ReadStmt"
  | convert .. => "ConvertStmt"
  | store .. => "StoreLocal"
  | load .. => "LoadLocal"
  | remove .. => "RemoveLocal"

end StackLang
