import StackLang.Program.SyntaxError
import StackLang.Token.Lexer

/-! # Tokens to programs

The parser reads one token at a time and refuses the first one that no program can have there.
Chains of operators group to the right. The right operand of `*`, `/` and `%` is a term: in it a
`+` or `-` ends the chain, and a `-` then begins the next statement. -/

namespace StackLang

inductive BinaryOp where
  | arith (op : ArithOp)
  | logic (op : LogicOp)
deriving DecidableEq

namespace BinaryOp

/-- Whether the right operand is a term. -/
def isTight : BinaryOp → Bool
  | arith .multiply | arith .divide | arith .modulo => true
  | _ => false

/-- A binary node is on the line of its left operand. -/
def build : BinaryOp → Expr → Expr → Expr
  | arith op, left, right => .arith op left right left.line
  | logic op, left, right => .logic op left right left.line

end BinaryOp

inductive Unary where
  | minus | bang
deriving DecidableEq

/-- `-e` is `0 - e`; both signs leave the node on the line of the operand. -/
def Unary.build : Unary → Expr → Expr
  | minus, e => .arith .subtract (.number .zero e.line) e e.line
  | bang, e => .not e e.line

namespace Parser

inductive Opening where
  | push (line : Int)
  | bare
deriving DecidableEq

/-- An operand and the operator after it, waiting for the right operand. -/
structure Pending where
  left : Expr
  op : BinaryOp
deriving DecidableEq

/-- The expression being read, up to its current operand; the newest operator first. -/
structure Chain where
  opening : Opening
  pending : List Pending
deriving DecidableEq

namespace Chain

/-- Whether `+` and `-` may go on after the current operand. -/
def isLoose (c : Chain) : Bool :=
  match c.pending with
  | [] => true
  | p :: _ => !p.op.isTight

def extend (c : Chain) (left : Expr) (op : BinaryOp) : Chain :=
  { c with pending := ⟨left, op⟩ :: c.pending }

def closeExpr (c : Chain) (last : Expr) : Expr :=
  c.pending.foldl (fun right p => p.op.build p.left right) last

def close (c : Chain) (last : Expr) : Stmt :=
  match c.opening with
  | .push line => .push (c.closeExpr last) line
  | .bare => .bare (c.closeExpr last)

end Chain

/-- What the parser is in the middle of. -/
inductive Focus where
  | boundary
  | name (action : LocalAction) (line : Int)
  /-- An operand has to come; the signs before it, the newest first. -/
  | operand (c : Chain) (signs : List Unary)
  /-- After `<` or `>`: an operand, or `=` first. -/
  | operandOrEqual (c : Chain) (left : Expr) (strict orEqual : LogicOp)
  /-- After the first half of `==` or `!=`. -/
  | equal (c : Chain) (left : Expr) (op : LogicOp)
  /-- An operand has been read. -/
  | complete (c : Chain) (last : Expr)
deriving DecidableEq

/-- The finished statements, the newest first, and what comes after them. -/
structure State where
  done : List Stmt
  focus : Focus
deriving DecidableEq

namespace State

def initial : State := ⟨[], .boundary⟩

def atom? (t : Token) : Option Expr :=
  match t.lexeme.terminal with
  | .number x => some (.number x t.line)
  | .text s => some (.text s t.line)
  | .boolean b => some (.boolean b t.line)
  | .name s => some (.var s t.line)
  | _ => none

def unary? (t : Token) : Option Unary :=
  match t.lexeme.terminal with
  | .sign .minus => some .minus
  | .sign .bang => some .bang
  | _ => none

def feedOperand (done : List Stmt) (c : Chain) (signs : List Unary) (t : Token) :
    Except SyntaxError State :=
  match atom? t, unary? t with
  | some e, _ => .ok ⟨done, .complete c (signs.foldl (fun e u => u.build e) e)⟩
  | none, some u => .ok ⟨done, .operand c (u :: signs)⟩
  | none, none => .error (.unexpected t)

def begin (done : List Stmt) (t : Token) : Except SyntaxError State :=
  match t.lexeme.terminal with
  | .name s => .error (.unknownKeyword s t.line)
  | .keyword .push => .ok ⟨done, .operand ⟨.push t.line, []⟩ []⟩
  | .keyword .print => .ok ⟨.print t.line :: done, .boundary⟩
  | .keyword .pop => .ok ⟨.pop t.line :: done, .boundary⟩
  | .keyword .dup => .ok ⟨.dup t.line :: done, .boundary⟩
  | .keyword .read => .ok ⟨.read t.line :: done, .boundary⟩
  | .keyword (.convert target) => .ok ⟨.convert target t.line :: done, .boundary⟩
  | .keyword (.onLocal action) => .ok ⟨done, .name action t.line⟩
  | _ => feedOperand done ⟨.bare, []⟩ [] t

def feedName (done : List Stmt) (action : LocalAction) (line : Int) (t : Token) :
    Except SyntaxError State :=
  match t.lexeme.terminal, action with
  | .name s, .store => .ok ⟨.store s line :: done, .boundary⟩
  | .name s, .load => .ok ⟨.load s line :: done, .boundary⟩
  | .name s, .remove => .ok ⟨.remove s line :: done, .boundary⟩
  | _, _ => .error (.expectedName action t)

/-- How an operator goes on after the operand `last`. -/
def goOn? (c : Chain) (last : Expr) (t : Token) : Option Focus :=
  let next (op : BinaryOp) : Option Focus := some (.operand (c.extend last op) [])
  match t.lexeme.terminal with
  | .sign .plus => if c.isLoose then next (.arith .add) else none
  | .sign .minus => if c.isLoose then next (.arith .subtract) else none
  | .sign .star => next (.arith .multiply)
  | .sign .slash => next (.arith .divide)
  | .sign .percent => next (.arith .modulo)
  | .and => next (.logic .and)
  | .or => next (.logic .or)
  | .sign .less => some (.operandOrEqual c last .lt .le)
  | .sign .more => some (.operandOrEqual c last .gt .ge)
  | .sign .equal => some (.equal c last .eq)
  | .sign .bang => some (.equal c last .ne)
  | _ => none

def isEqual (t : Token) : Bool := t.lexeme.terminal == .sign .equal

/-- Reads one token. -/
def feed (s : State) (t : Token) : Except SyntaxError State :=
  match s.focus with
  | .boundary => begin s.done t
  | .name action line => feedName s.done action line t
  | .operand c signs => feedOperand s.done c signs t
  | .operandOrEqual c left strict orEqual =>
    if isEqual t then .ok ⟨s.done, .operand (c.extend left (.logic orEqual)) []⟩
    else feedOperand s.done (c.extend left (.logic strict)) [] t
  | .equal c left op =>
    if isEqual t then .ok ⟨s.done, .operand (c.extend left (.logic op)) []⟩
    else .error (.expectedEqual op t)
  | .complete c last =>
    match goOn? c last t with
    | some focus => .ok ⟨s.done, focus⟩
    | none => begin (c.close last :: s.done) t

/-- The program, if the tokens may end here. -/
def finish? (s : State) : Option Program :=
  match s.focus with
  | .boundary => some ⟨s.done.reverse⟩
  | .complete c last => some ⟨(c.close last :: s.done).reverse⟩
  | _ => none

end State

end Parser

def parse (ts : List Token) : Except SyntaxError Program :=
  match ts.getLast? with
  | none => .error .emptyStream
  | some last =>
    match ts.foldlM Parser.State.feed Parser.State.initial with
    | .error e => .error e
    | .ok s =>
      match s.finish? with
      | some p => .ok p
      | none => .error (.unexpectedEnd last)

/-- Why a source text is no program. -/
inductive SourceError where
  | lexical (e : LexError)
  | grammar (e : SyntaxError)
deriving DecidableEq

def SourceError.diagnostic : SourceError → Diagnostic
  | lexical e => e.diagnostic
  | grammar e => e.diagnostic

def parseProgram (source : String) : Except SourceError Program :=
  match tokenize source with
  | .error e => .error (.lexical e)
  | .ok ts => (parse ts).mapError .grammar

end StackLang
