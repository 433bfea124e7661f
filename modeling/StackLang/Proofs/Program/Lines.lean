import StackLang.Program.Parser
import StackLang.Proofs.Token.Joining

/-! # Lines in programs

The parser reads lines, but only passes them on. When the tokens are moved to other lines, the nodes
of the program move with them, and so do syntax errors; nothing else changes. -/

namespace StackLang

/-- The same expression with every node on another line. -/
def Expr.mapLines (f : Int → Int) : Expr → Expr
  | number x line => number x (f line)
  | text s line => text s (f line)
  | boolean b line => boolean b (f line)
  | var name line => var name (f line)
  | arith op left right line => arith op (left.mapLines f) (right.mapLines f) (f line)
  | logic op left right line => logic op (left.mapLines f) (right.mapLines f) (f line)
  | not e line => not (e.mapLines f) (f line)

def Stmt.mapLines (f : Int → Int) : Stmt → Stmt
  | push e line => push (e.mapLines f) (f line)
  | bare e => bare (e.mapLines f)
  | print line => print (f line)
  | pop line => pop (f line)
  | dup line => dup (f line)
  | read line => read (f line)
  | convert target line => convert target (f line)
  | store name line => store name (f line)
  | load name line => load name (f line)
  | remove name line => remove name (f line)

def Program.mapLines (f : Int → Int) (p : Program) : Program := ⟨p.body.map (Stmt.mapLines f)⟩

def SyntaxError.mapLine (f : Int → Int) : SyntaxError → SyntaxError
  | emptyStream => emptyStream
  | unknownKeyword word line => unknownKeyword word (f line)
  | expectedName action got => expectedName action (got.mapLine f)
  | expectedEqual op got => expectedEqual op (got.mapLine f)
  | unexpected got => unexpected (got.mapLine f)
  | unexpectedEnd last => unexpectedEnd (last.mapLine f)

/-- What a reader answers when the lines in its answer are moved. -/
def SyntaxError.moved {α : Type} (f : Int → Int) (move : α → α) (r : Except SyntaxError α) :
    Except SyntaxError α :=
  (r.map move).mapError (SyntaxError.mapLine f)

variable (f : Int → Int)

@[simp] theorem Expr.line_mapLines (e : Expr) : (e.mapLines f).line = f e.line := by
  cases e <;> rfl

@[simp] theorem Stmt.line_mapLines (s : Stmt) : (s.mapLines f).line = f s.line := by
  cases s <;> first | rfl | exact Expr.line_mapLines f _

theorem SyntaxError.message_mapLine (e : SyntaxError) : (e.mapLine f).message = e.message := by
  cases e with
  | unexpected got =>
    obtain ⟨lexeme, line⟩ := got
    cases lexeme <;> rfl
  | emptyStream | unknownKeyword | expectedName | expectedEqual | unexpectedEnd => rfl

theorem BinaryOp.build_mapLines (op : BinaryOp) (left right : Expr) :
    op.build (left.mapLines f) (right.mapLines f) = (op.build left right).mapLines f := by
  cases op <;> simp [build, Expr.mapLines]

theorem Unary.build_mapLines (u : Unary) (e : Expr) :
    u.build (e.mapLines f) = (u.build e).mapLines f := by
  cases u <;> simp [build, Expr.mapLines]

namespace Parser

def Opening.mapLine : Opening → Opening
  | push line => push (f line)
  | bare => bare

def Pending.mapLines (p : Pending) : Pending := { p with left := p.left.mapLines f }

def Chain.mapLines (c : Chain) : Chain := ⟨c.opening.mapLine f, c.pending.map (Pending.mapLines f)⟩

def Focus.mapLines : Focus → Focus
  | boundary => boundary
  | name action line => name action (f line)
  | operand c signs => operand (c.mapLines f) signs
  | operandOrEqual c left strict orEqual =>
    operandOrEqual (c.mapLines f) (left.mapLines f) strict orEqual
  | equal c left op => equal (c.mapLines f) (left.mapLines f) op
  | complete c last => complete (c.mapLines f) (last.mapLines f)

def State.mapLines (s : State) : State := ⟨s.done.map (Stmt.mapLines f), s.focus.mapLines f⟩

namespace Chain

theorem isLoose_mapLines (c : Chain) : (c.mapLines f).isLoose = c.isLoose := by
  obtain ⟨opening, pending⟩ := c
  cases pending <;> rfl

theorem closeExpr_mapLines (c : Chain) (last : Expr) :
    (c.mapLines f).closeExpr (last.mapLines f) = (c.closeExpr last).mapLines f := by
  obtain ⟨opening, pending⟩ := c
  simp only [closeExpr, mapLines, List.foldl_map]
  induction pending generalizing last with
  | nil => rfl
  | cons p pending ih =>
    rw [List.foldl_cons, List.foldl_cons, ← ih, ← BinaryOp.build_mapLines]
    rfl

theorem close_mapLines (c : Chain) (last : Expr) :
    (c.mapLines f).close (last.mapLines f) = (c.close last).mapLines f := by
  have hexpr := c.closeExpr_mapLines f last
  obtain ⟨opening, pending⟩ := c
  cases opening with
  | push line | bare =>
    simp only [close, mapLines, Opening.mapLine, Stmt.mapLines] at hexpr ⊢
    rw [hexpr]

end Chain

namespace State

open SyntaxError (moved)

theorem atom?_mapLine (t : Token) : atom? (t.mapLine f) = (atom? t).map (Expr.mapLines f) := by
  simp only [atom?, Token.mapLine]
  cases t.lexeme.terminal <;> rfl

theorem foldl_build_mapLines (signs : List Unary) (e : Expr) :
    signs.foldl (fun e u => u.build e) (e.mapLines f) =
      (signs.foldl (fun e u => u.build e) e).mapLines f := by
  induction signs generalizing e with
  | nil => rfl
  | cons u signs ih => rw [List.foldl_cons, List.foldl_cons, Unary.build_mapLines, ih]

section Steps

variable (done : List Stmt) (c : Chain) (t : Token)

theorem feedOperand_mapLines (signs : List Unary) :
    feedOperand (done.map (Stmt.mapLines f)) (c.mapLines f) signs (t.mapLine f) =
      moved f (State.mapLines f) (feedOperand done c signs t) := by
  have hunary : unary? (t.mapLine f) = unary? t := rfl
  simp only [feedOperand, atom?_mapLine, hunary]
  cases atom? t with
  | some e =>
    simp only [Option.map_some, foldl_build_mapLines]
    rfl
  | none => cases unary? t <;> rfl

theorem begin_mapLines :
    begin (done.map (Stmt.mapLines f)) (t.mapLine f) =
      moved f (State.mapLines f) (begin done t) := by
  have hbare := feedOperand_mapLines f done ⟨.bare, []⟩ t []
  have hterminal : (t.mapLine f).lexeme.terminal = t.lexeme.terminal := rfl
  simp only [begin, hterminal]
  cases t.lexeme.terminal with
  | keyword k => cases k <;> rfl
  | name s => rfl
  | and | or | number | text | boolean | sign | unknown => exact hbare

theorem feedName_mapLines (action : LocalAction) (line : Int) :
    feedName (done.map (Stmt.mapLines f)) action (f line) (t.mapLine f) =
      moved f (State.mapLines f) (feedName done action line t) := by
  have hterminal : (t.mapLine f).lexeme.terminal = t.lexeme.terminal := rfl
  simp only [feedName, hterminal]
  cases t.lexeme.terminal with
  | name s => cases action <;> rfl
  | keyword | and | or | number | text | boolean | sign | unknown => rfl

theorem goOn?_mapLines (last : Expr) :
    goOn? (c.mapLines f) (last.mapLines f) (t.mapLine f) =
      (goOn? c last t).map (Focus.mapLines f) := by
  have hterminal : (t.mapLine f).lexeme.terminal = t.lexeme.terminal := rfl
  simp only [goOn?, hterminal, Chain.isLoose_mapLines]
  cases t.lexeme.terminal with
  | sign s =>
    cases s with
    | plus | minus => cases c.isLoose <;> rfl
    | star | slash | percent | equal | less | more | bang => rfl
  | keyword | name | and | or | number | text | boolean | unknown => rfl

end Steps

/-- One token on another line moves the state along. -/
theorem feed_mapLines (s : State) (t : Token) :
    (s.mapLines f).feed (t.mapLine f) = moved f (State.mapLines f) (s.feed t) := by
  have hequal : isEqual (t.mapLine f) = isEqual t := rfl
  obtain ⟨done, focus⟩ := s
  cases focus with
  | boundary => exact begin_mapLines f done t
  | name action line => exact feedName_mapLines f done t action line
  | operand c signs => exact feedOperand_mapLines f done c t signs
  | operandOrEqual c left strict orEqual =>
    have hoperand := feedOperand_mapLines f done (c.extend left (.logic strict)) t []
    simp only [feed, mapLines, Focus.mapLines, hequal]
    cases isEqual t with
    | true => rfl
    | false => exact hoperand
  | equal c left op =>
    simp only [feed, mapLines, Focus.mapLines, hequal]
    cases isEqual t <;> rfl
  | complete c last =>
    simp only [feed, mapLines, Focus.mapLines, goOn?_mapLines]
    cases goOn? c last t with
    | some focus => rfl
    | none =>
      simp only [Option.map_none, Chain.close_mapLines]
      exact begin_mapLines f (c.close last :: done) t

theorem foldlM_feed_mapLines (ts : List Token) (s : State) :
    (ts.map (Token.mapLine f)).foldlM feed (s.mapLines f) =
      moved f (State.mapLines f) (ts.foldlM feed s) := by
  induction ts generalizing s with
  | nil => rfl
  | cons t ts ih =>
    rw [List.map_cons, List.foldlM_cons, List.foldlM_cons, feed_mapLines]
    cases s.feed t with
    | error e => rfl
    | ok s' => exact ih s'

theorem finish?_mapLines (s : State) :
    (s.mapLines f).finish? = s.finish?.map (Program.mapLines f) := by
  obtain ⟨done, focus⟩ := s
  cases focus with
  | boundary => simp [finish?, mapLines, Focus.mapLines, Program.mapLines]
  | complete c last =>
    simp [finish?, mapLines, Focus.mapLines, Program.mapLines, Chain.close_mapLines]
  | name | operand | operandOrEqual | equal => rfl

end State

end Parser

/-- Reading tokens commutes with moving them to other lines. -/
theorem parse_mapLine (ts : List Token) :
    parse (ts.map (Token.mapLine f)) = SyntaxError.moved f (Program.mapLines f) (parse ts) := by
  have hinitial : Parser.State.initial.mapLines f = .initial := rfl
  have hfold := Parser.State.foldlM_feed_mapLines f ts .initial
  rw [hinitial] at hfold
  simp only [parse, List.getLast?_map]
  cases ts.getLast? with
  | none => rfl
  | some last =>
    simp only [Option.map_some, hfold]
    cases ts.foldlM Parser.State.feed .initial with
    | error e => rfl
    | ok s =>
      simp only [SyntaxError.moved, Except.map, Except.mapError, Parser.State.finish?_mapLines]
      cases s.finish? <;> rfl

end StackLang
