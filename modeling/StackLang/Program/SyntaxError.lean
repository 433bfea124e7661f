import StackLang.Fault
import StackLang.Program.Terminal

/-! Why a token list is no program. -/

namespace StackLang

inductive SyntaxError where
  | emptyStream
  | unknownKeyword (word : String) (line : Int)
  | expectedName (action : LocalAction) (got : Token)
  /-- The second half of `==` or `!=` is missing. -/
  | expectedEqual (op : LogicOp) (got : Token)
  | unexpected (got : Token)
  | unexpectedEnd (last : Token)
deriving DecidableEq

namespace SyntaxError

def firstHalf : LogicOp → String
  | .eq => "="
  | _ => "!"

def message : SyntaxError → String
  | emptyStream => "cannot parse an empty token stream"
  | unknownKeyword word _ => "unrecognized keyword " ++ Text.quoted word
  | expectedName action got =>
    "expected a Word (variable name) after " ++ Text.quoted action.word ++ ", got " ++
      got.lexeme.described
  | expectedEqual op got =>
    "expected '=' after " ++ Text.quoted (firstHalf op) ++ ", got " ++ got.lexeme.described
  | unexpected ⟨.symbol s, _⟩ =>
    "not an arithmetic or boolean expression: unexpected symbol " ++ Text.quoted s
  | unexpected got => "unexpected " ++ got.lexeme.described
  | unexpectedEnd last => "unexpected end of input after " ++ last.lexeme.described

def line? : SyntaxError → Option Int
  | emptyStream => none
  | unknownKeyword _ line => some line
  | expectedName _ got | expectedEqual _ got | unexpected got => some got.line
  | unexpectedEnd last => some last.line

def diagnostic (e : SyntaxError) : Diagnostic := ⟨"ParseError", "ParseError", e.message, e.line?⟩

end SyntaxError

end StackLang
