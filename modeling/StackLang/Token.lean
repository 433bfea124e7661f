import StackLang.Number.Layout
import StackLang.Text.Quoted

/-! Tokens: a lexeme with its decoded value, and the line where it begins. Lists of tokens that no
source text produced may hold lexemes of other kinds. -/

namespace StackLang

inductive Lexeme where
  | number (value : Double)
  | text (value : String)
  | boolean (value : Bool)
  | word (value : String)
  | symbol (value : String)
  | other (kind value : String)
deriving DecidableEq

namespace Lexeme

def kindName : Lexeme → String
  | number _ => "Number"
  | text _ => "String"
  | boolean _ => "Boolean"
  | word _ => "Word"
  | symbol _ => "Symbol"
  | other kind _ => kind

/-- The value in token listings. -/
def listed : Lexeme → String
  | number x => x.text .display
  | boolean b => Text.booleanName b
  | text s | word s | symbol s | other _ s => s

/-- The value in messages. -/
def quoted : Lexeme → String
  | number x => x.text .display
  | boolean b => Text.booleanName b
  | text s | word s | symbol s | other _ s => Text.quoted s

def described (l : Lexeme) : String := l.kindName ++ " " ++ l.quoted

def escape (c : Char) : List Char :=
  if c = '\\' ∨ c = '"' ∨ c = '\'' then ['\\', c] else if c = '\n' then ['\\', 'n'] else [c]

/-- Source text that is read as this lexeme again. Numbers have no exponent there. -/
def source : Lexeme → String
  | number x => x.text .source
  | text s => String.ofList ('"' :: s.toList.flatMap escape ++ ['"'])
  | boolean b => if b then "true" else "false"
  | word s | symbol s | other _ s => s

end Lexeme

structure Token where
  lexeme : Lexeme
  line : Int
deriving DecidableEq

/-- One row of a token listing. -/
def Token.listed (t : Token) : String :=
  "( type " ++ t.lexeme.kindName ++ " at line " ++ toString t.line ++ " value: " ++
    t.lexeme.listed ++ " )"

end StackLang
