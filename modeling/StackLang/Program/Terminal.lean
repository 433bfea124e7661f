import StackLang.Program
import StackLang.Token

/-! What a lexeme is to the grammar: a keyword, an operand, a name, an operator sign, or nothing the
grammar has a use for. -/

namespace StackLang

inductive LocalAction where
  | store | load | remove
deriving DecidableEq

inductive Keyword where
  | print | push | pop | dup | read
  | convert (target : Kind)
  | onLocal (action : LocalAction)
deriving DecidableEq

inductive Sign where
  | plus | minus | star | slash | percent | equal | less | more | bang
deriving DecidableEq

inductive Terminal where
  | keyword (k : Keyword)
  | and
  | or
  | name (s : String)
  | number (x : Double)
  | text (s : String)
  | boolean (b : Bool)
  | sign (s : Sign)
  | unknown
deriving DecidableEq

def keywords : List (String × Keyword) :=
  [("print", .print), ("push", .push), ("pop", .pop), ("dup", .dup), ("read", .read),
   ("cint", .convert .integer), ("cfloat", .convert .float), ("cstr", .convert .text),
   ("cbool", .convert .boolean), ("stloc", .onLocal .store), ("ldloc", .onLocal .load),
   ("rmloc", .onLocal .remove)]

def signs : List (String × Sign) :=
  [("+", .plus), ("-", .minus), ("*", .star), ("/", .slash), ("%", .percent), ("=", .equal),
   ("<", .less), (">", .more), ("!", .bang)]

def Terminal.ofWord (s : String) : Terminal :=
  match keywords.lookup s with
  | some k => .keyword k
  | none => if s = "and" then .and else if s = "or" then .or else .name s

def Terminal.ofSymbol (s : String) : Terminal :=
  match signs.lookup s with
  | some g => .sign g
  | none => .unknown

def Lexeme.terminal : Lexeme → Terminal
  | word s => .ofWord s
  | number x => .number x
  | text s => .text s
  | boolean b => .boolean b
  | symbol s | other _ s => .ofSymbol s

/-- The word that starts a statement on a local. -/
def LocalAction.word : LocalAction → String
  | store => "stloc"
  | load => "ldloc"
  | remove => "rmloc"

end StackLang
