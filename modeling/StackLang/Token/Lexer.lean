import StackLang.Fault
import StackLang.Number.Numeral
import StackLang.Text.Letter
import StackLang.Token

/-! Source text to tokens. The first character decides what a lexeme is; each scan leaves a shorter
rest, so reading ends. Only a text literal can fail, by having no closing quote. -/

namespace StackLang

inductive LexError where
  | emptySource
  | unterminated (line : Int)
deriving DecidableEq

def LexError.message : LexError → String
  | emptySource => "cannot tokenize empty source"
  | unterminated _ => "unterminated string literal, reached end of input"

def LexError.line? : LexError → Option Int
  | emptySource => none
  | unterminated line => some line

def LexError.diagnostic (e : LexError) : Diagnostic := ⟨"LexError", "LexError", e.message, e.line?⟩

namespace Lexer

open StackLang.Text

def isQuote (c : Char) : Bool := c == '"' || c == '\''

def isSeparator (c : Char) : Bool := c == '.' || c == ','

def isWordChar (c : Char) : Bool := isLetter c || isDigit c || c == '_' || c == '-'

def isGap (c : Char) : Bool := c == ' ' || c == '\t' || c == '\r'

/-- A text literal from behind its opening quote: its value, its line breaks and what follows. -/
structure Literal where
  value : List Char
  breaks : Nat
  rest : List Char

def breakCount (c : Char) : Nat := if c = '\n' then 1 else 0

def unescape (c : Char) : Char := if c = 'n' then '\n' else c

/-- Either quote closes a literal; a backslash takes the next character with it. -/
def scanText? : List Char → Option Literal
  | [] => none
  | c :: cs =>
    if isQuote c then some ⟨[], 0, cs⟩
    else if c = '\\' then
      match cs with
      | [] => none
      | d :: ds =>
        (scanText? ds).map fun l => ⟨unescape d :: l.value, l.breaks + breakCount d, l.rest⟩
    else (scanText? cs).map fun l => ⟨c :: l.value, l.breaks + breakCount c, l.rest⟩

/-- Digits, and after a separator more digits; no fraction counts as the fraction zero. -/
def scanFraction : List Char → List Char × List Char
  | [] => ([], [])
  | c :: cs =>
    if isSeparator c then (cs.takeWhile isDigit, cs.dropWhile isDigit) else ([], c :: cs)

def numberValue (whole fraction : List Char) : Double :=
  Numeral.value false whole (if fraction = [] then ['0'] else fraction) 0

def wordLexeme (w : List Char) : Lexeme :=
  if w = "true".toList then .boolean true
  else if w = "false".toList then .boolean false
  else .word (String.ofList w)

inductive Scan where
  | lexeme (l : Lexeme) (breaks : Nat) (rest : List Char)
  | gap (breaks : Nat) (rest : List Char)
  | unterminated

/-- What the character `c` begins when `cs` follows it. -/
def scan (c : Char) (cs : List Char) : Scan :=
  if isDigit c then
    let (fraction, rest) := scanFraction (cs.dropWhile isDigit)
    .lexeme (.number (numberValue (c :: cs.takeWhile isDigit) fraction)) 0 rest
  else if isQuote c then
    match scanText? cs with
    | some l => .lexeme (.text (String.ofList l.value)) l.breaks l.rest
    | none => .unterminated
  else if isLetter c then
    .lexeme (wordLexeme (c :: cs.takeWhile isWordChar)) 0 (cs.dropWhile isWordChar)
  else if c = '\n' then .gap 1 cs
  else if isGap c then .gap 0 cs
  else .lexeme (.symbol (String.ofList [c])) 0 cs

theorem length_scanText?_le {cs : List Char} {l : Literal} (h : scanText? cs = some l) :
    l.rest.length ≤ cs.length := by
  fun_induction scanText? cs generalizing l with
  | case1 => simp at h
  | case2 c cs => cases h; simp
  | case3 => simp at h
  | case4 _ d ds ih =>
    obtain ⟨m, hm, rfl⟩ := Option.map_eq_some_iff.mp h
    have := ih hm
    simp only [List.length_cons]
    omega
  | case5 c cs hq hc ih =>
    obtain ⟨m, hm, rfl⟩ := Option.map_eq_some_iff.mp h
    have := ih hm
    simp only [List.length_cons]
    omega

theorem length_scanFraction_le (cs : List Char) : (scanFraction cs).2.length ≤ cs.length := by
  cases cs with
  | nil => simp [scanFraction]
  | cons c cs =>
    simp only [scanFraction]
    split
    · exact Nat.le_succ_of_le (List.dropWhile_suffix _).length_le
    · simp

/-- The rest that a scan leaves. -/
def Scan.rest : Scan → List Char
  | lexeme _ _ rest | gap _ rest => rest
  | unterminated => []

theorem length_scan_rest_le (c : Char) (cs : List Char) :
    (scan c cs).rest.length ≤ cs.length := by
  simp only [scan]
  repeat' split
  · exact Nat.le_trans (length_scanFraction_le _) (List.dropWhile_suffix _).length_le
  · exact length_scanText?_le ‹_›
  · simp [Scan.rest]
  · exact (List.dropWhile_suffix _).length_le
  all_goals exact Nat.le_refl _

theorem scan_rest_le {c : Char} {cs : List Char} {s : Scan} (h : scan c cs = s) :
    s.rest.length ≤ cs.length := h ▸ length_scan_rest_le c cs

/-- The tokens of a text whose first line has the given number. -/
def tokens (line : Int) : List Char → Except LexError (List Token)
  | [] => .ok []
  | c :: cs =>
    match h : scan c cs with
    | .unterminated => .error (.unterminated line)
    | .gap breaks rest =>
      have : rest.length ≤ cs.length := scan_rest_le h
      tokens (line + breaks) rest
    | .lexeme l breaks rest =>
      have : rest.length ≤ cs.length := scan_rest_le h
      (tokens (line + breaks) rest).map (⟨l, line⟩ :: ·)
termination_by cs => cs.length

end Lexer

def tokenize (source : String) : Except LexError (List Token) :=
  if source.isEmpty then .error .emptySource else Lexer.tokens 1 source.toList

/-- As `tokenize`, where no source at all may be given; it counts as an empty one. -/
def tokenizeGiven (source : Option String) : Except LexError (List Token) :=
  match source with
  | none => .error .emptySource
  | some s => tokenize s

end StackLang
