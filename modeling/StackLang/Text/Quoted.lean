import StackLang.Text
import StackLang.Text.Printable

/-! Text as messages show it: between single quotes, or between double quotes where it holds a
single quote and no double one. What cannot be printed is written as an escape; so is a half of a
surrogate pair, here and wherever characters only can stand. -/

namespace StackLang.Text

def hex (width n : Nat) : List Char :=
  let ds := Nat.toDigits 16 n
  List.replicate (width - ds.length) '0' ++ ds

def escaped (quote c : Char) : List Char :=
  if c = quote ∨ c = '\\' then ['\\', c]
  else if c = '\n' then ['\\', 'n']
  else if c = '\r' then ['\\', 'r']
  else if c = '\t' then ['\\', 't']
  else if isPrintable c then [c]
  else if c.toNat < 0x100 then '\\' :: 'x' :: hex 2 c.toNat
  else if c.toNat < 0x10000 then '\\' :: 'u' :: hex 4 c.toNat
  else '\\' :: 'U' :: hex 8 c.toNat

def quoteFor (cs : List Char) : Char :=
  if '\'' ∈ cs ∧ '"' ∉ cs then '"' else '\''

def escapedHalf (n : Fin 0x800) : List Char := '\\' :: 'u' :: hex 4 (0xd800 + n)

def escapedCode (quote : Char) : Code → List Char
  | .char c => escaped quote c
  | .half n => escapedHalf n

def quoted (t : Text) : String :=
  let quote := quoteFor t.chars
  String.ofList (quote :: t.codes.flatMap (escapedCode quote) ++ [quote])

/-- The text without quotes, in which only halves are escapes. -/
def withEscapes (t : Text) : String :=
  String.ofList <| t.codes.flatMap fun
    | .char c => [c]
    | .half n => escapedHalf n

/-- A truth value in messages. -/
def booleanName (b : Bool) : String := if b then "True" else "False"

end StackLang.Text
