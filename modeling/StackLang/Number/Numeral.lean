import StackLang.Text.Blank
import StackLang.Text.Digit
import StackLang.Number.Decimal

/-! Text that denotes a double: digits of any script with at most one point and an exponent, or a
word for infinity or NaN. -/

namespace StackLang.Numeral

open StackLang.Text

/-- The double nearest to `whole.fraction · 10^exponent`. -/
def value (negative : Bool) (whole fraction : List Char) (exponent : Int) : Double :=
  Decimal.toDouble negative ⟨digitsValue (whole ++ fraction), exponent - fraction.length⟩

/-- What follows the digits: nothing, or `e` and a signed row of digits. -/
def exponent? : List Char → Option Int
  | [] => some 0
  | c :: rest =>
    let (negative, ds) := takeSign rest
    if (c = 'e' ∨ c = 'E') ∧ ds ≠ [] ∧ ds.all isDigit = true then
      some (if negative then -(digitsValue ds : Int) else digitsValue ds)
    else none

/-- Splits off a point and the digits after it. -/
def takeFraction : List Char → List Char × List Char
  | '.' :: rest => (rest.takeWhile isDigit, rest.dropWhile isDigit)
  | rest => ([], rest)

def unsigned? (negative : Bool) (cs : List Char) : Option Double :=
  let whole := cs.takeWhile isDigit
  let (fraction, rest) := takeFraction (cs.dropWhile isDigit)
  if whole ++ fraction = [] then none
  else (exponent? rest).map (value negative whole fraction)

def named? (negative : Bool) (cs : List Char) : Option Double :=
  let word := String.ofList (cs.map Char.toLower)
  if word = "inf" ∨ word = "infinity" then some (.infinite negative)
  else if word = "nan" then some .nan
  else none

/-- Reads text without white space around it. -/
def read? (cs : List Char) : Option Double := do
  let (negative, rest) := takeSign (← joinDigits false cs)
  named? negative rest <|> unsigned? negative rest

def commaToPoint (c : Char) : Char := if c = ',' then '.' else c

/-- A single comma stands for the point where there is none. -/
def pointed (cs : List Char) : List Char :=
  if cs.count ',' = 1 ∧ '.' ∉ cs then cs.map commaToPoint else cs

/-- Reads text as people type it: white space around it, a comma as the separator. -/
def readTyped? (cs : List Char) : Option Double := read? (pointed (trim cs))

end StackLang.Numeral
