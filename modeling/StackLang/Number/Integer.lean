import StackLang.Text.Blank
import StackLang.Text.Digit

/-! Integers and their decimal text. Text of more than `digitLimit` digits is neither read nor
written. -/

namespace StackLang.Integer

open StackLang.Text

def digitLimit : Nat := 4300

/-- The least magnitude that is too long to be written. -/
def textLimit : Nat := Nat.pow 10 digitLimit

theorem lt_textLimit {n digits : Nat} (h : n < Nat.pow 10 digits) (hdigits : digits ≤ digitLimit) :
    n < textLimit := by
  unfold textLimit
  generalize digitLimit = limit at hdigits
  exact Nat.lt_of_lt_of_le h (Nat.pow_le_pow_right (by decide) hdigits)

def text (n : Int) : String :=
  String.ofList ((if n < 0 then ['-'] else []) ++ Nat.toDigits 10 n.natAbs)

/-- The text of an integer that is not too long. -/
def text? (n : Int) : Option String :=
  if n.natAbs < textLimit then some (text n) else none

def ofMagnitude (negative : Bool) (n : Nat) : Int := if negative then -(n : Int) else n

inductive ReadError where
  | malformed
  | tooLong (digits : Nat)
deriving DecidableEq

/-- An optional sign and digits of any script, with nothing else but white space around them. -/
def read (cs : List Char) : Except ReadError Int :=
  let (negative, ds) := takeSign (trim cs)
  if ds = [] ∨ ds.all isDigit = false then .error .malformed
  else if digitLimit < ds.length then .error (.tooLong ds.length)
  else .ok (ofMagnitude negative (digitsValue ds))

/-- The blanks around a number in a tree file: the separators U+001C to U+001F are not among them. -/
def isPadding (c : Char) : Bool := isBlank c && !(decide (0x1c ≤ c.toNat) && decide (c.toNat ≤ 0x1f))

def isRunChar (c : Char) : Bool := isDigit c || c == '_'

/-- As `read`, with underscores between digits. The digits are counted before what follows them is
looked at. -/
def readLoose (cs : List Char) : Except ReadError Int :=
  let (negative, rest) := takeSign (cs.dropWhile isPadding)
  match joinDigits false (rest.takeWhile isRunChar) with
  | none | some [] => .error .malformed
  | some ds =>
    if digitLimit < ds.length then .error (.tooLong ds.length)
    else if (rest.dropWhile isRunChar).all isPadding then .ok (ofMagnitude negative (digitsValue ds))
    else .error .malformed

end StackLang.Integer

namespace StackLang

/-- Shown when an integer is too long to be written. -/
def digitLimitMessage : String :=
  "Exceeds the limit (4300 digits) for integer string conversion; " ++
    "use sys.set_int_max_str_digits() to increase the limit"

/-- Shown when text of an integer is too long to be read. -/
def tooManyDigitsMessage (digits : Nat) : String :=
  "Exceeds the limit (4300 digits) for integer string conversion: value has " ++
    toString digits ++ " digits; use sys.set_int_max_str_digits() to increase the limit"

end StackLang
