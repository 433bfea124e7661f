import StackLang.Number.Decimal

/-! The shortest decimal that reads back as a given number of steps. Grids of 1, 2, … 17 digits are
tried in turn; on each the two neighbours of the value are tested by reading them, the nearer one
first. The exact expansion stands behind the search, so the answer always reads back. -/

namespace StackLang.Shortest

/-- The exponent of the leading decimal digit of a positive number of steps. -/
def leading (steps : Nat) : Int :=
  if oneSteps ≤ steps then ((Nat.toDigits 10 (steps / oneSteps)).length : Int) - 1
  else -((Nat.toDigits 10 (oneSteps / steps)).length : Int)

/-- The value's neighbours among the multiples of `10^exponent`, the nearer one first. -/
def neighbours (steps : Nat) (exponent : Int) : List Decimal :=
  let a := steps * Nat.pow 10 (-exponent).toNat
  let b := Nat.pow 10 exponent.toNat * oneSteps
  let near := roundDiv a b
  let far := if near = a / b then near + 1 else near - 1
  [⟨near, exponent⟩, ⟨far, exponent⟩]

def readsBack (steps : Nat) (d : Decimal) : Bool :=
  roundSteps d.numerator d.denominator == steps

def candidates (steps : Nat) : List Decimal :=
  (List.range 17).flatMap fun p => neighbours steps (leading steps - (p : Nat))

/-- All digits of the number. -/
def exact (steps : Nat) : Decimal := ⟨steps * Nat.pow 5 1074, -1074⟩

def shortest (steps : Nat) : Decimal :=
  if steps = 0 then ⟨0, 0⟩
  else (((candidates steps).find? (readsBack steps)).getD (exact steps)).normal

end StackLang.Shortest
