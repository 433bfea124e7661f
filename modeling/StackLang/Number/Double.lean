import StackLang.Number.Rounding

/-! Doubles (binary64) as data: a finite one is a sign and a number of steps that it can hold, so
equal doubles are equal terms. Every operation is exact on integers and rounds once. There is one
NaN, without a sign. -/

namespace StackLang

inductive Double where
  | nan
  | infinite (negative : Bool)
  | finite (negative : Bool) (steps : Nat) (held : Held steps)
deriving DecidableEq

namespace Double

def zero : Double := finite false 0 held_zero

/-- Finite with the given number of steps, or infinite when these are too many. -/
def ofSteps (negative : Bool) (steps : Nat) (aligned : Nat.pow 2 (excess steps) ∣ steps) : Double :=
  if h : steps < stepLimit then finite negative steps ⟨aligned, h⟩ else infinite negative

/-- The double nearest to `a / b` steps. -/
def round (negative : Bool) (a b : Nat) : Double :=
  ofSteps negative (roundSteps a b) (dvd_roundSteps a b)

/-- A sign and a magnitude as one integer. -/
def signed (negative : Bool) (n : Nat) : Int := if negative then -(n : Int) else n

def ofInt (n : Int) : Double := round (n < 0) (n.natAbs * oneSteps) 1

def one : Double := ofInt 1

def isNaN : Double → Bool
  | nan => true
  | _ => false

def isFinite : Double → Bool
  | finite .. => true
  | _ => false

/-! ### Order -/

def lt : Double → Double → Bool
  | nan, _ | _, nan => false
  | infinite s, infinite t => s && !t
  | infinite s, finite .. => s
  | finite .., infinite t => !t
  | finite s m _, finite t n _ => decide (signed s m < signed t n)

/-- Numeric equality: zeros of either sign are equal, and NaN equals nothing. -/
def eq : Double → Double → Bool
  | infinite s, infinite t => s == t
  | finite s m _, finite t n _ => decide (signed s m = signed t n)
  | _, _ => false

def le (x y : Double) : Bool := lt x y || eq x y

def isZero (x : Double) : Bool := eq x zero

/-! ### Arithmetic -/

def neg : Double → Double
  | nan => nan
  | infinite s => infinite !s
  | finite s m h => finite (!s) m h

def add : Double → Double → Double
  | nan, _ | _, nan => nan
  | infinite s, infinite t => if s = t then infinite s else nan
  | infinite s, finite .. => infinite s
  | finite .., infinite t => infinite t
  | finite s m _, finite t n _ =>
    let z := signed s m + signed t n
    if z = 0 then finite (s && t) 0 held_zero else round (z < 0) z.natAbs 1

def sub (x y : Double) : Double := add x (neg y)

def mul : Double → Double → Double
  | nan, _ | _, nan => nan
  | infinite s, infinite t => infinite (s ^^ t)
  | infinite s, finite t n _ | finite t n _, infinite s => if n = 0 then nan else infinite (s ^^ t)
  | finite s m _, finite t n _ => round (s ^^ t) (m * n) oneSteps

/-- Division by zero gives an infinity, and NaN for a zero or NaN above the line. -/
def div : Double → Double → Double
  | nan, _ | _, nan => nan
  | infinite _, infinite _ => nan
  | infinite s, finite t _ _ => infinite (s ^^ t)
  | finite s _ _, infinite t => finite (s ^^ t) 0 held_zero
  | finite s m _, finite t n _ =>
    if n = 0 then (if m = 0 then nan else infinite (s ^^ t))
    else round (s ^^ t) (m * oneSteps) n

/-- The remainder of truncated division, with the sign of the dividend. -/
def mod : Double → Double → Double
  | nan, _ | _, nan | infinite _, _ => nan
  | finite s m h, infinite _ => finite s m h
  | finite s m _, finite _ n _ => if n = 0 then nan else round s (m % n) 1

/-! ### Whole numbers -/

def isWhole : Double → Bool
  | finite _ n _ => n % oneSteps == 0
  | _ => false

/-- The integer part, for a finite double. -/
def trunc? : Double → Option Int
  | finite s n _ => some (signed s (n / oneSteps))
  | _ => none

end Double

end StackLang
