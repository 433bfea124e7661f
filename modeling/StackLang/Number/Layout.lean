import StackLang.Number.Shortest

/-! How a double is written: which exponents are positional, where whole numbers end in `.0`, and
the words for NaN and infinity. The digits are the shortest ones. -/

namespace StackLang

structure Layout where
  /-- Exponents of the leading digit that are written without an exponent part. -/
  positional : Int → Bool
  /-- Leading exponents whose whole numbers end in `.0`. -/
  pointed : Int → Bool
  nan : String
  infinity : String

namespace Layout

/-- Positional from 10^-4 up to 10^16. -/
def ordinary (exponent : Int) : Bool := decide (-4 ≤ exponent) && decide (exponent < 16)

/-- Numbers in messages. -/
def display : Layout := ⟨ordinary, fun _ => true, "nan", "inf"⟩

/-- Numbers in tree files. -/
def tree : Layout := { display with nan := "NaN", infinity := "Infinity" }

/-- Numbers in source text, which has no exponents. -/
def source : Layout :=
  ⟨fun _ => true, fun exponent => decide (exponent < 16), "NaN", "Infinity"⟩

def zeroDigits (n : Int) : List Char := List.replicate n.toNat '0'

def positionalText (l : Layout) (ds : List Char) (exponent : Int) : List Char :=
  let lead := exponent + ds.length - 1
  if 0 ≤ exponent then
    ds ++ zeroDigits exponent ++ (if l.pointed lead then ['.', '0'] else [])
  else if 0 ≤ lead then
    ds.take (lead + 1).toNat ++ '.' :: ds.drop (lead + 1).toNat
  else
    '0' :: '.' :: (zeroDigits (-lead - 1) ++ ds)

/-- One digit, the others after a point, and an exponent of at least two digits. -/
def exponentText (ds : List Char) (lead : Int) : List Char :=
  let es := Nat.toDigits 10 lead.natAbs
  ds.take 1 ++ (if ds.length ≤ 1 then [] else '.' :: ds.drop 1) ++
    'e' :: (if lead < 0 then '-' else '+') :: (zeroDigits (2 - es.length) ++ es)

def decimalText (l : Layout) (d : Decimal) : List Char :=
  let ds := Nat.toDigits 10 d.digits
  let lead := d.exponent + ds.length - 1
  if l.positional lead then l.positionalText ds d.exponent else exponentText ds lead

def signText (negative : Bool) : List Char := if negative then ['-'] else []

end Layout

def Double.text (l : Layout) : Double → String
  | nan => l.nan
  | infinite s => String.ofList (Layout.signText s) ++ l.infinity
  | finite s n _ => String.ofList (Layout.signText s ++ l.decimalText (Shortest.shortest n))

end StackLang
