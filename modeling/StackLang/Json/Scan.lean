import StackLang.Json
import StackLang.Number.Numeral

/-! The lexemes of JSON text: white space, words, numbers and quoted text. A failed scan names the
problem and the rest of the text where it shows. -/

namespace StackLang.Json

open StackLang.Text

inductive Problem where
  | value | name | colon | comma | extra
  | controlCharacter | escape | unicodeEscape | unterminated | byteOrderMark
deriving DecidableEq

def Problem.message : Problem → String
  | value => "Expecting value"
  | name => "Expecting property name enclosed in double quotes"
  | colon => "Expecting ':' delimiter"
  | comma => "Expecting ',' delimiter"
  | extra => "Extra data"
  | controlCharacter => "Invalid control character at"
  | escape => "Invalid \\escape"
  | unicodeEscape => "Invalid \\uXXXX escape"
  | unterminated => "Unterminated string starting at"
  | byteOrderMark => "Unexpected UTF-8 BOM (decode using utf-8-sig)"

inductive Stop where
  | at (p : Problem) (rest : List Char)
  | tooManyDigits (digits : Nat)

def isSpace (c : Char) : Bool := c == ' ' || c == '\t' || c == '\n' || c == '\r'

def skip (cs : List Char) : List Char := cs.dropWhile isSpace

def isAsciiDigit (c : Char) : Bool := decide ('0' ≤ c) && decide (c ≤ '9')

/-! ### Words and numbers -/

def words : List (List Char × Json) :=
  [("null".toList, null), ("true".toList, boolean true), ("false".toList, boolean false),
   ("NaN".toList, float .nan), ("Infinity".toList, float (.infinite false)),
   ("-Infinity".toList, float (.infinite true))]

def scanWord? (cs : List Char) : Option (Json × List Char) :=
  (words.find? fun w => w.1.isPrefixOf cs).map fun w => (w.2, cs.drop w.1.length)

/-- A whole part has no zeros in front. -/
def scanWhole? : List Char → Option (List Char × List Char)
  | [] => none
  | c :: cs =>
    if c = '0' then some (['0'], cs)
    else if isAsciiDigit c then
      some (c :: cs.takeWhile isAsciiDigit, cs.dropWhile isAsciiDigit)
    else none

/-- A point counts only with a digit behind it. -/
def scanFraction : List Char → List Char × List Char
  | '.' :: cs =>
    if cs.head?.any isAsciiDigit then (cs.takeWhile isAsciiDigit, cs.dropWhile isAsciiDigit)
    else ([], '.' :: cs)
  | cs => ([], cs)

/-- An exponent counts only with a digit in it. -/
def scanExponent (cs : List Char) : Option Int × List Char :=
  match cs with
  | [] => (none, [])
  | c :: rest =>
    if c = 'e' ∨ c = 'E' then
      let (negative, rest) := takeSign rest
      if rest.head?.any isAsciiDigit then
        let n : Int := digitsValue (rest.takeWhile isAsciiDigit)
        (some (if negative then -n else n), rest.dropWhile isAsciiDigit)
      else (none, cs)
    else (none, cs)

def takeMinus : List Char → Bool × List Char
  | '-' :: cs => (true, cs)
  | cs => (false, cs)

def scanNumber (cs : List Char) : Except Stop (Json × List Char) :=
  let (negative, digits) := takeMinus cs
  match scanWhole? digits with
  | none => .error (.at .value cs)
  | some (whole, rest) =>
    match scanFraction rest with
    | ([], rest) =>
      match scanExponent rest with
      | (none, rest) =>
        if Integer.digitLimit < whole.length then .error (.tooManyDigits whole.length)
        else .ok (integer (Integer.ofMagnitude negative (digitsValue whole)), rest)
      | (some e, rest) => .ok (float (Numeral.value negative whole [] e), rest)
    | (fraction, rest) =>
      let e := scanExponent rest
      .ok (float (Numeral.value negative whole fraction (e.1.getD 0)), e.2)

/-! ### Quoted text -/

def hexValue? (c : Char) : Option Nat :=
  if isAsciiDigit c then some (c.toNat - '0'.toNat)
  else if 'a' ≤ c ∧ c ≤ 'f' then some (c.toNat - 'a'.toNat + 10)
  else if 'A' ≤ c ∧ c ≤ 'F' then some (c.toNat - 'A'.toNat + 10)
  else none

def isHigh (n : Nat) : Bool := decide (0xd800 ≤ n) && decide (n < 0xdc00)

def isLow (n : Nat) : Bool := decide (0xdc00 ≤ n) && decide (n < 0xe000)

/-- The four hexadecimal digits of an escape. Something has to follow them. -/
def scanUnit? : List Char → Option (Nat × List Char)
  | a :: b :: c :: d :: e :: rest => do
    let n := ((← hexValue? a) * 16 + (← hexValue? b)) * 16 + (← hexValue? c)
    pure (n * 16 + (← hexValue? d), e :: rest)
  | _ => none

/-- A low surrogate that follows as an escape of its own. -/
def scanLow? : List Char → Option (Nat × List Char)
  | '\\' :: 'u' :: rest =>
    match scanUnit? rest with
    | some (n, rest) => if isLow n then some (n, rest) else none
    | none => none
  | _ => none

def joinUnits (high low : Nat) : Char :=
  Char.ofNat (0x10000 + (high - 0xd800) * 0x400 + (low - 0xdc00))

/-- What a hexadecimal escape denotes, from behind its `u`. A surrogate alone is half of a pair. -/
def scanUnicode? (cs : List Char) : Option (Code × List Char) :=
  match scanUnit? cs with
  | none => none
  | some (n, rest) =>
    if isHigh n then
      match scanLow? rest with
      | some (low, rest) => some (.char (joinUnits n low), rest)
      | none => some (.ofNat n, rest)
    else some (.ofNat n, rest)

def simpleEscapes : List (Char × Char) :=
  [('"', '"'), ('\\', '\\'), ('/', '/'), ('b', '\x08'), ('f', '\x0c'), ('n', '\n'), ('r', '\r'),
   ('t', '\t')]

/-- The next piece of quoted text. -/
inductive Piece where
  | code (c : Code) (rest : List Char)
  | close (rest : List Char)
  | bad (stop : Stop)

/-- `start` is the text from the opening quote on, for the message about a missing end. -/
def scanPiece (start : List Char) : List Char → Piece
  | [] => .bad (.at .unterminated start)
  | c :: cs =>
    if c = '"' then .close cs
    else if c = '\\' then
      match cs with
      | [] => .bad (.at .unterminated start)
      | d :: ds =>
        if d = 'u' then
          match scanUnicode? ds with
          | some (u, rest) => .code u rest
          | none => .bad (.at .unicodeEscape cs)
        else
          match simpleEscapes.lookup d with
          | some e => .code (.char e) ds
          | none => .bad (.at .escape (c :: cs))
    else if c.toNat < 0x20 then .bad (.at .controlCharacter (c :: cs))
    else .code (.char c) cs

def Piece.rest : Piece → List Char
  | code _ rest | close rest => rest
  | bad _ => []

theorem length_scanUnit?_lt {cs rest : List Char} {n : Nat} (h : scanUnit? cs = some (n, rest)) :
    rest.length < cs.length := by
  unfold scanUnit? at h
  split at h
  · simp only [bind, Option.bind_eq_some_iff, pure, Option.some.injEq, Prod.mk.injEq] at h
    obtain ⟨_, _, _, _, _, _, _, _, _, rfl⟩ := h
    simp only [List.length_cons]
    omega
  · simp at h

theorem length_scanLow?_lt {cs rest : List Char} {n : Nat} (h : scanLow? cs = some (n, rest)) :
    rest.length < cs.length := by
  unfold scanLow? at h
  split at h
  · split at h
    · rename_i hu
      have := length_scanUnit?_lt hu
      split at h
      · cases h
        simp only [List.length_cons]
        omega
      · simp at h
    · simp at h
  · simp at h

theorem length_scanUnicode?_lt {cs rest : List Char} {c : Code}
    (h : scanUnicode? cs = some (c, rest)) : rest.length < cs.length := by
  unfold scanUnicode? at h
  split at h
  · simp at h
  · rename_i hu
    have h1 := length_scanUnit?_lt hu
    split at h
    · split at h
      · rename_i hl
        have h2 := length_scanLow?_lt hl
        rw [(Prod.mk.inj (Option.some.inj h)).2] at h2
        omega
      · rwa [(Prod.mk.inj (Option.some.inj h)).2] at h1
    · rwa [(Prod.mk.inj (Option.some.inj h)).2] at h1

theorem length_scanPiece_lt (start : List Char) (c : Char) (cs : List Char) :
    (scanPiece start (c :: cs)).rest.length < (c :: cs).length := by
  simp only [scanPiece]
  split
  · simp [Piece.rest]
  · split
    · split
      · simp [Piece.rest]
      · split
        · split
          · rename_i hu
            have := length_scanUnicode?_lt hu
            simp only [Piece.rest, List.length_cons]
            omega
          · simp [Piece.rest]
        · split
          · simp only [Piece.rest, List.length_cons]
            omega
          · simp [Piece.rest]
    · split
      · simp [Piece.rest]
      · simp [Piece.rest]

/-- Quoted text from behind its opening quote. -/
def scanQuoted (start : List Char) (cs : List Char) : Except Stop (List Code × List Char) :=
  match h : scanPiece start cs with
  | .bad stop => .error stop
  | .close rest => .ok ([], rest)
  | .code c rest =>
    have : rest.length < cs.length := by
      cases cs with
      | nil => simp [scanPiece] at h
      | cons d ds => simpa [h, Piece.rest] using length_scanPiece_lt start d ds
    (scanQuoted start rest).map fun r => (c :: r.1, r.2)
termination_by cs.length

theorem length_skip_le (cs : List Char) : (skip cs).length ≤ cs.length :=
  (List.dropWhile_suffix _).length_le

theorem length_takeSign_le (cs : List Char) : (takeSign cs).2.length ≤ cs.length := by
  unfold takeSign
  split <;> simp

theorem length_takeMinus_le (cs : List Char) : (takeMinus cs).2.length ≤ cs.length := by
  unfold takeMinus
  split <;> simp

theorem length_scanWord?_lt {cs rest : List Char} {j : Json}
    (h : scanWord? cs = some (j, rest)) : rest.length < cs.length := by
  unfold scanWord? at h
  obtain ⟨w, hw, he⟩ := Option.map_eq_some_iff.mp h
  have hm := List.mem_of_find?_eq_some hw
  have hp := List.find?_some hw
  have hl := (List.isPrefixOf_iff_prefix.mp hp).length_le
  have hpos : 0 < w.1.length := by
    simp only [words, List.mem_cons, List.not_mem_nil, or_false] at hm
    rcases hm with rfl | rfl | rfl | rfl | rfl | rfl <;> decide
  rw [← (Prod.mk.inj he).2, List.length_drop]
  omega

theorem length_scanWhole?_lt {cs whole rest : List Char}
    (h : scanWhole? cs = some (whole, rest)) : rest.length < cs.length := by
  unfold scanWhole? at h
  split at h
  · simp at h
  · split at h
    · obtain ⟨-, rfl⟩ := Prod.mk.inj (Option.some.inj h)
      simp
    · split at h
      · obtain ⟨-, rfl⟩ := Prod.mk.inj (Option.some.inj h)
        exact Nat.lt_succ_of_le (List.dropWhile_suffix _).length_le
      · simp at h

theorem length_scanFraction_le (cs : List Char) : (scanFraction cs).2.length ≤ cs.length := by
  unfold scanFraction
  split
  · split
    · exact Nat.le_succ_of_le (List.dropWhile_suffix _).length_le
    · exact Nat.le_refl _
  · exact Nat.le_refl _

theorem length_scanExponent_le (cs : List Char) : (scanExponent cs).2.length ≤ cs.length := by
  unfold scanExponent
  split
  · simp
  · split
    · rename_i c rest _
      have := length_takeSign_le rest
      dsimp only
      split
      · exact Nat.le_succ_of_le (Nat.le_trans (List.dropWhile_suffix _).length_le this)
      · exact Nat.le_refl _
    · exact Nat.le_refl _

theorem length_scanNumber_lt {cs rest : List Char} {j : Json}
    (h : scanNumber cs = .ok (j, rest)) : rest.length < cs.length := by
  unfold scanNumber at h
  have hm := length_takeMinus_le cs
  split at h
  rename_i digits heq
  rw [heq] at hm
  split at h
  · simp at h
  · rename_i whole rest0 hw
    have h0 := length_scanWhole?_lt hw
    have hf := length_scanFraction_le rest0
    split at h
    · rename_i rest1 hf1
      rw [hf1] at hf
      have he := length_scanExponent_le rest1
      split at h
      · rename_i rest2 he2
        rw [he2] at he
        split at h
        · simp at h
        · rw [(Prod.mk.inj (Except.ok.inj h)).2] at he
          simp only at hf hm he
          omega
      · rename_i e rest2 he2
        rw [he2] at he
        rw [(Prod.mk.inj (Except.ok.inj h)).2] at he
        simp only at hf hm he
        omega
    · rename_i fraction rest1 _ hf1
      rw [hf1] at hf
      have he := length_scanExponent_le rest1
      rw [(Prod.mk.inj (Except.ok.inj h)).2] at he
      simp only at hf hm he
      omega

theorem length_scanQuoted_lt {start cs rest : List Char} {codes : List Code}
    (h : scanQuoted start cs = .ok (codes, rest)) : rest.length < cs.length := by
  fun_induction scanQuoted start cs generalizing rest codes with
  | case1 => simp at h
  | case2 cs r hp =>
    obtain ⟨-, rfl⟩ := Prod.mk.inj (Except.ok.inj h)
    cases cs with
    | nil => simp [scanPiece] at hp
    | cons d ds => simpa [hp, Piece.rest] using length_scanPiece_lt start d ds
  | case3 cs c r hp hlt ih =>
    cases hr : scanQuoted start r with
    | error e => simp [hr, Except.map] at h
    | ok p =>
      simp only [hr, Except.map, Except.ok.injEq, Prod.mk.injEq] at h
      have := ih hr
      rw [h.2] at this
      omega

end StackLang.Json
