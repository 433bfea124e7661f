/-! Text as programs hold it: characters, and halves of surrogate pairs. A half is no character, but
tree files can name one, and a line that is read may hold one. Text that comes from a string has
none. -/

namespace StackLang

/-- What text consists of. -/
inductive Code where
  | char (c : Char)
  /-- Half of a surrogate pair, counted from U+D800. -/
  | half (n : Fin 0x800)
deriving DecidableEq

namespace Code

def ofNat (n : Nat) : Code :=
  if h : 0xd800 ≤ n ∧ n < 0xe000 then half ⟨n - 0xd800, by omega⟩ else char (Char.ofNat n)

def char? : Code → Option Char
  | char c => some c
  | half _ => none

def isChar (c : Code) : Bool := c.char?.isSome

/-- The character that is shown; U+FFFD stands for a half. -/
def shown (c : Code) : Char := c.char?.getD '\uFFFD'

end Code

structure Text where
  codes : List Code
deriving DecidableEq

namespace Text

def ofString (s : String) : Text := ⟨s.toList.map .char⟩

instance : Coe String Text := ⟨ofString⟩

instance : Append Text := ⟨fun s t => ⟨s.codes ++ t.codes⟩⟩

def isEmpty (t : Text) : Bool := t.codes.isEmpty

/-- Texts in a row, with a separator between them. -/
def intercalate (separator : Text) (ts : List Text) : Text :=
  ⟨separator.codes.intercalate (ts.map codes)⟩

/-- The characters that are shown. A half is shown as a character that no number and no word has. -/
def chars (t : Text) : List Char := t.codes.map Code.shown

def string (t : Text) : String := String.ofList t.chars

/-- The string that the text is, unless it holds a half. -/
def string? (t : Text) : Option String := (t.codes.mapM Code.char?).map String.ofList

theorem mapM_char? (cs : List Char) : (cs.map Code.char).mapM Code.char? = some cs := by
  induction cs with
  | nil => rfl
  | cons c cs ih => simp [Code.char?, ih]

@[simp] theorem string?_ofString (s : String) : (ofString s).string? = some s := by
  rw [string?, ofString, mapM_char?]
  simp

@[simp] theorem chars_ofString (s : String) : (ofString s).chars = s.toList := by
  simp [chars, ofString, Function.comp_def, Code.shown, Code.char?]

theorem ofString_injective {s t : String} (h : ofString s = ofString t) : s = t := by
  simpa using congrArg string? h

end Text

end StackLang
