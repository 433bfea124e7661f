import StackLang.Text.Quoted

/-! UTF-8, one byte at a time. A byte that cannot come next is reported with the bytes of the
character that it breaks off; what `encode` writes, `decode` reads again (`decode_encode`). Text with
halves of surrogate pairs is not encoded. -/

namespace StackLang.Text

inductive Utf8Problem where
  | startByte
  | continuationByte
  | endOfData
deriving DecidableEq

def Utf8Problem.message : Utf8Problem → String
  | startByte => "invalid start byte"
  | continuationByte => "invalid continuation byte"
  | endOfData => "unexpected end of data"

/-- Bytes that are no character: where they begin, the first of them, and how many they are. -/
structure Utf8Error where
  problem : Utf8Problem
  position : Nat
  first : UInt8
  count : Nat
deriving DecidableEq

def Utf8Error.message (e : Utf8Error) : String :=
  let place :=
    if e.count = 1 then
      "byte 0x" ++ String.ofList (hex 2 e.first.toNat) ++ " in position " ++ toString e.position
    else
      "bytes in position " ++ toString e.position ++ "-" ++ toString (e.position + e.count - 1)
  "'utf-8' codec can't decode " ++ place ++ ": " ++ e.problem.message

/-- Halves of surrogate pairs, which have no bytes: where they begin, the first of them, and how many
they are. -/
structure EncodeError where
  position : Nat
  first : Fin 0x800
  count : Nat
deriving DecidableEq

def EncodeError.message (e : EncodeError) : String :=
  let place :=
    if e.count = 1 then
      "character '" ++ String.ofList (escapedHalf e.first) ++ "' in position " ++
        toString e.position
    else
      "characters in position " ++ toString e.position ++ "-" ++ toString (e.position + e.count - 1)
  "'utf-8' codec can't encode " ++ place ++ ": surrogates not allowed"

/-- Finds the first halves in a row. -/
def findHalves? (position : Nat) : List Code → Option EncodeError
  | [] => none
  | .char _ :: rest => findHalves? (position + 1) rest
  | .half n :: rest => some ⟨position, n, 1 + (rest.takeWhile (!·.isChar)).length⟩

/-- The string as which the text is encoded. -/
def encodable (t : Text) : Except EncodeError String :=
  match findHalves? 0 t.codes with
  | none => .ok t.string
  | some e => .error e

theorem findHalves?_map_char (position : Nat) (cs : List Char) :
    findHalves? position (cs.map .char) = none := by
  induction cs generalizing position with
  | nil => rfl
  | cons c cs ih => exact ih (position + 1)

/-- Text without halves is encoded as the string that it is. -/
@[simp] theorem encodable_ofString (s : String) : encodable (ofString s) = .ok s := by
  simp [encodable, show findHalves? 0 (ofString s).codes = none from findHalves?_map_char 0 _, string]

namespace Utf8

/-- A character of which some bytes have been read. Its next byte has to lie between `low` and
`high`, and `missing` more come after that one. -/
structure OpenChar where
  position : Nat
  first : UInt8
  count : Nat
  value : Nat
  low : Nat
  high : Nat
  missing : Nat
deriving DecidableEq

def OpenChar.error (o : OpenChar) (problem : Utf8Problem) : Utf8Error :=
  ⟨problem, o.position, o.first, o.count⟩

inductive Read where
  | char (c : Char)
  | more (o : OpenChar)
  | bad (e : Utf8Error)

/-- The first byte of a character. The bounds on the second byte keep out long forms, surrogates
and what lies above U+10FFFF. -/
def start (position : Nat) (b : UInt8) : Read :=
  let n := b.toNat
  let open_ := OpenChar.mk position b 1
  if n < 0x80 then .char (Char.ofNat n)
  else if n < 0xc2 then .bad ⟨.startByte, position, b, 1⟩
  else if n < 0xe0 then .more (open_ (n - 0xc0) 0x80 0xbf 0)
  else if n < 0xf0 then
    .more (open_ (n - 0xe0) (if n = 0xe0 then 0xa0 else 0x80) (if n = 0xed then 0x9f else 0xbf) 1)
  else if n < 0xf5 then
    .more (open_ (n - 0xf0) (if n = 0xf0 then 0x90 else 0x80) (if n = 0xf4 then 0x8f else 0xbf) 2)
  else .bad ⟨.startByte, position, b, 1⟩

/-- A byte inside a character. -/
def OpenChar.next (o : OpenChar) (b : UInt8) : Read :=
  let n := b.toNat
  if n < o.low ∨ o.high < n then .bad (o.error .continuationByte)
  else
    let value := o.value * 0x40 + (n - 0x80)
    match o.missing with
    | 0 => .char (Char.ofNat value)
    | missing + 1 =>
      .more { o with value, missing, count := o.count + 1, low := 0x80, high := 0xbf }

def readByte (position : Nat) : Option OpenChar → UInt8 → Read
  | none, b => start position b
  | some o, b => o.next b

/-- Decodes on from a position, `done` being the characters before it, the newest first. -/
def decodeFrom (position : Nat) (current : Option OpenChar) (done : List Char) :
    List UInt8 → Except Utf8Error (List Char)
  | [] =>
    match current with
    | none => .ok done.reverse
    | some o => .error (o.error .endOfData)
  | b :: rest =>
    match readByte position current b with
    | .char c => decodeFrom (position + 1) none (c :: done) rest
    | .more o => decodeFrom (position + 1) (some o) done rest
    | .bad e => .error e

def decode (bytes : List UInt8) : Except Utf8Error (List Char) := decodeFrom 0 none [] bytes

def encode (cs : List Char) : List UInt8 := cs.flatMap String.utf8EncodeChar

/-! ### Reading what was written -/

theorem toNat_ofNat_byte {n : Nat} (h : n < 256) : (UInt8.ofNat n).toNat = n := by
  simp [Nat.mod_eq_of_lt h]

theorem start_one {position n : Nat} (h : n < 0x80) :
    start position (UInt8.ofNat n) = .char (Char.ofNat n) := by
  simp only [start, toNat_ofNat_byte (show n < 256 by omega), if_pos h]

theorem start_two {position n : Nat} (h : 0x80 ≤ n) (h' : n < 0x800) :
    start position (UInt8.ofNat (n / 64 % 32 + 192)) =
      .more ⟨position, UInt8.ofNat (n / 64 % 32 + 192), 1, n / 64, 0x80, 0xbf, 0⟩ := by
  have hn : n / 64 % 32 + 192 = n / 64 + 0xc0 := by omega
  rw [hn, start, toNat_ofNat_byte (by omega), if_neg (by omega), if_neg (by omega),
    if_pos (by omega), Nat.add_sub_cancel]

theorem start_three {position n : Nat} (h : n < 0x10000) :
    start position (UInt8.ofNat (n / 4096 % 16 + 224)) =
      .more ⟨position, UInt8.ofNat (n / 4096 % 16 + 224), 1, n / 4096,
        if n / 4096 = 0 then 0xa0 else 0x80, if n / 4096 = 0xd then 0x9f else 0xbf, 1⟩ := by
  have hn : n / 4096 % 16 + 224 = n / 4096 + 0xe0 := by omega
  rw [hn, start, toNat_ofNat_byte (by omega), if_neg (by omega), if_neg (by omega),
    if_neg (by omega), if_pos (by omega), Nat.add_sub_cancel]
  simp

theorem start_four {position n : Nat} (h : n < 0x110000) :
    start position (UInt8.ofNat (n / 262144 % 8 + 240)) =
      .more ⟨position, UInt8.ofNat (n / 262144 % 8 + 240), 1, n / 262144,
        if n / 262144 = 0 then 0x90 else 0x80, if n / 262144 = 4 then 0x8f else 0xbf, 2⟩ := by
  have hn : n / 262144 % 8 + 240 = n / 262144 + 0xf0 := by omega
  rw [hn, start, toNat_ofNat_byte (by omega), if_neg (by omega), if_neg (by omega),
    if_neg (by omega), if_neg (by omega), if_pos (by omega), Nat.add_sub_cancel]
  simp

theorem next_last {o : OpenChar} {k : Nat} (hm : o.missing = 0) (hk : k < 64)
    (hl : o.low ≤ k + 128) (hh : k + 128 ≤ o.high) :
    o.next (UInt8.ofNat (k + 128)) = .char (Char.ofNat (o.value * 64 + k)) := by
  rw [OpenChar.next, toNat_ofNat_byte (by omega), if_neg (by omega), hm]
  simp

theorem next_more {o : OpenChar} {k m : Nat} (hm : o.missing = m + 1) (hk : k < 64)
    (hl : o.low ≤ k + 128) (hh : k + 128 ≤ o.high) :
    o.next (UInt8.ofNat (k + 128)) =
      .more ⟨o.position, o.first, o.count + 1, o.value * 64 + k, 0x80, 0xbf, m⟩ := by
  rw [OpenChar.next, toNat_ofNat_byte (by omega), if_neg (by omega), hm]
  simp

/-- What encodes a character is read as that character, whatever follows. -/
theorem decodeFrom_encodeChar (position : Nat) (done : List Char) (rest : List UInt8) (c : Char) :
    ∃ after, decodeFrom position none done (String.utf8EncodeChar c ++ rest) =
      decodeFrom after none (c :: done) rest := by
  have hv : c.toNat < 0xd800 ∨ (0xdfff < c.toNat ∧ c.toNat < 0x110000) := c.valid
  have hc : c = Char.ofNat c.toNat := (Char.ofNat_toNat c).symm
  rw [String.utf8EncodeChar.eq_1, show c.val.toNat = c.toNat from rfl]
  generalize c.toNat = n at hv hc
  subst hc
  split
  · next h =>
    refine ⟨position + 1, ?_⟩
    simp only [List.cons_append, List.nil_append, decodeFrom, readByte,
      start_one (show n < 0x80 by omega)]
  split
  · next h h' =>
    refine ⟨position + 2, ?_⟩
    simp only [List.cons_append, List.nil_append, decodeFrom, readByte,
      start_two (show 0x80 ≤ n by omega) (show n < 0x800 by omega)]
    rw [next_last rfl (by omega) (by simp) (by simp; omega)]
    simp only [show n / 64 * 64 + n % 64 = n by omega]
  split
  · next h h' h'' =>
    refine ⟨position + 3, ?_⟩
    simp only [List.cons_append, List.nil_append, decodeFrom, readByte,
      start_three (show n < 0x10000 by omega)]
    rw [next_more rfl (by omega) (by simp only; split <;> omega) (by simp only; split <;> omega)]
    simp only
    rw [next_last rfl (by omega) (by simp) (by simp; omega)]
    simp only [show (n / 4096 * 64 + n / 64 % 64) * 64 + n % 64 = n by omega]
  · next h h' h'' =>
    refine ⟨position + 4, ?_⟩
    simp only [List.cons_append, List.nil_append, decodeFrom, readByte,
      start_four (show n < 0x110000 by omega)]
    rw [next_more rfl (by omega) (by simp only; split <;> omega) (by simp only; split <;> omega)]
    simp only
    rw [next_more rfl (by omega) (by simp) (by simp; omega)]
    simp only
    rw [next_last rfl (by omega) (by simp) (by simp; omega)]
    simp only [show ((n / 262144 * 64 + n / 4096 % 64) * 64 + n / 64 % 64) * 64 + n % 64 = n by omega]

/-- What encodes a text is read as that text. -/
theorem decode_encode (cs : List Char) : decode (encode cs) = .ok cs := by
  have h : ∀ position done, decodeFrom position none done (encode cs) = .ok (done.reverse ++ cs) := by
    induction cs with
    | nil => intro position done; simp [encode, decodeFrom]
    | cons c cs ih =>
      intro position done
      obtain ⟨after, ha⟩ := decodeFrom_encodeChar position done (encode cs) c
      rw [show encode (c :: cs) = String.utf8EncodeChar c ++ encode cs by simp [encode], ha, ih]
      simp
  simpa [decode] using h 0 []

end Utf8

end StackLang.Text
