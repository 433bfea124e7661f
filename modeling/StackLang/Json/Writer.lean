import StackLang.Json

/-! JSON values to text: two spaces for each level, one element a line, and no escapes but those
that JSON asks for and those for halves of surrogate pairs. -/

namespace StackLang.Json

open StackLang.Text

def escaped (c : Char) : List Char :=
  if c = '"' then ['\\', '"']
  else if c = '\\' then ['\\', '\\']
  else if c = '\n' then ['\\', 'n']
  else if c = '\r' then ['\\', 'r']
  else if c = '\t' then ['\\', 't']
  else if c = '\x08' then ['\\', 'b']
  else if c = '\x0c' then ['\\', 'f']
  else if c.toNat < 0x20 then '\\' :: 'u' :: hex 4 c.toNat
  else [c]

def escapedCode : Code → List Char
  | .char c => escaped c
  | .half n => escapedHalf n

def writeText (t : Text) : List Char := '"' :: t.codes.flatMap escapedCode ++ ['"']

def newLine (depth : Nat) : List Char := '\n' :: List.replicate (2 * depth) ' '

/-- Elements between brackets, each on a line of its own. -/
def bracket (open_ close : Char) (depth : Nat) : List (List Char) → List Char
  | [] => [open_, close]
  | item :: items =>
    open_ :: newLine (depth + 1) ++ item ++ items.flatMap (fun i => ',' :: newLine (depth + 1) ++ i) ++
      newLine depth ++ [close]

mutual

/-- The text of a value whose first line is indented by `depth` levels. -/
def writeChars (depth : Nat) : Json → List Char
  | null => "null".toList
  | boolean b => if b then "true".toList else "false".toList
  | integer n => (Integer.text n).toList
  | float x => (x.text .tree).toList
  | text t => writeText t
  | array items => bracket '[' ']' depth (writeItems (depth + 1) items)
  | object fields => bracket '\x7b' '\x7d' depth (writeFields (depth + 1) fields)

def writeItems (depth : Nat) : List Json → List (List Char)
  | [] => []
  | j :: rest => j.writeChars depth :: writeItems depth rest

def writeFields (depth : Nat) : List (Text × Json) → List (List Char)
  | [] => []
  | (k, j) :: rest => (writeText k ++ ':' :: ' ' :: j.writeChars depth) :: writeFields depth rest

end

def write (j : Json) : String := String.ofList (j.writeChars 0)

end StackLang.Json
