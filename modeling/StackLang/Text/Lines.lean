/-! Lines of text, and other pieces that a character ends. The last piece need not be ended, so text
that ends in a line break has no empty line after it. -/

namespace StackLang.Text

/-- Every way to break a line becomes a line feed. -/
def normalBreaks : List Char → List Char
  | [] => []
  | '\r' :: '\n' :: cs => '\n' :: normalBreaks cs
  | c :: cs => (if c = '\r' then '\n' else c) :: normalBreaks cs

/-- The pieces of a text in which `current`, the newest character first, has been read already. -/
def piecesFrom (stop : Char) (current : List Char) : List Char → List (List Char)
  | [] => if current = [] then [] else [current.reverse]
  | c :: cs =>
    if c = stop then current.reverse :: piecesFrom stop [] cs
    else piecesFrom stop (c :: current) cs

def pieces (stop : Char) (s : String) : List String :=
  (piecesFrom stop [] s.toList).map String.ofList

/-- The lines without their breaks. -/
def lines (s : String) : List String := pieces '\n' s

end StackLang.Text
