import StackLang.Text.Lines

/-! Paths of files. Empty names and `.` say nothing and are left out; `..` stays. -/

namespace StackLang

structure Path where
  /-- Empty for a path from the working directory. Exactly two slashes in front are kept apart from
  one; any other number means one. -/
  root : String
  names : List String
deriving DecidableEq

namespace Path

def rootOf (cs : List Char) : String :=
  match (cs.takeWhile (· == '/')).length with
  | 0 => ""
  | 2 => "//"
  | _ => "/"

def ofString (s : String) : Path :=
  ⟨rootOf s.toList, (Text.pieces '/' s).filter fun name => name != "" && name != "."⟩

def text (p : Path) : String :=
  if p.root = "" ∧ p.names = [] then "." else p.root ++ String.intercalate "/" p.names

/-- The path of the file beside this one whose name is longer by `ending`. -/
def extended (p : Path) (ending : String) : Path :=
  { p with names := p.names.dropLast ++ [p.names.getLast?.getD "" ++ ending] }

end Path

end StackLang
