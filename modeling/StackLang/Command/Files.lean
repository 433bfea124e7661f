import StackLang.Command.Path
import StackLang.Text.Utf8

/-! Files as a session sees them, and a tree of them that is held in memory. -/

namespace StackLang

inductive Entry where
  | file (bytes : List UInt8)
  | directory
  /-- The path cannot be followed to its end, because it or a name in it is too long. -/
  | tooLong
deriving DecidableEq

/-- What there is under a path. -/
abbrev Files := Path → Option Entry

/-- Text that is put into a file in place of what it held. -/
structure Write where
  path : Path
  text : String
deriving DecidableEq

def Write.bytes (w : Write) : List UInt8 := Text.Utf8.encode w.text.toList

/-- Where a path leads. Outside of the tree there are only directories. -/
inductive Place where
  | within (names : List String)
  | outside
deriving DecidableEq

/-- Why a path leads nowhere. -/
inductive DeadEnd where
  | missing
  | tooLong
deriving DecidableEq

/-- The bytes that a name may have. -/
def nameLimit : Nat := 255

/-- The bytes that a path has to stay below. -/
def pathLimit : Nat := 4096

/-- Files by their names, from the working directory down. -/
structure FileTree where
  files : List (List String × List UInt8)
deriving DecidableEq

namespace FileTree

def empty : FileTree := ⟨[]⟩

/-- The working directory is one, and so is all that lies above a file. -/
def isDirectory (t : FileTree) (names : List String) : Bool :=
  names.isEmpty || t.files.any fun f => names.isPrefixOf f.1 && names.length < f.1.length

def put (t : FileTree) (names : List String) (bytes : List UInt8) : FileTree :=
  ⟨t.files.filter (·.1 != names) ++ [(names, bytes)]⟩

/-- One name further. Only in a directory can a path go on. -/
def descend (t : FileTree) (place : Place) (name : String) : Except DeadEnd Place :=
  match place with
  | .outside =>
    if name = ".." then .ok .outside
    else .error (if nameLimit < name.utf8ByteSize then .tooLong else .missing)
  | .within names =>
    if t.isDirectory names = false then .error .missing
    else if name = ".." then .ok (if names = [] then .outside else .within names.dropLast)
    else if nameLimit < name.utf8ByteSize then .error .tooLong
    else .ok (.within (names ++ [name]))

/-- The length of the whole path is looked at first, that of a name when it is come to. -/
def resolve (t : FileTree) (p : Path) : Except DeadEnd Place :=
  if pathLimit ≤ p.text.utf8ByteSize then .error .tooLong
  else p.names.foldlM t.descend (if p.root = "" then .within [] else .outside)

def under? (t : FileTree) : Files := fun p =>
  match t.resolve p with
  | .error .missing => none
  | .error .tooLong => some .tooLong
  | .ok .outside => some .directory
  | .ok (.within names) =>
    if t.isDirectory names then some .directory else (t.files.lookup names).map .file

/-- A write to a place outside changes nothing in the tree. -/
def write (t : FileTree) (w : Write) : FileTree :=
  match t.resolve w.path with
  | .ok (.within names) => t.put names w.bytes
  | _ => t

/-- The files that `old` does not hold with the same bytes. -/
def changes (old new : FileTree) : List (List String × List UInt8) :=
  new.files.filter fun f => old.files.lookup f.1 != some f.2

end FileTree

end StackLang
