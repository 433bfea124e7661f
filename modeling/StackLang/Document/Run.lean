import StackLang.Document
import StackLang.Machine.Run

/-! Running what a tree file holds. Only a program can be run, and of the elements of its body only
the statements. -/

namespace StackLang

namespace Document

def className : Document → String
  | nothing => "NoneType"
  | d => "stax.ast." ++ d.typeName

def line? : Document → Option Int
  | statement s => some s.line
  | _ => none

def exec (detail : Nat) (d : Document) (m : Machine) : Outcome Machine :=
  match d with
  | statement s => s.exec detail m
  | d => .failed (.unsupported (.statement d.className)) m

instance : Executable Document := ⟨line?, typeName, exec⟩

def run (detail : Nat) (d : Document) (m : Machine) : Outcome Machine :=
  m.traced detail fun m =>
    match d with
    | program body => m.runBody detail body
    | d => .failed (.unsupported (.noBody d.typeName)) m

end Document

end StackLang
