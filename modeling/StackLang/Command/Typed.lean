import StackLang.Text.Lines

/-! Source text that is typed: the lines before the first one that equals the sentinel. -/

namespace StackLang

def defaultSentinel : String := "!E"

/-- Drops carriage returns and line feeds at the end. -/
def withoutBreak (line : String) : String :=
  String.ofList (line.toList.reverse.dropWhile fun c => c == '\r' || c == '\n').reverse

/-- The lines of the source without their breaks, and the lines behind the sentinel. -/
def splitTyped (sentinel : String) : List String → List String × List String
  | [] => ([], [])
  | line :: rest =>
    if withoutBreak line = sentinel then ([], rest)
    else
      let (source, behind) := splitTyped sentinel rest
      (withoutBreak line :: source, behind)

def typedSource (sentinel : String) (lines : List String) : String :=
  String.join ((splitTyped sentinel lines).1.map (· ++ "\n"))

end StackLang
