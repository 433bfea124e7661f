import StackLang.Command.Files
import StackLang.Command.Options
import StackLang.Document.Load
import StackLang.Document.Run
import StackLang.Json.Reader
import StackLang.Json.Writer
import StackLang.Program.Parser

/-! What the program does when it is called: from the arguments, the files and the typed text to the
texts that are shown, the files that are written, and how it ends. -/

namespace StackLang

/-- Ends that are not foreseen. -/
inductive Crash where
  | isDirectory (p : Path)
  | nameTooLong (p : Path)
  | undecodable (e : Text.Utf8Error)
  | overflow (e : LoadError)
  | digitLimit
  | unencodable (e : Text.EncodeError)
  | unsupported (u : Unsupported)

def Crash.message : Crash → Text
  | isDirectory p => "[Errno 21] Is a directory: " ++ Text.quoted p.text
  | nameTooLong p => "[Errno 36] File name too long: " ++ Text.quoted p.text
  | undecodable e => e.message
  | overflow e => e.message
  | digitLimit => digitLimitMessage
  | unencodable e => e.message
  | unsupported u => u.message

inductive Ending where
  | exit (code : Nat)
  | crash (c : Crash)

structure Report where
  stdout : String
  stderr : String
  ending : Ending
  writes : List Write

/-- Why nothing is run. -/
inductive Refusal where
  | missing (p : Path)
  | diagnostic (d : Diagnostic)
  | badTree (message : Text)
  | crash (c : Crash)

namespace Refusal

def message : Refusal → Text
  | missing p => "Error: file " ++ p.text ++ " not found"
  | diagnostic d => d.text?.getD ""
  | badTree message => "Runtime error: " ++ message
  | crash c => c.message

/-- `shown` has been shown before. What goes to the error stream has escapes for halves of surrogate
pairs. -/
def report (shown : String) : Refusal → Report
  | crash c => ⟨shown, "", .crash c, []⟩
  | r => ⟨shown, r.message.withEscapes ++ "\n", .exit 1, []⟩

end Refusal

namespace Session

/-- The text of a file, with line feeds for all line breaks. -/
def readText (files : Files) (p : Path) : Except Refusal (Except Text.Utf8Error String) :=
  match files p with
  | none => .error (.missing p)
  | some .directory => .error (.crash (.isDirectory p))
  | some .tooLong => .error (.crash (.nameTooLong p))
  | some (.file bytes) =>
    .ok ((Text.Utf8.decode bytes).map fun cs => String.ofList (Text.normalBreaks cs))

def readSource (files : Files) (p : Path) : Except Refusal String := do
  (← readText files p).mapError fun e => .crash (.undecodable e)

/-- Only numbers that are too large are not foreseen. -/
def loadRefusal (e : LoadError) : Refusal :=
  if e.family = .overflow then .crash (.overflow e) else .badTree e.message

def readTree (files : Files) (p : Path) : Except Refusal Document := do
  let text ← (← readText files p).mapError fun e => .badTree e.message
  let j ← (Json.read text).mapError fun e => .badTree e.message
  (Document.ofJson j).mapError loadRefusal

def tracePath : Path := .ofString "debug.txt"

/-- How a failed run ends, and the line that it shows. -/
def failureEnding : Failure → Ending × String
  | .fault f line =>
    (.exit 1, ((f.diagnostic line).text?.map Text.withEscapes).getD "" ++ "\n")
  | .digitLimit => (.crash .digitLimit, "")
  | .unencodable e => (.crash (.unencodable e), "")
  | .unsupported u => (.crash (.unsupported u), "")

/-- The report on a run. Its trace is written however it ends. -/
def outcomeReport (shown : String) (detail : Nat) (o : Outcome Machine) : Report :=
  let (ending, stderr) := (o.failure?.map failureEnding).getD (.exit 0, "")
  let trace := Event.lines o.state.events.reverse
  ⟨shown ++ o.state.output, stderr, ending, if detail = 0 then [] else [⟨tracePath, trace⟩]⟩

/-- Runs something after `shown` has been shown. The trace file is opened before it starts. -/
def runShown (files : Files) (shown : String) (detail : Nat) (input : List String)
    (run : Machine → Outcome Machine) : Report :=
  if detail ≠ 0 ∧ files tracePath = some .directory then
    (Refusal.crash (.isDirectory tracePath)).report shown
  else outcomeReport shown detail (run (.startOn .encoded (input.map Text.ofString)))

/-- The tree file beside a source file. -/
def treePath (p : Path) : Path := p.extended ".ast.json"

def emit (files : Files) (p : Path) : Except Refusal Report := do
  let source ← readSource files p
  let program ← (parseProgram source).mapError fun e => .diagnostic e.diagnostic
  let target := treePath p
  if files target = some .directory then throw (.crash (.isDirectory target))
  if files target = some .tooLong then throw (.crash (.nameTooLong target))
  pure ⟨target.text ++ "\n", "", .exit 0, [⟨target, program.document.toJson.write⟩]⟩

def runTree (files : Files) (detail : Nat) (p : Path) (input : List String) :
    Except Refusal Report := do
  let d ← readTree files p
  pure (runShown files "" detail input (d.run detail))

def listing (tokens : List Token) : String := String.join (tokens.map fun t => t.listed ++ "\n")

def runSource (files : Files) (r : Request) (source : String) (input : List String) : Report :=
  match tokenize source with
  | .error e => (Refusal.diagnostic e.diagnostic).report ""
  | .ok tokens =>
    let shown := if r.listTokens then listing tokens else ""
    match parse tokens with
    | .error e => (Refusal.diagnostic e.diagnostic).report shown
    | .ok p => runShown files shown r.detail input (p.run r.detail)

/-- The source on the lines that are typed, and the lines behind it. -/
def typed (sentinel : Option String) (lines : List String) : String × List String :=
  match sentinel with
  | some s => (typedSource s lines, (splitTyped s lines).2)
  | none => (String.join (lines.map fun line => withoutBreak line ++ "\n"), [])

/-- A file name that is given and is not empty. -/
def named (name : Option String) : Option Path := (name.filter (· != "")).map .ofString

def runRequest (files : Files) (r : Request) (lines : List String) : Except Refusal Report :=
  match named r.emit, named r.tree, named r.program with
  | some p, _, _ => emit files p
  | none, some p, _ => runTree files r.detail p lines
  | none, none, some p => do pure (runSource files r (← readSource files p) lines)
  | none, none, none =>
    let (source, rest) := typed r.sentinel lines
    .ok (runSource files r source rest)

/-- All paths under which a request may look. -/
def paths (r : Request) : List Path :=
  tracePath :: [named r.emit, (named r.emit).map treePath, named r.tree,
    named r.program].filterMap id

/-- The lines of the typed text. -/
def inputLines (stdin : String) : List String :=
  Text.lines (String.ofList (Text.normalBreaks stdin.toList))

def run (files : Files) (arguments : List String) (stdin : String) : Report :=
  match Invocation.read arguments with
  | .error e => ⟨"", e.report, .exit 2, []⟩
  | .ok .help => ⟨helpText, "", .exit 0, []⟩
  | .ok (.run r) =>
    match runRequest files r (inputLines stdin) with
    | .ok report => report
    | .error refusal => refusal.report ""

end Session

/-- A session on a tree, which it changes by its writes. -/
def FileTree.session (t : FileTree) (arguments : List String) (stdin : String) :
    Report × FileTree :=
  let report := Session.run t.under? arguments stdin
  (report, report.writes.foldl FileTree.write t)

end StackLang
