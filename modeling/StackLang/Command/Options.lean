import StackLang.Command.Typed
import StackLang.Text.Digit
import StackLang.Text.Quoted

/-! The command line: which switches are given, and which file is to be run. Whether an argument is
a switch is decided for all arguments first, then they are taken in order. -/

namespace StackLang

/-- A switch that is given or not. -/
inductive Flag where
  | help
  | verbose
  | tokens
deriving DecidableEq

/-- A switch that takes a value. -/
inductive Setting where
  | sentinel
  | emit
  | tree
deriving DecidableEq

inductive Switch where
  | flag (f : Flag)
  | setting (s : Setting)
deriving DecidableEq

namespace Switch

def spellings : List (String × Switch) :=
  [("-h", flag .help), ("--help", flag .help), ("-v", flag .verbose), ("--tokens", flag .tokens),
    ("--sentinel", setting .sentinel), ("--emit-ast", setting .emit), ("--ast", setting .tree)]

def ofSpelling? (cs : List Char) : Option Switch := spellings.lookup (String.ofList cs)

/-- All spellings, as messages name the switch. -/
def title (s : Switch) : String :=
  String.intercalate "/" ((spellings.filter (·.2 = s)).map Prod.fst)

end Switch

inductive UsageError where
  | ambiguous (argument : String) (spellings : List String)
  | needless (s : Switch) (value : String)
  | noValue (s : Setting)
  | excluded (s earlier : Setting)
  | unrecognized (arguments : List String)
deriving DecidableEq

def UsageError.message : UsageError → String
  | ambiguous argument spellings =>
    "ambiguous option: " ++ argument ++ " could match " ++ String.intercalate ", " spellings
  | needless s value =>
    "argument " ++ s.title ++ ": ignored explicit argument " ++ Text.quoted value
  | noValue s => "argument " ++ (Switch.setting s).title ++ ": expected one argument"
  | excluded s earlier =>
    "argument " ++ (Switch.setting s).title ++ ": not allowed with argument " ++
      (Switch.setting earlier).title
  | unrecognized arguments => "unrecognized arguments: " ++ String.intercalate " " arguments

/-- One argument, looked at on its own. -/
inductive Argument where
  | operand (text : String)
  /-- A flag with two dashes, and what is attached to it with `=`. -/
  | flag (f : Flag) (attached : Option String)
  /-- A flag with one dash, and the letters or other text after it. -/
  | cluster (f : Flag) (attached : Option String)
  | setting (s : Setting) (attached : Option String)
  | unknown (text : String)
  /-- What follows it are operands. -/
  | separator
deriving DecidableEq

namespace Argument

def isLong (cs : List Char) : Bool := cs.take 2 == ['-', '-']

def ofSwitch (spelling : List Char) (attached : Option (List Char)) : Switch → Argument
  | .flag f =>
    if isLong spelling then flag f (attached.map String.ofList)
    else cluster f (attached.map String.ofList)
  | .setting s => setting s (attached.map String.ofList)

/-- What stands before the first `=`, and what behind it. -/
def cutAtEquals (cs : List Char) : List Char × Option (List Char) :=
  (cs.takeWhile (· != '='), (cs.dropWhile (· != '=')).tail?)

/-- The switches that an argument may mean which spells none of them out: those that a long name
begins, or the one that a dash and a letter begin. -/
def candidates (cs : List Char) : List (String × Argument) :=
  if isLong cs then
    let (name, attached) := cutAtEquals cs
    (Switch.spellings.filter fun e => name.isPrefixOf e.1.toList).map fun e =>
      (e.1, ofSwitch e.1.toList attached e.2)
  else
    (Switch.spellings.filter fun e => e.1.toList == cs.take 2).map fun e =>
      (e.1, ofSwitch e.1.toList (some (cs.drop 2)) e.2)

def isDigits (cs : List Char) : Bool := !cs.isEmpty && cs.all Text.isDigit

/-- A minus sign and digits, with at most one point before the last of them. One line feed may
follow. -/
def isNegativeNumber (cs : List Char) : Bool :=
  match if cs.getLast? = some '\n' then cs.dropLast else cs with
  | '-' :: rest =>
    isDigits rest ||
      match rest.dropWhile Text.isDigit with
      | '.' :: fraction => isDigits fraction
      | _ => false
  | _ => false

def ofUnspelled (cs : List Char) : Except UsageError Argument :=
  match candidates cs with
  | [(_, a)] => .ok a
  | [] =>
    if isNegativeNumber cs || cs.contains ' ' then .ok (operand (String.ofList cs))
    else .ok (unknown (String.ofList cs))
  | several => .error (.ambiguous (String.ofList cs) (several.map Prod.fst))

def ofChars (cs : List Char) : Except UsageError Argument :=
  match Switch.ofSpelling? cs with
  | some s => .ok (ofSwitch cs none s)
  | none =>
    match cs with
    | '-' :: _ :: _ =>
      let (name, attached) := cutAtEquals cs
      match attached, Switch.ofSpelling? name with
      | some _, some s => .ok (ofSwitch name attached s)
      | _, _ => ofUnspelled cs
    | _ => .ok (operand (String.ofList cs))

def ofStrings : List String → Except UsageError (List Argument)
  | [] => .ok []
  | s :: rest =>
    if s = "--" then .ok (separator :: rest.map operand)
    else do
      let a ← ofChars s.toList
      let as ← ofStrings rest
      pure (a :: as)

end Argument

/-- What is asked for. A file name may be empty. -/
structure Request where
  detail : Nat := 0
  listTokens : Bool := false
  /-- The line that ends a typed source, if there is one. -/
  sentinel : Option String := some defaultSentinel
  emit : Option String := none
  tree : Option String := none
  program : Option String := none
deriving DecidableEq

inductive Invocation where
  | help
  | run (r : Request)
deriving DecidableEq

namespace Request

def withFlag (r : Request) : Flag → Request
  | .verbose => { r with detail := r.detail + 1 }
  | .tokens => { r with listTokens := true }
  | .help => r

/-- A file name that is no value stands for the empty one. -/
def withValue (r : Request) (s : Setting) (value : Option String) : Except UsageError Request :=
  match s with
  | .sentinel => .ok { r with sentinel := value }
  | .emit =>
    if r.tree.isSome then .error (.excluded .emit .tree)
    else .ok { r with emit := some (value.getD "") }
  | .tree =>
    if r.emit.isSome then .error (.excluded .tree .emit)
    else .ok { r with tree := some (value.getD "") }

end Request

namespace Invocation

/-- The flags of a cluster such as `-vv`, the first of which is known. -/
def clusterFlags (f : Flag) : List Char → Except UsageError (List Flag)
  | [] => .ok [f]
  | c :: rest =>
    match Switch.ofSpelling? ['-', c] with
    | some (.flag next) => (clusterFlags next rest).map (f :: ·)
    | _ => .error (.needless (.flag f) (String.ofList (c :: rest)))

/-- What is attached to a flag is more flags, but it cannot be empty. -/
def flagsOf (f : Flag) : Option String → Except UsageError (List Flag)
  | none => .ok [f]
  | some "" => .error (.needless (.flag f) "")
  | some letters => clusterFlags f letters.toList

/-- Two dashes are no value, not even attached to a switch. -/
def attachedValue (text : String) : Option String := if text = "--" then none else some text

/-- Takes the arguments in order. `afterOperand` says whether the argument before was taken as the
program; only there, or where none has been taken yet, may the separator stand. -/
def take (r : Request) (extras : List String) (afterOperand : Bool) :
    List Argument → Except UsageError Invocation
  | [] => if extras = [] then .ok (run r) else .error (.unrecognized extras)
  | .operand text :: rest =>
    if r.program.isNone then take { r with program := some text } extras true rest
    else take r (extras ++ [text]) false rest
  | .separator :: rest =>
    if r.program.isNone || afterOperand then take r extras false rest
    else take r (extras ++ ["--"]) false rest
  | .unknown text :: rest => take r (extras ++ [text]) false rest
  | .flag f (some text) :: _ => .error (.needless (.flag f) text)
  | .flag .help none :: _ => .ok help
  | .flag f none :: rest => take (r.withFlag f) extras false rest
  | .cluster f attached :: rest => do
    let flags ← flagsOf f attached
    if .help ∈ flags then pure help
    else take (flags.foldl Request.withFlag r) extras false rest
  | .setting s (some text) :: rest => do
    take (← r.withValue s (attachedValue text)) extras false rest
  | .setting s none :: .operand text :: rest => do
    take (← r.withValue s (some text)) extras false rest
  | .setting s none :: _ => .error (.noValue s)

def read (arguments : List String) : Except UsageError Invocation := do
  take {} [] false (← Argument.ofStrings arguments)

end Invocation

def usage : String :=
  "usage: stax [-h] [-v] [--tokens] [--sentinel SENTINEL]\n" ++
  "            [--emit-ast STAX_FILE | --ast AST_JSON_FILE]\n" ++
  "            [program]\n"

def helpText : String :=
  usage ++
  "\nStax stack language interpreter\n" ++
  "\npositional arguments:\n" ++
  "  program               Stax program file (.stax) to execute\n" ++
  "\noptions:\n" ++
  "  -h, --help            show this help message and exit\n" ++
  "  -v                    increase debug verbosity (can be repeated)\n" ++
  "  --tokens              print the token list before running\n" ++
  "  --sentinel SENTINEL   line that ends interactive input\n" ++
  "  --emit-ast STAX_FILE  emit AST JSON for the given .stax file\n" ++
  "  --ast AST_JSON_FILE   execute AST from a JSON file\n"

/-- What is shown for arguments that cannot be understood. -/
def UsageError.report (e : UsageError) : String := usage ++ "stax: error: " ++ e.message ++ "\n"

end StackLang
