import StackLang.Command.Session

/-! The command line: reads what a session needs, and does what its report says. -/

namespace StackLang

/-- What there is under a path that cannot be resolved. -/
def entryBeyond (p : Path) : IO (Option Entry) := do
  try
    discard (IO.FS.readBinFile p.text)
    return none
  catch
    | .invalidArgument .. => return some .tooLong
    | _ => return none

/-- What there is under a path. What cannot be looked at counts as missing. -/
def entryAt (p : Path) : IO (Option Entry) := do
  try
    let file ← IO.FS.realPath p.text
    if ← file.isDir then return some .directory
    return some (.file (← IO.FS.readBinFile file).toList)
  catch _ => entryBeyond p

def filesAt (paths : List Path) : IO Files := do
  let entries ← paths.mapM fun p => do return (p, ← entryAt p)
  return fun p => (entries.lookup p).join

def perform (r : Report) : IO UInt32 := do
  for w in r.writes do
    IO.FS.writeFile w.path.text w.text
  (← IO.getStdout).putStr r.stdout
  let stderr ← IO.getStderr
  stderr.putStr r.stderr
  match r.ending with
  | .exit code => return UInt32.ofNat code
  | .crash c =>
    stderr.putStr (c.message.withEscapes ++ "\n")
    return 1

partial def readBytes (stream : IO.FS.Stream) (done : ByteArray) : IO ByteArray := do
  let bytes ← stream.read 65536
  if bytes.isEmpty then return done else readBytes stream (done ++ bytes)

/-- Typed text is read before the session starts, unless nothing is going to be run. -/
def runWith (arguments : List String) (r : Request) : IO UInt32 := do
  let files ← filesAt (Session.paths r)
  let bytes ← if (Session.named r.emit).isSome then pure ByteArray.empty
    else readBytes (← IO.getStdin) ByteArray.empty
  match Text.Utf8.decode bytes.toList with
  | .ok cs => perform (Session.run files arguments (String.ofList cs))
  | .error e => perform ⟨"", "", .crash (.undecodable e), []⟩

end StackLang

open StackLang in
def main (arguments : List String) : IO UInt32 :=
  match Invocation.read arguments with
  | .ok (.run r) => runWith arguments r
  | _ => perform (Session.run (fun _ => none) arguments "")
