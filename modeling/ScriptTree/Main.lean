import ScriptTree.Command.Run
import ScriptTree.Viewer.Frame
import ScriptTree.Viewer.Keys

/-! The command line. The viewer is drawn as plain text and takes its keys a
line at a time. -/
namespace ScriptTree

def readFailureOf : IO.Error → ReadFailure
  | .noFileOrDirectory .. => .noSuchFile
  | .inappropriateType _ code _ => if code = 21 then .isDirectory else .notDirectory
  | failure => .other (toString failure)

def readSource (file : String) : IO (Except ReadFailure String) := do
  try
    return readText (← IO.FS.readBinFile file)
  catch failure =>
    return .error (readFailureOf failure)

partial def viewLoop (viewer : Viewer) : IO Unit := do
  let (drawn, screen) := viewer.draw 80 24
  for cells in screen.rows do
    IO.println (String.ofList (cells.map Cell.symbol))
  let line ← (← IO.getStdin).getLine
  let pressed := (Key.ofChars (line.toList.filter (· != '\n'))).foldl Viewer.press drawn
  if line.isEmpty || pressed.quitting then return
  viewLoop pressed

def finish : Outcome → IO UInt32
  | .rejected => do
    IO.eprintln "usage: ari parse FILE [--max-depth N] [--quiet] | ari view FILE [--max-depth N]"
    return 2
  | .finished report => do
    IO.print report.stdout
    IO.eprint report.stderr
    return report.exit.toUInt32
  | .viewing viewer => do
    viewLoop viewer
    return 0

end ScriptTree

def main (args : List String) : IO UInt32 := do
  match ScriptTree.Invocation.ofArgs? args with
  | none => ScriptTree.finish .rejected
  | some .version => ScriptTree.finish (.finished ScriptTree.versionReport)
  | some (.onFile action file limits) =>
    ScriptTree.finish (action.run file limits (← ScriptTree.readSource file))
