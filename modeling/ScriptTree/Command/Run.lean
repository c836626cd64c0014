import ScriptTree.Command.Folder
import ScriptTree.Command.Invocation
import ScriptTree.Viewer.State

/-! What a command does: it prints a program or opens a viewer on it. A text
that is no script is still printed, but the exit status tells. -/
namespace ScriptTree

structure Report where
  exit : Nat := 0
  stdout : String := ""
  stderr : String := ""
deriving DecidableEq, Repr

inductive Outcome where
  | rejected
  | finished (report : Report)
  | viewing (viewer : Viewer)

def asLines (texts : List String) : String :=
  String.join (texts.map (· ++ "\n"))

def versionReport : Report where
  stdout := "ari 0.1.0\n"

def readFailureReport (file : String) (failure : ReadFailure) : Report where
  exit := 1
  stderr :=
    "Error: failed to read '" ++ file ++ "'\n\nCaused by:\n    " ++ failure.reason ++ "\n"

/-- The diagnostics go to one stream and the statements to the other. -/
def parseReport (quiet : Bool) (program : Program) : Report where
  exit := if program.hadError then 65 else 0
  stdout := if quiet then "" else asLines (program.statements.toList.map Stmt.text)
  stderr := asLines (program.diagnostics.map Diagnostic.text)

def Action.run (action : Action) (file : String) (limits : Limits) :
    Except ReadFailure String → Outcome
  | .error failure => .finished (readFailureReport file failure)
  | .ok source =>
    let program := ScriptTree.parse source limits
    match action with
    | .parse quiet => .finished (parseReport quiet program)
    | .view => .viewing (.fresh source program)

def run (folder : Folder) (args : List String) : Outcome :=
  match Invocation.ofArgs? args with
  | none => .rejected
  | some .version => .finished versionReport
  | some (.onFile action file limits) => action.run file limits (folder.read file)

end ScriptTree
