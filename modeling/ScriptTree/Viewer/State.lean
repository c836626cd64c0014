import ScriptTree.Program

/-! The state of a viewer over one program, and what the keys do to it. -/
namespace ScriptTree

inductive Focus where
  | source
  | tree
  | diagnostics
deriving DecidableEq, Repr

def Focus.next : Focus → Focus
  | .source => .tree
  | .tree => .diagnostics
  | .diagnostics => .source

def Focus.previous : Focus → Focus
  | .source => .diagnostics
  | .tree => .source
  | .diagnostics => .tree

inductive Key where
  | char (c : Char)
  | tab | backTab | home | last | up | down | left | right | enter | escape | pageDown
deriving DecidableEq, Repr

/-- Adds a message to those of its line; the lines stay in order and the
messages of a line too. -/
def addMessage (line : Nat) (message : String) :
    List (Nat × List String) → List (Nat × List String)
  | [] => [(line, [message])]
  | (first, messages) :: rest =>
    if line < first then (line, [message]) :: (first, messages) :: rest
    else if line = first then (first, messages ++ [message]) :: rest
    else (first, messages) :: addMessage line message rest

def errorLines (diagnostics : List Diagnostic) : List (Nat × List String) :=
  diagnostics.foldl (fun lines d => addMessage d.line d.message lines) []

structure Viewer where
  source : String
  program : Program
  rows : List Row
  errorLines : List (Nat × List String)
  focus : Focus := .tree
  sourceOffset : Nat := 0
  treeOffset : Nat := 0
  diagnosticsOffset : Nat := 0
  selected : Nat := 0
  following : Bool := true
  quitting : Bool := false
  status : String

namespace Viewer

def fresh (source : String) (program : Program) : Viewer where
  source := source
  program := program
  rows := program.outline
  errorLines := ScriptTree.errorLines program.diagnostics
  status := if program.hadError then "Parsed with errors" else "Parsed cleanly"

def selectedLine (viewer : Viewer) : Option Nat :=
  viewer.rows[viewer.selected]?.bind Row.line

/-- The first line after `line` with an error, or else the first one at all. -/
def nextErrorLine (viewer : Viewer) (line : Nat) : Option Nat :=
  let marked := viewer.errorLines.map (·.1)
  (marked.find? (line < ·)).or marked.head?

/-- Selects the first row on the next line with an error. A line without rows
is shown in the source instead. -/
def jumpToNextError (viewer : Viewer) : Viewer :=
  match viewer.nextErrorLine (viewer.selectedLine.getD 0) with
  | none => { viewer with status := "No syntax errors" }
  | some target =>
    match viewer.rows.findIdx? fun row => row.line = some target with
    | some index =>
      { viewer with
        selected := index
        following := true
        status := "Error on line " ++ toString target }
    | none =>
      { viewer with
        following := false
        sourceOffset := target - 1
        status := "Error on line " ++ toString target ++ " (no node)" }

def moveUp (viewer : Viewer) : Viewer :=
  match viewer.focus with
  | .source => { viewer with following := false, sourceOffset := viewer.sourceOffset - 1 }
  | .tree => { viewer with following := true, selected := viewer.selected - 1 }
  | .diagnostics => { viewer with diagnosticsOffset := viewer.diagnosticsOffset - 1 }

def moveDown (viewer : Viewer) : Viewer :=
  match viewer.focus with
  | .source => { viewer with following := false, sourceOffset := viewer.sourceOffset + 1 }
  | .tree =>
    if viewer.selected + 1 < viewer.rows.length then
      { viewer with following := true, selected := viewer.selected + 1 }
    else { viewer with following := true }
  | .diagnostics => { viewer with diagnosticsOffset := viewer.diagnosticsOffset + 1 }

def press (viewer : Viewer) : Key → Viewer
  | .char 'q' | .char 'Q' | .escape => { viewer with quitting := true }
  | .tab => { viewer with focus := viewer.focus.next }
  | .backTab => { viewer with focus := viewer.focus.previous }
  | .char 'n' => viewer.jumpToNextError
  | .home => { viewer with selected := 0, following := true }
  | .last => { viewer with selected := viewer.rows.length - 1, following := true }
  | .up => viewer.moveUp
  | .down => viewer.moveDown
  | _ => viewer

end Viewer

end ScriptTree
