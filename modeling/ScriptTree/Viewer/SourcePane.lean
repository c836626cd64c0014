import ScriptTree.Screen.Widget
import ScriptTree.Text.Lines
import ScriptTree.Viewer.Highlight
import ScriptTree.Viewer.Window

/-! The pane that shows the script with line numbers. Lines with an error are
marked, and so is the line of the selected node, which is kept in view. -/
namespace ScriptTree

structure SourcePane where
  source : String
  current : Option Nat := none
  marked : List Nat := []
  focused : Bool := false

namespace SourcePane

def lines (pane : SourcePane) : List String :=
  ScriptTree.lines pane.source

/-- Only a line of the source is followed; in any case no row is wasted. -/
def scroll (pane : SourcePane) (area : Area) (offset : Nat) : Nat :=
  let total := pane.lines.length
  let height := area.visibleRows
  let followed :=
    match pane.current with
    | some line => if 0 < line ∧ line ≤ total then keepVisible offset (line - 1) height else offset
    | none => offset
  clampOffset followed total height

/-- A line number right-aligned in four columns, longer if it has to be. -/
def numberText (number : Nat) : String :=
  let digits := toString number
  String.ofList (List.replicate (4 - digits.length) ' ') ++ digits

def styledLine (pane : SourcePane) (number : Nat) (text : String) : StyledLine :=
  let fragments := highlight text
  let label (marker : String) := numberText number ++ marker ++ " "
  if number ∈ pane.marked then
    let style : Style := { fg := some .white, bg := some Palette.error, bold := true }
    { spans := ⟨label "✗", { fg := some Palette.error, bold := true }⟩ ::
        fragments.map fun f => ⟨String.ofList f.text, style⟩ }
  else if pane.current = some number then
    { spans := ⟨label "▶", { fg := some Palette.marker, bold := true }⟩ ::
        fragments.map fun f =>
          ⟨String.ofList f.text, f.tint.style.patch { bg := some Palette.selection }⟩ }
  else
    { spans := ⟨label " ", { fg := some Palette.muted }⟩ ::
        fragments.map fun f => ⟨String.ofList f.text, f.tint.style⟩ }

def draw (pane : SourcePane) (screen : Screen) (area : Area) (offset : Nat) : Screen :=
  let shown := ((pane.lines.zipIdx 1).drop offset).take area.visibleRows
  screen.framedParagraph area " Source " (Palette.border pane.focused) {}
    (shown.map fun (text, number) => pane.styledLine number text)

end SourcePane

end ScriptTree
