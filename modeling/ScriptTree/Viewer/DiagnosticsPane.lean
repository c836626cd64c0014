import ScriptTree.Diagnostic
import ScriptTree.Screen.Widget
import ScriptTree.Text.Lines
import ScriptTree.Viewer.Palette
import ScriptTree.Viewer.Window

/-! The pane that lists the diagnostics, each taking as many rows as its text
has lines. -/
namespace ScriptTree

structure DiagnosticsPane where
  diagnostics : List Diagnostic
  focused : Bool := false

namespace DiagnosticsPane

/-- Without diagnostics there is nothing to scroll. -/
def scroll (pane : DiagnosticsPane) (area : Area) (offset : Nat) : Nat :=
  if pane.diagnostics.isEmpty then offset
  else clampOffset offset pane.diagnostics.length area.visibleRows

def shown (pane : DiagnosticsPane) (area : Area) (offset : Nat) : List (List String) :=
  ((pane.diagnostics.drop offset).take area.visibleRows).map fun d => lines d.text

def draw (pane : DiagnosticsPane) (screen : Screen) (area : Area) (offset : Nat) : Screen :=
  let border := Palette.border pane.focused
  let title := " Diagnostics (" ++ toString pane.diagnostics.length ++ ") "
  if pane.diagnostics.isEmpty then
    screen.framedParagraph area title border { fg := some Palette.ok }
      [{ spans := [⟨"No syntax errors", {}⟩] }]
  else
    (screen.frame area title border).listing (area.inside.indent 1) { fg := some Palette.error }
      (pane.shown area offset)

end DiagnosticsPane

end ScriptTree
