import ScriptTree.Viewer.DiagnosticsPane
import ScriptTree.Viewer.SourcePane
import ScriptTree.Viewer.State
import ScriptTree.Viewer.StatusBar
import ScriptTree.Viewer.TreePane

/-! One frame of the viewer: the source above the diagnostics on the left, the
tree on the right, the status bar below. Drawing first scrolls every pane to
where it has to be and then only shows the state. -/
namespace ScriptTree

structure ViewerLayout where
  source : Area
  diagnostics : Area
  tree : Area
  status : Area

def ViewerLayout.ofArea (area : Area) : ViewerLayout :=
  let (panes, status) := area.splitLastRow
  let (left, tree) := panes.splitColumns 55
  let (source, diagnostics) := left.splitRows 70
  ⟨source, diagnostics, tree, status⟩

namespace Viewer

def sourcePane (viewer : Viewer) : SourcePane where
  source := viewer.source
  current := if viewer.following then viewer.selectedLine else none
  marked := viewer.errorLines.map (·.1)
  focused := viewer.focus == .source

def treePane (viewer : Viewer) : TreePane where
  rows := viewer.rows
  selected := viewer.selected
  focused := viewer.focus == .tree

def diagnosticsPane (viewer : Viewer) : DiagnosticsPane where
  diagnostics := viewer.program.diagnostics
  focused := viewer.focus == .diagnostics

def statusBar (viewer : Viewer) : StatusBar where
  message := viewer.status
  statements := viewer.program.statements.size
  errors := viewer.program.diagnostics.length

def scroll (viewer : Viewer) (layout : ViewerLayout) : Viewer :=
  { viewer with
    sourceOffset := viewer.sourcePane.scroll layout.source viewer.sourceOffset
    treeOffset := viewer.treePane.scroll layout.tree viewer.treeOffset
    diagnosticsOffset :=
      viewer.diagnosticsPane.scroll layout.diagnostics viewer.diagnosticsOffset }

def paint (viewer : Viewer) (layout : ViewerLayout) (screen : Screen) : Screen :=
  let withSource := viewer.sourcePane.draw screen layout.source viewer.sourceOffset
  let withDiagnostics :=
    viewer.diagnosticsPane.draw withSource layout.diagnostics viewer.diagnosticsOffset
  let withTree := viewer.treePane.draw withDiagnostics layout.tree viewer.treeOffset
  viewer.statusBar.draw withTree layout.status

/-- Draws a frame on a blank screen, answering the scrolled viewer too. -/
def draw (viewer : Viewer) (width height : Nat) : Viewer × Screen :=
  let screen := Screen.blank width height
  let layout := ViewerLayout.ofArea screen.area
  let scrolled := viewer.scroll layout
  (scrolled, scrolled.paint layout screen)

end Viewer

end ScriptTree
