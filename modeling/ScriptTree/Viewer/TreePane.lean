import ScriptTree.Screen.Widget
import ScriptTree.Text.Space
import ScriptTree.Tree.Outline
import ScriptTree.Viewer.Palette
import ScriptTree.Viewer.Window

/-! The pane that shows the outline, two columns of indentation for each level
and an icon for each kind of node. The selected row is kept in view. -/
namespace ScriptTree

structure TreePane where
  rows : List Row
  selected : Nat := 0
  focused : Bool := false

namespace TreePane

/-- The first word of a label names the kind of node. -/
def icon (label : String) : String :=
  match firstWord label with
  | "Block" => "\x7b\x7d"
  | "Expr" => "▸"
  | "If" | "Else" => "?"
  | "While" | "For" => "↻"
  | "Var" => "≔"
  | "Binary" => "∘"
  | "Unary" => "¬"
  | "Literal" => "◦"
  | "Variable" => "@"
  | "Grouping" => "()"
  | "Assign" => "←"
  | _ => "∅"

/-- Without rows there is nothing to scroll. -/
def scroll (pane : TreePane) (area : Area) (offset : Nat) : Nat :=
  if pane.rows.isEmpty then offset else keepVisible offset pane.selected area.visibleRows

def styledLine (pane : TreePane) (index : Nat) (row : Row) : StyledLine where
  spans :=
    [⟨String.ofList (List.replicate (2 * row.depth) ' '), {}⟩,
     ⟨icon row.label ++ " ", { fg := some Palette.muted }⟩,
     ⟨row.label, { fg := some (if row.label.toList.head? = some '<' then Palette.error
       else Palette.node) }⟩]
  style :=
    if index = pane.selected then
      { fg := some .white, bg := some Palette.selection, bold := true }
    else {}

def draw (pane : TreePane) (screen : Screen) (area : Area) (offset : Nat) : Screen :=
  let border := Palette.border pane.focused
  if pane.rows.isEmpty then
    screen.framedParagraph area " Syntax Tree " border { fg := some Palette.muted }
      [{ spans := [⟨"(no statements)", {}⟩] }]
  else
    let shown := (pane.rows.zipIdx.drop offset).take area.visibleRows
    screen.framedParagraph area " Syntax Tree " border {}
      (shown.map fun (row, index) => pane.styledLine index row)

end TreePane

end ScriptTree
