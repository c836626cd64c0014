import ScriptTree.Screen.Canvas

/-! A pane shows a window of its rows: as many as fit between the borders,
from an offset on. -/
namespace ScriptTree

def Area.visibleRows (area : Area) : Nat :=
  max (area.height - 2) 1

/-- The offset nearest to the old one that shows the selected row. -/
def keepVisible (offset selected height : Nat) : Nat :=
  if selected < offset then selected
  else if selected ≥ offset + height then selected + 1 - height
  else offset

/-- The offset, or the last one that leaves no row of the window unused. -/
def clampOffset (offset total height : Nat) : Nat :=
  min offset (total - height)

end ScriptTree
