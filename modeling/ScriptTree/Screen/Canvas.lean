import ScriptTree.Screen.Style

/-! A screen is a grid of cells, kept row after row. Drawing outside of it
changes nothing. -/
namespace ScriptTree

structure Area where
  x : Nat
  y : Nat
  width : Nat
  height : Nat
deriving DecidableEq, Repr

namespace Area

def isEmpty (area : Area) : Bool :=
  area.width == 0 || area.height == 0

/-- The inside of a frame one cell thick. -/
def inside (area : Area) : Area :=
  ⟨area.x + 1, area.y + 1, area.width - 2, area.height - 2⟩

def indent (area : Area) (columns : Nat) : Area :=
  { area with x := area.x + columns, width := area.width - columns }

def positions (area : Area) : List (Nat × Nat) :=
  (List.range area.height).flatMap fun dy =>
    (List.range area.width).map fun dx => (area.x + dx, area.y + dy)

/-- The first part has so many hundredths of the width, rounded to the nearest
column; the second has the rest. -/
def splitColumns (area : Area) (percent : Nat) : Area × Area :=
  let first := (area.width * percent + 50) / 100
  ({ area with width := first }, area.indent first)

/-- The first part has so many hundredths of the height, rounded to the nearest
row; the second has the rest. -/
def splitRows (area : Area) (percent : Nat) : Area × Area :=
  let first := (area.height * percent + 50) / 100
  ({ area with height := first },
    { area with y := area.y + first, height := area.height - first })

/-- Everything above the last row, and the last row. -/
def splitLastRow (area : Area) : Area × Area :=
  let above := area.height - 1
  ({ area with height := above },
    { area with y := area.y + above, height := area.height - above })

end Area

structure Screen where
  width : Nat
  height : Nat
  cells : Array Cell

namespace Screen

def blank (width height : Nat) : Screen :=
  ⟨width, height, Array.replicate (width * height) .blank⟩

def area (screen : Screen) : Area :=
  ⟨0, 0, screen.width, screen.height⟩

def modify (screen : Screen) (x y : Nat) (change : Cell → Cell) : Screen :=
  match screen with
  | ⟨width, height, cells⟩ =>
    if x < width ∧ y < height then ⟨width, height, cells.modify (y * width + x) change⟩
    else ⟨width, height, cells⟩

def write (screen : Screen) (x y : Nat) (symbol : Char) (style : Style) : Screen :=
  screen.modify x y (·.write symbol style)

def restyle (screen : Screen) (area : Area) (style : Style) : Screen :=
  area.positions.foldl (fun s (x, y) => s.modify x y (·.restyle style)) screen

def row (screen : Screen) (y : Nat) : List Cell :=
  (screen.cells.extract (y * screen.width) ((y + 1) * screen.width)).toList

def rows (screen : Screen) : List (List Cell) :=
  (List.range screen.height).map screen.row

end Screen

/-- The lengths of the longest runs of neighbouring cells that are styled alike,
each with a cell of its run. -/
def styleRuns : List Cell → List (Nat × Cell)
  | [] => []
  | cell :: rest =>
    match styleRuns rest with
    | [] => [(1, cell)]
    | (n, next) :: runs =>
      if cell.sameStyle next then (n + 1, cell) :: runs else (1, cell) :: (n, next) :: runs

end ScriptTree
