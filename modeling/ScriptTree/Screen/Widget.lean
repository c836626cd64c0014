import ScriptTree.Screen.Canvas
import ScriptTree.Text.Lines
import ScriptTree.Text.Width

/-! What is drawn on a screen: a titled frame, a paragraph of styled lines and
a listing of items. A wide character blanks the cell behind its own. -/
namespace ScriptTree

structure Span where
  text : String
  style : Style := {}

/-- The style of a line lies under the styles of its spans. -/
structure StyledLine where
  spans : List Span
  style : Style := {}

structure Glyph where
  symbol : Char
  style : Style

def Glyph.width (glyph : Glyph) : Nat :=
  cellWidth glyph.symbol

def glyphsOf (style : Style) (text : List Char) : List Glyph :=
  text.map fun c => ⟨c, style⟩

/-- A line break takes no cell, and a carriage return takes none as a part of
one. -/
def StyledLine.glyphs (line : StyledLine) : List Glyph :=
  line.spans.flatMap fun span =>
    glyphsOf (line.style.patch span.style) (withoutBreaks span.text)

/-- What fits into so many cells, up to the first glyph that does not. -/
def cutGlyphs (room : Nat) : List Glyph → List Glyph
  | [] => []
  | glyph :: rest =>
    if glyph.width ≤ room then glyph :: cutGlyphs (room - glyph.width) rest else []

def glyphsWidth (glyphs : List Glyph) : Nat :=
  glyphs.foldr (fun glyph width => glyph.width + width) 0

namespace Screen

/-- Writes one glyph and answers the column behind it. -/
def writeGlyph (screen : Screen) (x y : Nat) (glyph : Glyph) : Screen × Nat :=
  let written := screen.write x y glyph.symbol glyph.style
  if glyph.width = 2 then (written.modify (x + 1) y fun _ => .blank, x + 2)
  else (written, x + 1)

def writeGlyphs (screen : Screen) (x y : Nat) (glyphs : List Glyph) : Screen :=
  (glyphs.foldl (fun (s, x) glyph => s.writeGlyph x y glyph) (screen, x)).1

/-- A frame around an area, its title in the top border. The title keeps the
border's style and leaves the corners free. -/
def frame (screen : Screen) (area : Area) (title : String) (border : Style) : Screen :=
  if area.isEmpty then screen
  else
    let right := area.x + area.width - 1
    let bottom := area.y + area.height - 1
    let column (x : Nat) (s : Screen) : Screen :=
      (List.range area.height).foldl (fun s dy => s.write x (area.y + dy) '│' border) s
    let line (y : Nat) (s : Screen) : Screen :=
      (List.range area.width).foldl (fun s dx => s.write (area.x + dx) y '─' border) s
    let sides := line bottom (column right (line area.y (column area.x screen)))
    let corners := (((sides.write right bottom '┘' border).write right area.y '┐' border).write
      area.x bottom '└' border).write area.x area.y '┌' border
    corners.writeGlyphs (area.x + 1) area.y
      (cutGlyphs (area.width - 2) (glyphsOf {} title.toList))

inductive Alignment where
  | left
  | right

/-- One line of a paragraph. A glyph wider than the whole line is left out. -/
def paragraphLine (screen : Screen) (x y width : Nat) (alignment : Alignment)
    (line : StyledLine) : Screen :=
  let kept := cutGlyphs width (line.glyphs.filter (·.width ≤ width))
  match alignment with
  | .left => screen.writeGlyphs x y kept
  | .right => screen.writeGlyphs (x + (width - glyphsWidth kept)) y kept

def paragraph (screen : Screen) (area : Area) (base : Style) (alignment : Alignment)
    (lines : List StyledLine) : Screen :=
  let based := screen.restyle area base
  ((lines.take area.height).zipIdx area.y).foldl
    (fun s (line, y) => s.paragraphLine area.x y area.width alignment line) based

def framedParagraph (screen : Screen) (area : Area) (title : String) (border base : Style)
    (lines : List StyledLine) : Screen :=
  ((screen.restyle area base).frame area title border).paragraph area.inside base .left lines

end Screen

/-- The items that a listing of so many rows has place for: each takes as many
rows as it has lines, and the first that does not fit as a whole ends it. -/
def fittingItems (rows : Nat) : List (List String) → List (List String)
  | [] => []
  | item :: rest =>
    if item.length ≤ rows then item :: fittingItems (rows - item.length) rest else []

/-- The items of a listing from the top of an area, all of one style. -/
def Screen.listing (screen : Screen) (area : Area) (style : Style) (items : List (List String)) :
    Screen :=
  if area.isEmpty then screen
  else
    ((fittingItems area.height items).flatten.zipIdx area.y).foldl
      (fun s (text, y) =>
        (s.restyle ⟨area.x, y, area.width, 1⟩ style).writeGlyphs area.x y
          (cutGlyphs area.width (glyphsOf {} text.toList)))
      screen

end ScriptTree
