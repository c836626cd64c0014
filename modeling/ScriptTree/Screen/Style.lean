/-! Colours, styles and the cells of a screen. A style is a change: what it
leaves open stays as it was. -/
namespace ScriptTree

inductive Color where
  | reset
  | black
  | white
  | rgb (red green blue : Nat)
deriving DecidableEq, Repr

structure Style where
  fg : Option Color := none
  bg : Option Color := none
  bold : Bool := false
deriving DecidableEq, Repr

/-- Both changes, the second one winning where they differ. -/
def Style.patch (under upper : Style) : Style where
  fg := upper.fg.or under.fg
  bg := upper.bg.or under.bg
  bold := under.bold || upper.bold

structure Cell where
  symbol : Char := ' '
  fg : Color := .reset
  bg : Color := .reset
  bold : Bool := false
deriving DecidableEq, Repr

def Cell.blank : Cell := {}

def Cell.restyle (cell : Cell) (style : Style) : Cell where
  symbol := cell.symbol
  fg := style.fg.getD cell.fg
  bg := style.bg.getD cell.bg
  bold := cell.bold || style.bold

def Cell.write (cell : Cell) (symbol : Char) (style : Style) : Cell :=
  { cell with symbol := symbol }.restyle style

/-- Whether two cells look alike but for their symbols. -/
def Cell.sameStyle (a b : Cell) : Bool :=
  a.fg == b.fg && a.bg == b.bg && a.bold == b.bold

end ScriptTree
