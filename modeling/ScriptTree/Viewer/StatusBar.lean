import ScriptTree.Screen.Widget
import ScriptTree.Viewer.Palette

/-! The bar below the panes: a summary on the left, the keys on the right. -/
namespace ScriptTree

structure StatusBar where
  message : String
  statements : Nat
  errors : Nat

namespace StatusBar

def badge (errors : Nat) : Span :=
  let style (bg : Color) : Style := { fg := some .black, bg := some bg, bold := true }
  match errors with
  | 0 => ⟨" OK ", style Palette.ok⟩
  | 1 => ⟨" 1 error ", style Palette.error⟩
  | n => ⟨" " ++ toString n ++ " errors ", style Palette.error⟩

def onBar (fg : Color) : Style :=
  { fg := some fg, bg := some Palette.bar }

def summary (bar : StatusBar) : StyledLine where
  spans :=
    [badge bar.errors,
     ⟨" " ++ toString bar.statements ++ " top-level statements ", onBar Palette.muted⟩,
     ⟨" " ++ bar.message ++ " ", onBar Palette.text⟩]

def keyHints : List (String × String) :=
  [("↑/↓", "move"), ("⇥", "focus"), ("n", "next error"), ("q", "quit")]

def hints : StyledLine where
  spans := keyHints.flatMap fun (key, action) =>
    [⟨" " ++ key ++ " ", { fg := some .black, bg := some Palette.muted }⟩,
     ⟨" " ++ action ++ " ", onBar Palette.text⟩]

def draw (bar : StatusBar) (screen : Screen) (area : Area) : Screen :=
  let (left, right) := area.splitColumns 50
  let base : Style := { bg := some Palette.bar }
  (screen.paragraph left base .left [bar.summary]).paragraph right base .right [hints]

end StatusBar

end ScriptTree
