import ScriptTree.Screen.Style

/-! The colours of the viewer. -/
namespace ScriptTree.Palette

def text : Color := .rgb 205 214 244
def bracket : Color := .rgb 137 180 250
def marker : Color := .rgb 250 179 135
def muted : Color := .rgb 108 112 134
def ok : Color := .rgb 166 227 161
def error : Color := .rgb 243 139 168
def keyword : Color := .rgb 203 166 247
def literal : Color := .rgb 250 179 135
def borderFocused : Color := .rgb 249 226 175
def borderNormal : Color := .rgb 108 112 134
def bar : Color := .rgb 50 50 70
def selection : Color := .rgb 69 71 90
def node : Color := .rgb 148 226 213

/-- The pane that keys act on stands out by its border. -/
def border (focused : Bool) : Style :=
  if focused then { fg := some borderFocused, bold := true } else { fg := some borderNormal }

end ScriptTree.Palette
