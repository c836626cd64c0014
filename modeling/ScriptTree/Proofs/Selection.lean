import ScriptTree.Proofs.RowLines
import ScriptTree.Viewer.Frame

/-! The selection of a viewer. Keys move offsets without looking at the screen and sizes
change between frames, but no key leads the selection out of the rows, and every frame
scrolls its panes to where the selection is seen before it is drawn. -/
namespace ScriptTree

theorem Area.visibleRows_pos (area : Area) : 0 < area.visibleRows := by
  unfold visibleRows
  omega

theorem keepVisible_spec (offset selected : Nat) {height : Nat} (some : 0 < height) :
    keepVisible offset selected height ≤ selected ∧
      selected < keepVisible offset selected height + height := by
  unfold keepVisible
  split
  · omega
  · split <;> omega

theorem keepVisible_eq_self {offset selected height : Nat} (above : offset ≤ selected)
    (below : selected < offset + height) : keepVisible offset selected height = offset := by
  rw [keepVisible, if_neg (by omega), if_neg (by omega)]

theorem clampOffset_le (offset total height : Nat) :
    clampOffset offset total height ≤ total - height := Nat.min_le_right _ _

theorem clampOffset_eq_self {offset total height : Nat} (low : offset ≤ total - height) :
    clampOffset offset total height = offset := Nat.min_eq_left low

theorem clampOffset_spec {offset selected total height : Nat} (above : offset ≤ selected)
    (below : selected < offset + height) (inside : selected < total) :
    clampOffset offset total height ≤ selected ∧
      selected < clampOffset offset total height + height := by
  unfold clampOffset
  omega

namespace SourcePane

variable (pane : SourcePane) (area : Area) (offset : Nat)

theorem scroll_le : pane.scroll area offset ≤ pane.lines.length - area.visibleRows :=
  clampOffset_le _ _ _

theorem scroll_shows {line : Nat} (current : pane.current = some line) (some : 1 ≤ line)
    (listed : line ≤ pane.lines.length) :
    pane.scroll area offset < line ∧ line ≤ pane.scroll area offset + area.visibleRows := by
  obtain ⟨above, below⟩ := keepVisible_spec offset (line - 1) area.visibleRows_pos
  have inside : line - 1 < pane.lines.length := by omega
  have shown := clampOffset_spec above below inside
  simp only [scroll, current, if_pos (show 0 < line ∧ line ≤ pane.lines.length from ⟨some, listed⟩)]
  omega

theorem scroll_scroll : pane.scroll area (pane.scroll area offset) = pane.scroll area offset := by
  have low := pane.scroll_le area offset
  cases current : pane.current with
  | none =>
    generalize pane.scroll area offset = scrolled at low ⊢
    simp only [scroll, current]
    exact clampOffset_eq_self low
  | some line =>
    by_cases listed : 0 < line ∧ line ≤ pane.lines.length
    · have shown := pane.scroll_shows area offset current listed.1 listed.2
      generalize pane.scroll area offset = scrolled at low shown ⊢
      simp only [scroll, current, if_pos listed]
      rw [keepVisible_eq_self (by omega) (by omega), clampOffset_eq_self low]
    · generalize pane.scroll area offset = scrolled at low ⊢
      simp only [scroll, current, if_neg listed]
      exact clampOffset_eq_self low

end SourcePane

namespace TreePane

variable (pane : TreePane) (area : Area) (offset : Nat)

theorem scroll_shows (some : pane.rows ≠ []) :
    pane.scroll area offset ≤ pane.selected ∧
      pane.selected < pane.scroll area offset + area.visibleRows := by
  rw [scroll, if_neg (by simpa using some)]
  exact keepVisible_spec offset pane.selected area.visibleRows_pos

theorem scroll_scroll : pane.scroll area (pane.scroll area offset) = pane.scroll area offset := by
  by_cases none : pane.rows = []
  · simp [scroll, none]
  · obtain ⟨above, below⟩ := pane.scroll_shows area offset none
    generalize pane.scroll area offset = scrolled at above below ⊢
    rw [scroll, if_neg (by simpa using none)]
    exact keepVisible_eq_self above below

end TreePane

namespace DiagnosticsPane

variable (pane : DiagnosticsPane) (area : Area) (offset : Nat)

theorem scroll_le (some : pane.diagnostics ≠ []) :
    pane.scroll area offset ≤ pane.diagnostics.length - area.visibleRows := by
  rw [scroll, if_neg (by simpa using some)]
  exact clampOffset_le _ _ _

theorem scroll_scroll : pane.scroll area (pane.scroll area offset) = pane.scroll area offset := by
  by_cases none : pane.diagnostics = []
  · simp [scroll, none]
  · have low := pane.scroll_le area offset none
    generalize pane.scroll area offset = scrolled at low ⊢
    rw [scroll, if_neg (by simpa using none)]
    exact clampOffset_eq_self low

end DiagnosticsPane

inductive Event where
  | press (key : Key)
  | draw (width height : Nat)

namespace Viewer

def handle (viewer : Viewer) : Event → Viewer
  | .press key => viewer.press key
  | .draw width height => (viewer.draw width height).1

/-- A viewer over the program of a script, on one of the rows if there are any. -/
structure Over (script : String) (limits : Limits) (viewer : Viewer) : Prop where
  source : viewer.source = script
  program : viewer.program = parse script limits
  rows : viewer.rows = (parse script limits).outline
  selected : viewer.selected < viewer.rows.length ∨ viewer.rows = [] ∧ viewer.selected = 0

/-- On a screen so divided the selected row is in its window and its line too if it is
followed, and no window is so far down that rows of it stay unused. -/
structure InView (layout : ViewerLayout) (viewer : Viewer) : Prop where
  row : viewer.rows ≠ [] → viewer.treeOffset ≤ viewer.selected ∧
    viewer.selected < viewer.treeOffset + layout.tree.visibleRows
  line : ∀ line, viewer.following = true → viewer.selectedLine = some line →
    viewer.sourceOffset < line ∧ line ≤ viewer.sourceOffset + layout.source.visibleRows
  source : viewer.sourceOffset ≤ (lines viewer.source).length - layout.source.visibleRows
  diagnostics : viewer.program.diagnostics ≠ [] → viewer.diagnosticsOffset ≤
    viewer.program.diagnostics.length - layout.diagnostics.visibleRows

variable {script : String} {limits : Limits} {viewer : Viewer}

theorem over_fresh (script : String) (limits : Limits) :
    Over script limits (.fresh script (parse script limits)) where
  source := rfl
  program := rfl
  rows := rfl
  selected := by
    cases rows : (fresh script (parse script limits)).rows with
    | nil => exact .inr ⟨rfl, rfl⟩
    | cons row rest => exact .inl (Nat.succ_pos rest.length)

namespace Over

variable (here : Over script limits viewer)

include here

theorem select {after : Viewer} (source : after.source = viewer.source)
    (program : after.program = viewer.program) (rows : after.rows = viewer.rows)
    (selected : after.selected < viewer.rows.length ∨ after.selected ≤ viewer.selected) :
    Over script limits after where
  source := source.trans here.source
  program := program.trans here.program
  rows := rows.trans here.rows
  selected := by
    rw [rows]
    rcases here.selected with before | ⟨none, before⟩
    · exact .inl (selected.elim id fun above => above.trans_lt before)
    · refine .inr ⟨none, ?_⟩
      simp only [none, List.length_nil] at selected
      omega

theorem jumpToNextError : Over script limits viewer.jumpToNextError := by
  unfold Viewer.jumpToNextError
  split
  · exact here.select rfl rfl rfl (.inr le_rfl)
  · split
    next index found =>
      obtain ⟨inside, -⟩ := List.findIdx?_eq_some_iff_getElem.1 found
      exact here.select rfl rfl rfl (.inl inside)
    · exact here.select rfl rfl rfl (.inr le_rfl)

theorem moveUp : Over script limits viewer.moveUp := by
  unfold Viewer.moveUp
  split
  · exact here.select rfl rfl rfl (.inr le_rfl)
  · exact here.select rfl rfl rfl (.inr (Nat.sub_le _ _))
  · exact here.select rfl rfl rfl (.inr le_rfl)

theorem moveDown : Over script limits viewer.moveDown := by
  unfold Viewer.moveDown
  split
  · exact here.select rfl rfl rfl (.inr le_rfl)
  · split
    next inside => exact here.select rfl rfl rfl (.inl inside)
    · exact here.select rfl rfl rfl (.inr le_rfl)
  · exact here.select rfl rfl rfl (.inr le_rfl)

theorem press (key : Key) : Over script limits (viewer.press key) := by
  unfold Viewer.press
  split
  · exact here.select rfl rfl rfl (.inr le_rfl)
  · exact here.select rfl rfl rfl (.inr le_rfl)
  · exact here.select rfl rfl rfl (.inr le_rfl)
  · exact here.select rfl rfl rfl (.inr le_rfl)
  · exact here.select rfl rfl rfl (.inr le_rfl)
  · exact here.jumpToNextError
  · exact here.select rfl rfl rfl (.inr (Nat.zero_le _))
  · have last : viewer.rows.length - 1 < viewer.rows.length ∨
        viewer.rows.length - 1 ≤ viewer.selected := by omega
    exact here.select rfl rfl rfl last
  · exact here.moveUp
  · exact here.moveDown
  · exact here

theorem scroll (layout : ViewerLayout) : Over script limits (viewer.scroll layout) :=
  here.select rfl rfl rfl (.inr le_rfl)

theorem handle : ∀ event, Over script limits (viewer.handle event)
  | .press key => here.press key
  | .draw _ _ => here.scroll _

theorem foldl (events : List Event) : Over script limits (events.foldl Viewer.handle viewer) := by
  induction events generalizing viewer with
  | nil => exact here
  | cons event events ih => exact ih (here.handle event)

theorem line {line : Nat} (carried : viewer.selectedLine = some line) :
    1 ≤ line ∧ line ≤ (lines viewer.source).length := by
  obtain ⟨row, chosen, carried⟩ := Option.bind_eq_some_iff.1 carried
  rw [here.rows] at chosen
  rw [here.source]
  exact parse_row_line (List.mem_of_getElem? chosen) carried

theorem inView (layout : ViewerLayout) : InView layout (viewer.scroll layout) where
  row some := viewer.treePane.scroll_shows layout.tree viewer.treeOffset some
  line line following carried := by
    obtain ⟨positive, listed⟩ := here.line carried
    have current : viewer.sourcePane.current = some line := (if_pos following).trans carried
    exact viewer.sourcePane.scroll_shows layout.source viewer.sourceOffset current positive listed
  source := viewer.sourcePane.scroll_le layout.source viewer.sourceOffset
  diagnostics some :=
    viewer.diagnosticsPane.scroll_le layout.diagnostics viewer.diagnosticsOffset some

end Over

theorem scroll_scroll (viewer : Viewer) (layout : ViewerLayout) :
    (viewer.scroll layout).scroll layout = viewer.scroll layout := by
  calc (viewer.scroll layout).scroll layout
    _ = { viewer with
          sourceOffset := viewer.sourcePane.scroll layout.source
            (viewer.sourcePane.scroll layout.source viewer.sourceOffset)
          treeOffset := viewer.treePane.scroll layout.tree
            (viewer.treePane.scroll layout.tree viewer.treeOffset)
          diagnosticsOffset := viewer.diagnosticsPane.scroll layout.diagnostics
            (viewer.diagnosticsPane.scroll layout.diagnostics viewer.diagnosticsOffset) } := rfl
    _ = viewer.scroll layout := by
      rw [SourcePane.scroll_scroll, TreePane.scroll_scroll, DiagnosticsPane.scroll_scroll, scroll]

theorem draw_draw (viewer : Viewer) (width height : Nat) :
    (viewer.draw width height).1.draw width height = viewer.draw width height := by
  simp only [draw, scroll_scroll]

end Viewer

/-- Whatever keys are pressed and frames drawn, the selection of a viewer is one of its rows
and the line it carries is one of the script; a frame shows both and is final. -/
theorem selection_in_view (script : String) (limits : Limits) (events : List Event)
    (width height : Nat) :
    let viewer := events.foldl Viewer.handle (.fresh script (parse script limits))
    let layout := ViewerLayout.ofArea (Screen.blank width height).area
    let frame := viewer.draw width height
    (viewer.selected < viewer.rows.length ∨ viewer.rows.length = 0 ∧ viewer.selected = 0) ∧
      (∀ line, viewer.selectedLine = some line → 1 ≤ line ∧ line ≤ (lines script).length) ∧
      frame.1.InView layout ∧ frame.1.draw width height = frame ∧
      layout.tree.height = height - 1 ∧
      layout.source.height = ((height - 1) * 70 + 50) / 100 ∧
      layout.diagnostics.height = height - 1 - layout.source.height := by
  intro viewer layout frame
  have here : viewer.Over script limits := (Viewer.over_fresh script limits).foldl events
  refine ⟨?_, fun line carried => ?_, here.inView layout, viewer.draw_draw width height,
    rfl, rfl, rfl⟩
  · exact here.selected.imp_right (And.imp_left List.length_eq_zero_iff.2)
  · rw [← here.source]
    exact here.line carried

end ScriptTree
