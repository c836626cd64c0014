import ScriptTree.Proofs.Report
import ScriptTree.Proofs.Selection

/-! Which diagnostics can be scrolled into view. The pane counts one row for each of them,
and the listing as many as the text of each has lines. So the offset cannot always go as far
down as it would have to for a diagnostic that quotes a string of several lines. -/
namespace ScriptTree

theorem lt_length_fittingItems {rows index : Nat} {items : List (List String)} :
    index < (fittingItems rows items).length ↔
      index < items.length ∧ ((items.take (index + 1)).map List.length).sum ≤ rows := by
  induction items generalizing rows index with
  | nil => simp [fittingItems]
  | cons item rest ih =>
    rw [fittingItems]
    split
    next fits =>
      cases index with
      | zero => simpa using fits
      | succ index =>
        rw [List.length_cons, Nat.succ_lt_succ_iff, ih, List.length_cons, Nat.succ_lt_succ_iff,
          List.take_succ_cons, List.map_cons, List.sum_cons]
        refine and_congr_right fun _ => ?_
        omega
    next misfits =>
      rw [List.take_succ_cons, List.map_cons, List.sum_cons]
      simp only [List.length_nil, Nat.not_lt_zero, false_iff, not_and]
      omega

theorem fittingItems_fittingItems (rows : Nat) (items : List (List String)) :
    fittingItems rows (fittingItems rows items) = fittingItems rows items := by
  fun_induction fittingItems rows items with
  | case1 => rfl
  | case2 rows item rest fits ih => rw [fittingItems, if_pos fits, ih]
  | case3 => rfl

/-- The rows that a diagnostic takes in a listing. -/
def Diagnostic.rows (diagnostic : Diagnostic) : Nat :=
  (lines diagnostic.text).length

theorem Token.Stands.exists_fault {token : Token} {raw after : List Char}
    (stands : token.Stands raw after) (kind : token.kind = .error) :
    ∃ fault : Fault, token.lexeme = fault.message := by
  cases stands with
  | lexeme regular => exact absurd kind regular
  | unexpected => exact ⟨.unexpectedCharacter, rfl⟩
  | unterminated => exact ⟨.unterminatedString, rfl⟩
  | stop => cases kind

namespace Diagnostic

variable {source : String} {limits : Limits} {diagnostic : Diagnostic}

theorem getLast?_message (member : diagnostic ∈ (parse source limits).diagnostics) :
    diagnostic.message.toList.getLast? = some '.' := by
  obtain ⟨place, token, complaint, found, rfl⟩ := parse_diagnostic_blamed member
  have complained : complaint.message.toList.getLast? = some '.' := by
    cases complaint <;> decide +kernel
  unfold ofToken
  split
  next => exact complained
  next fault =>
    obtain ⟨_, _, _, -, stands, -⟩ := exists_stands (List.mem_of_getElem? found)
    obtain ⟨told, same⟩ := stands.exists_fault fault
    cases told <;> simp [same, Fault.message]
  next => exact complained

theorem rows_eq (member : diagnostic ∈ (parse source limits).diagnostics) :
    diagnostic.rows = 1 + breaks diagnostic.text := by
  have last : openLines diagnostic.text.toList = 1 := by
    simp only [openLines, text, String.toList_append, List.getLast?_append,
      getLast?_message member, Option.some_or, Char.reduceEq, if_false]
  rw [rows, length_lines, last, Nat.add_comm, breaks]

end Diagnostic

namespace DiagnosticsPane

def drawn (pane : DiagnosticsPane) (area : Area) (offset : Nat) : List (List String) :=
  let inside := area.inside.indent 1
  if inside.isEmpty then [] else fittingItems inside.height (pane.shown area offset)

theorem draw_eq {pane : DiagnosticsPane} (some : pane.diagnostics ≠ []) (screen : Screen)
    (area : Area) (offset : Nat) :
    pane.draw screen area offset =
      (screen.frame area (" Diagnostics (" ++ toString pane.diagnostics.length ++ ") ")
        (Palette.border pane.focused)).listing (area.inside.indent 1) { fg := Palette.error }
        (pane.drawn area offset) := by
  rw [draw, if_neg (by simpa using some)]
  simp only [Screen.listing]
  split
  · rfl
  next solid => simp only [drawn, if_neg solid, fittingItems_fittingItems]

/-- A pane that is scrolled to the offset, as far as it can be, draws the item of the diagnostic
at the index. -/
def Draws (pane : DiagnosticsPane) (area : Area) (offset index : Nat) : Prop :=
  let first := pane.scroll area offset
  first ≤ index ∧ index < first + (pane.drawn area first).length

section

variable {pane : DiagnosticsPane} {area : Area}

theorem height_eq_visibleRows (room : (area.inside.indent 1).isEmpty = false) :
    (area.inside.indent 1).height = area.visibleRows ∧ 1 ≤ area.visibleRows := by
  simp only [Area.isEmpty, Area.indent, Area.inside, Bool.or_eq_false_iff, beq_eq_false_iff_ne] at room
  simp only [Area.indent, Area.inside, Area.visibleRows]
  omega

theorem draws_iff (room : (area.inside.indent 1).isEmpty = false) {offset index : Nat}
    (listed : index < pane.diagnostics.length) :
    pane.Draws area offset index ↔
      let first := min offset (pane.diagnostics.length - area.visibleRows)
      first ≤ index ∧ index < first + area.visibleRows ∧
        (((pane.diagnostics.map Diagnostic.rows).take (index + 1)).drop first).sum ≤
          area.visibleRows := by
  obtain ⟨height, -⟩ := height_eq_visibleRows room
  have some : pane.diagnostics.isEmpty = false := by
    rw [List.isEmpty_eq_false_iff]
    exact List.ne_nil_of_length_pos (Nat.zero_lt_of_lt listed)
  have scrolled : pane.scroll area offset =
      min offset (pane.diagnostics.length - area.visibleRows) := by
    rw [scroll, some]
    rfl
  simp only [Draws, scrolled, drawn, room, height]
  generalize min offset (pane.diagnostics.length - area.visibleRows) = first
  refine and_congr_right fun above => ?_
  obtain ⟨further, rfl⟩ := Nat.exists_eq_add_of_le above
  have behind : first + further + 1 - first = further + 1 := by omega
  have taken (some : further < area.visibleRows) :
      ((pane.shown area first).take (further + 1)).map List.length =
        ((pane.diagnostics.map Diagnostic.rows).take (first + further + 1)).drop first := by
    rw [List.drop_take, behind, shown, ← List.map_take, List.take_take, min_eq_left some,
      List.map_map, ← List.map_drop, ← List.map_take]
    exact List.map_congr_left fun diagnostic _ => by rw [Diagnostic.rows, Function.comp_apply]
  have inside : further < (pane.shown area first).length ↔ further < area.visibleRows := by
    simp only [shown, List.length_map, List.length_take, List.length_drop, lt_min_iff]
    omega
  rw [if_neg Bool.false_ne_true, Nat.add_lt_add_iff_left, Nat.add_lt_add_iff_left,
    lt_length_fittingItems, inside]
  exact and_congr_right fun some => by rw [taken some]

theorem exists_draws_iff (room : (area.inside.indent 1).isEmpty = false) {index : Nat}
    (listed : index < pane.diagnostics.length) :
    (∃ offset, pane.Draws area offset index) ↔
      (((pane.diagnostics.map Diagnostic.rows).take (index + 1)).drop
        (min index (pane.diagnostics.length - area.visibleRows))).sum ≤ area.visibleRows := by
  have tall := (height_eq_visibleRows room).2
  simp only [draws_iff room listed]
  constructor
  · rintro ⟨offset, above, -, fits⟩
    refine le_trans ?_ fits
    exact List.Sublist.sum_le_sum (List.drop_sublist_drop_left _ (by omega)) (by simp)
  · intro fits
    refine ⟨index, by omega, by omega, fits⟩

end

end DiagnosticsPane

open DiagnosticsPane

/-- A diagnostic can be scrolled into view exactly if it fits into the pane together with those
that stand above it where the pane is scrolled down to it as far as may be. Every diagnostic
takes one row and one more for each line break that it quotes, so all of them can be scrolled
into view if none complains at a string that goes on from one line to another. -/
theorem scrolls_into_view_iff (source : String) (limits : Limits) (focused : Bool) {area : Area}
    (room : (area.inside.indent 1).isEmpty = false) :
    let diagnostics := (parse source limits).diagnostics
    let pane : DiagnosticsPane := ⟨diagnostics, focused⟩
    let height := (area.inside.indent 1).height
    (∀ index < diagnostics.length, (∃ offset, pane.Draws area offset index) ↔
      (((diagnostics.map Diagnostic.rows).take (index + 1)).drop
        (min index (diagnostics.length - height))).sum ≤ height) ∧
    (∀ diagnostic ∈ diagnostics, diagnostic.rows = 1 + breaks diagnostic.text) ∧
    ((∀ diagnostic ∈ diagnostics, ¬ diagnostic.QuotesBreak (tokenize source)) →
      ∀ index < diagnostics.length, ∃ offset, pane.Draws area offset index) := by
  intro diagnostics pane height
  have tall : height = area.visibleRows := (height_eq_visibleRows room).1
  have some : 1 ≤ area.visibleRows := (height_eq_visibleRows room).2
  have views (index : Nat) (listed : index < diagnostics.length) :
      (∃ offset, pane.Draws area offset index) ↔
        (((diagnostics.map Diagnostic.rows).take (index + 1)).drop
          (min index (diagnostics.length - height))).sum ≤ height := by
    rw [tall]
    exact exists_draws_iff room listed
  refine ⟨views, fun diagnostic => Diagnostic.rows_eq, fun plain index listed => ?_⟩
  rw [views index listed]
  have ones : ∀ rows ∈ ((diagnostics.map Diagnostic.rows).take (index + 1)).drop
      (min index (diagnostics.length - height)), rows = 1 := by
    intro rows member
    obtain ⟨diagnostic, found, rfl⟩ :=
      List.mem_map.mp (List.mem_of_mem_take (List.mem_of_mem_drop member))
    rw [Diagnostic.rows_eq found, (Diagnostic.breaks_eq_zero_iff found).mpr (plain _ found)]
  rw [List.eq_replicate_of_mem ones, List.sum_replicate_nat, List.length_drop, List.length_take,
    List.length_map]
  omega

/-- In two rows the second of three diagnostics has place at the top, but not the third under
it, and the pane cannot be scrolled so far that the third is on its own. -/
theorem scrolls_into_view_between :
    let pane : DiagnosticsPane := ⟨(parse "1 1;\n1 \"a\nb\";\n1 1;" ⟨256⟩).diagnostics, true⟩
    let area : Area := ⟨0, 0, 40, 4⟩
    (area.inside.indent 1).isEmpty = false ∧ pane.diagnostics.length = 3 ∧
      (∃ offset, pane.Draws area offset 1) ∧ ¬ ∃ offset, pane.Draws area offset 2 := by
  intro pane area
  have room : (area.inside.indent 1).isEmpty = false := rfl
  have views := (scrolls_into_view_iff "1 1;\n1 \"a\nb\";\n1 1;" ⟨256⟩ true room).1
  have three : pane.diagnostics.length = 3 := by decide +kernel
  refine ⟨room, three, (views 1 ?_).mpr ?_, mt (views 2 ?_).mp ?_⟩ <;> decide +kernel

/-- Both diagnostics are counted as a row, so the pane of two rows is never scrolled, although
the second would have place on its own. -/
theorem second_never_drawn :
    let pane : DiagnosticsPane := ⟨(parse "1 1;1 \"a\nb\";" ⟨256⟩).diagnostics, false⟩
    let area : Area := ⟨0, 0, 60, 4⟩
    (area.inside.indent 1).isEmpty = false ∧ pane.diagnostics.length = 2 ∧
      (pane.drawn area 1).length = 1 ∧ ∀ offset, ¬ pane.Draws area offset 1 := by
  intro pane area
  have room : (area.inside.indent 1).isEmpty = false := rfl
  have listed : 1 < pane.diagnostics.length := by decide +kernel
  refine ⟨room, by decide +kernel, by decide +kernel, not_exists.mp ?_⟩
  exact mt (exists_draws_iff room listed).mp (by decide +kernel)

end ScriptTree
