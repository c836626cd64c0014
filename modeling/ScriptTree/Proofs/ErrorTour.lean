import Mathlib.Data.List.Perm.Basic
import Mathlib.Logic.Function.Iterate
import ScriptTree.Proofs.ErrorLines
import ScriptTree.Proofs.Selection

/-! The way from error to error. The key looks for the next line from the selected row on, so
it moves on only if there is a row to select: from a line that has rows it goes around once
more, and at one without rows it stays. -/
namespace ScriptTree

/-- The lines below a line, and then those from the top down to it. -/
def around (line : Nat) (marked : List Nat) : List Nat :=
  marked.filter (line < ·) ++ marked.filter (· ≤ line)

theorem filter_append_filter {marked : List Nat} (sorted : marked.Pairwise (· < ·)) (line : Nat) :
    marked.filter (· ≤ line) ++ marked.filter (line < ·) = marked := by
  induction marked with
  | nil => rfl
  | cons first rest ih =>
    obtain ⟨above, sorted⟩ := List.pairwise_cons.mp sorted
    by_cases low : first ≤ line
    · rw [List.filter_cons_of_pos (by simpa using low), List.filter_cons_of_neg (by simpa using low),
        List.cons_append, ih sorted]
    · have high : ∀ other ∈ first :: rest, line < other := by
        refine List.forall_mem_cons.mpr ⟨Nat.lt_of_not_le low, fun other member => ?_⟩
        exact (Nat.lt_of_not_le low).trans (above other member)
      have none : (first :: rest).filter (· ≤ line) = [] :=
        List.filter_eq_nil_iff.mpr fun other member => by simpa using high other member
      rw [none, List.filter_eq_self.mpr (by simpa using high), List.nil_append]

theorem around_perm {marked : List Nat} (sorted : marked.Pairwise (· < ·)) (line : Nat) :
    (around line marked).Perm marked := by
  have split : (around line marked).Perm (marked.filter (· ≤ line) ++ marked.filter (line < ·)) :=
    List.perm_append_comm
  rwa [filter_append_filter sorted] at split

theorem around_of_split {front back : List Nat} {line : Nat}
    (sorted : (front ++ line :: back).Pairwise (· < ·)) :
    around line (front ++ line :: back) = back ++ (front ++ [line]) := by
  obtain ⟨-, behind, before⟩ := List.pairwise_append.mp sorted
  have above : ∀ other ∈ back, line < other := (List.pairwise_cons.mp behind).1
  have below : ∀ other ∈ front, other ≤ line := fun other member =>
    (before other member line List.mem_cons_self).le
  have frontHigh : front.filter (line < ·) = [] :=
    List.filter_eq_nil_iff.mpr fun other member => by simpa using below other member
  have backHigh : back.filter (line < ·) = back := List.filter_eq_self.mpr (by simpa using above)
  have frontLow : front.filter (· ≤ line) = front := List.filter_eq_self.mpr (by simpa using below)
  have backLow : back.filter (· ≤ line) = [] :=
    List.filter_eq_nil_iff.mpr fun other member => by simpa using above other member
  simp [around, frontHigh, backHigh, frontLow, backLow]

theorem around_next {marked rest : List Nat} (sorted : marked.Pairwise (· < ·)) {line target : Nat}
    (next : around line marked = target :: rest) : around target marked = rest ++ [target] := by
  have whole := filter_append_filter sorted line
  unfold around at next
  generalize marked.filter (· ≤ line) = low at whole next
  generalize marked.filter (line < ·) = high at whole next
  subst whole
  cases high with
  | nil =>
    rw [List.nil_append] at next
    subst next
    rw [List.append_nil] at sorted ⊢
    exact @around_of_split [] rest target sorted
  | cons first more =>
    rw [List.cons_append] at next
    obtain ⟨rfl, rfl⟩ := List.cons.inj next
    rw [around_of_split sorted, List.append_assoc]

namespace Viewer

def Announces (viewer : Viewer) (line : Nat) : Prop :=
  viewer.status = "Error on line " ++ toString line ∨
    viewer.status = "Error on line " ++ toString line ++ " (no node)"

def HasRow (viewer : Viewer) (line : Nat) : Prop :=
  ∃ row ∈ viewer.rows, row.line = some line

def marked (viewer : Viewer) : List Nat :=
  viewer.errorLines.map Prod.fst

/-- The lines with an error in the order in which they are to be seen from the selected row. -/
def route (viewer : Viewer) : List Nat :=
  around (viewer.selectedLine.getD 0) viewer.marked

def afterNext (viewer : Viewer) (times : Nat) : Viewer :=
  (fun before : Viewer => before.press (.char 'n'))^[times] viewer

/-- As many times as there are lines with an error, the key goes to one of them, and to each of
them once. -/
def Tours (viewer : Viewer) : Prop :=
  ∃ visited : List Nat, visited.Perm viewer.marked ∧
    ∀ i line, visited[i]? = some line → (viewer.afterNext (i + 1)).Announces line

theorem Announces.unique {viewer : Viewer} {line other : Nat} (told : viewer.Announces line)
    (told' : viewer.Announces other) : line = other := by
  have read (number : Nat) : Nat.ofDigitChars 10 (toString number).toList 0 = number := by
    rw [Nat.toString_eq_repr, Nat.toList_repr, Nat.ofDigitChars_ten_toDigits]
  have digits (number : Nat) : ' ' ∉ (toString number).toList := by
    rw [Nat.toString_eq_repr, Nat.toList_repr]
    exact fun member => absurd (Nat.isDigit_of_mem_toDigits (by decide) le_rfl member) (by decide)
  have apart (number number' : Nat) :
      "Error on line " ++ toString number ≠ "Error on line " ++ toString number' ++ " (no node)" := by
    intro same
    rw [String.append_assoc, String.append_right_inj] at same
    apply digits number
    rw [same, String.toList_append]
    simp
  suffices toString line = toString other by rw [← read line, this, read]
  rcases told with told | told <;> rcases told' with told' | told' <;> rw [told] at told'
  · rwa [String.append_right_inj] at told'
  · exact absurd told' (apart _ _)
  · exact absurd told'.symm (apart _ _)
  · rwa [String.append_left_inj, String.append_right_inj] at told'

theorem press_keeps (viewer : Viewer) (key : Key) :
    (viewer.press key).rows = viewer.rows ∧ (viewer.press key).errorLines = viewer.errorLines := by
  unfold press jumpToNextError moveUp moveDown
  repeat' split
  all_goals exact ⟨rfl, rfl⟩

theorem handle_errorLines (viewer : Viewer) :
    ∀ event, (viewer.handle event).errorLines = viewer.errorLines
  | .press key => (viewer.press_keeps key).2
  | .draw _ _ => rfl

theorem foldl_errorLines (viewer : Viewer) (events : List Event) :
    (events.foldl handle viewer).errorLines = viewer.errorLines := by
  induction events generalizing viewer with
  | nil => rfl
  | cons event events ih => rw [List.foldl_cons, ih, handle_errorLines]

theorem nextErrorLine_eq (viewer : Viewer) :
    viewer.nextErrorLine (viewer.selectedLine.getD 0) = viewer.route.head? := by
  unfold nextErrorLine route around
  generalize viewer.selectedLine.getD 0 = line
  change (viewer.marked.find? (line < ·)).or viewer.marked.head? = _
  rw [List.head?_append, List.head?_filter]
  cases below : viewer.marked.find? (line < ·) with
  | some target => rfl
  | none =>
    have low : ∀ other ∈ viewer.marked, decide (other ≤ line) = true := by
      simpa using List.find?_eq_none.mp below
    rw [List.filter_eq_self.mpr low]

theorem press_next {viewer : Viewer} {target : Nat} {rest : List Nat}
    (next : viewer.route = target :: rest) :
    (viewer.press (.char 'n')).Announces target ∧
      (viewer.HasRow target → (viewer.press (.char 'n')).selectedLine = some target) ∧
      (¬ viewer.HasRow target →
        (viewer.press (.char 'n')).selectedLine = viewer.selectedLine) := by
  have found : viewer.nextErrorLine (viewer.selectedLine.getD 0) = some target := by
    rw [nextErrorLine_eq, next]
    rfl
  change viewer.jumpToNextError.Announces target ∧ _
  simp only [press, jumpToNextError, found]
  cases place : viewer.rows.findIdx? fun row => row.line = some target with
  | some index =>
    obtain ⟨bound, here, -⟩ := List.findIdx?_eq_some_iff_getElem.mp place
    have carried : viewer.rows[index].line = some target := of_decide_eq_true here
    have row : viewer.HasRow target := ⟨_, List.getElem_mem bound, carried⟩
    refine ⟨.inl rfl, fun _ => ?_, fun none => absurd row none⟩
    simp [selectedLine, bound, carried]
  | none =>
    have none : ¬ viewer.HasRow target := by
      rintro ⟨row, member, carried⟩
      simpa [carried] using List.findIdx?_eq_none_iff.mp place row member
    exact ⟨.inr rfl, fun row => absurd row none, fun _ => rfl⟩

section

variable {viewer : Viewer} (sorted : viewer.marked.Pairwise (· < ·))

theorem press_stays {target : Nat} {rest : List Nat} (next : viewer.route = target :: rest)
    (none : ¬ viewer.HasRow target) : (viewer.press (.char 'n')).route = viewer.route := by
  have stays := (press_next next).2.2 none
  rw [route, stays, marked, (viewer.press_keeps _).2]
  rfl

include sorted

theorem press_turns {target : Nat} {rest : List Nat} (next : viewer.route = target :: rest)
    (row : viewer.HasRow target) : (viewer.press (.char 'n')).route = rest ++ [target] := by
  have goes := (press_next next).2.1 row
  rw [route, goes, marked, (viewer.press_keeps _).2]
  exact around_next sorted next

end

theorem afterNext_succ (viewer : Viewer) (times : Nat) :
    viewer.afterNext (times + 1) = (viewer.afterNext times).press (.char 'n') :=
  Function.iterate_succ_apply' _ _ _

theorem afterNext_keeps (viewer : Viewer) (times : Nat) :
    (viewer.afterNext times).rows = viewer.rows ∧
      (viewer.afterNext times).errorLines = viewer.errorLines := by
  induction times with
  | zero => exact ⟨rfl, rfl⟩
  | succ times ih =>
    rw [afterNext_succ]
    exact ⟨(press_keeps _ _).1.trans ih.1, (press_keeps _ _).2.trans ih.2⟩

theorem hasRow_afterNext {viewer : Viewer} {times line : Nat} :
    (viewer.afterNext times).HasRow line ↔ viewer.HasRow line := by
  rw [HasRow, (viewer.afterNext_keeps times).1, HasRow]

section

variable {viewer : Viewer} (sorted : viewer.marked.Pairwise (· < ·))

include sorted

/-- As long as the lines have rows, the route turns by one line each time. -/
theorem afterNext_route {times : Nat} (inside : times ≤ viewer.route.length)
    (rows : ∀ line ∈ viewer.route.take times, viewer.HasRow line) :
    (viewer.afterNext times).route = viewer.route.drop times ++ viewer.route.take times := by
  induction times with
  | zero => simp [afterNext]
  | succ times ih =>
    rw [List.take_add_one, List.forall_mem_append] at rows
    have here := ih (Nat.le_of_succ_le inside) rows.1
    rw [List.drop_eq_getElem_cons inside, List.cons_append] at here
    have row : (viewer.afterNext times).HasRow viewer.route[times] :=
      hasRow_afterNext.mpr (rows.2 _ (by simp [List.getElem?_eq_getElem inside]))
    have sorted' : (viewer.afterNext times).marked.Pairwise (· < ·) := by
      rw [marked, (viewer.afterNext_keeps times).2]
      exact sorted
    rw [afterNext_succ, press_turns sorted' here row, List.take_add_one, List.append_assoc,
      List.getElem?_eq_getElem inside, Option.toList_some]

theorem afterNext_announces {times : Nat} (inside : times < viewer.route.length)
    (rows : ∀ line ∈ viewer.route.take times, viewer.HasRow line) :
    (viewer.afterNext (times + 1)).Announces viewer.route[times] := by
  have here := afterNext_route sorted inside.le rows
  rw [List.drop_eq_getElem_cons inside, List.cons_append] at here
  rw [afterNext_succ]
  exact (press_next here).1

theorem afterNext_repeats {times : Nat} (inside : times < viewer.route.length)
    (rows : ∀ line ∈ viewer.route.take times, viewer.HasRow line)
    (none : ¬ viewer.HasRow viewer.route[times]) :
    (viewer.afterNext (times + 2)).Announces viewer.route[times] := by
  have here := afterNext_route sorted inside.le rows
  rw [List.drop_eq_getElem_cons inside, List.cons_append] at here
  have stays := press_stays here (mt hasRow_afterNext.mp none)
  rw [← afterNext_succ, here] at stays
  rw [afterNext_succ]
  exact (press_next stays).1

theorem tours_iff_hasRow : viewer.Tours ↔ ∀ line ∈ viewer.route.dropLast, viewer.HasRow line := by
  have whole : viewer.route.Perm viewer.marked := around_perm sorted _
  rw [List.dropLast_eq_take]
  constructor
  · rintro ⟨visited, each, told⟩
    have once : visited.Nodup := each.nodup_iff.mpr (sorted.imp Nat.ne_of_lt)
    have long : visited.length = viewer.route.length := (each.trans whole.symm).length_eq
    -- A first line without a row would be visited twice in a row.
    suffices ∀ times, times ≤ viewer.route.length - 1 →
        ∀ line ∈ viewer.route.take times, viewer.HasRow line from this _ le_rfl
    intro times
    induction times with
    | zero => simp
    | succ times ih =>
      intro inside
      have here : times < viewer.route.length := by omega
      have rows := ih (by omega)
      rw [List.take_add_one, List.forall_mem_append]
      refine ⟨rows, ?_⟩
      rw [List.getElem?_eq_getElem here, Option.toList_some, List.forall_mem_singleton]
      by_contra none
      have first := told times visited[times] (List.getElem?_eq_getElem (by omega))
      have second := told (times + 1) visited[times + 1] (List.getElem?_eq_getElem (by omega))
      have same : visited[times] = visited[times + 1] :=
        (first.unique (afterNext_announces sorted here rows)).trans
          (second.unique (afterNext_repeats sorted here rows none)).symm
      exact absurd (once.getElem_inj_iff.mp same) (by omega)
  · intro rows
    refine ⟨viewer.route, whole, fun times line found => ?_⟩
    obtain ⟨inside, rfl⟩ := List.getElem?_eq_some_iff.mp found
    refine afterNext_announces sorted inside fun line member => rows line ?_
    exact List.take_subset_take_left _ (by omega) member

end

end Viewer

/-- Wherever keys and frames have led, the key for the next error goes once to each line that a
diagnostic is on, in as many presses as there are such lines, exactly if all of these lines but
the last on the way around from the selected row have a row in the outline. -/
theorem tours_iff (script : String) (limits : Limits) (events : List Event) :
    let viewer := events.foldl Viewer.handle (.fresh script (parse script limits))
    viewer.marked.Pairwise (· < ·) ∧
      (∀ line, line ∈ viewer.marked ↔
        ∃ diagnostic ∈ (parse script limits).diagnostics, diagnostic.line = line) ∧
      (viewer.Tours ↔ ∀ line ∈ viewer.route.dropLast, viewer.HasRow line) := by
  intro viewer
  have marked : viewer.marked = (errorLines (parse script limits).diagnostics).map Prod.fst :=
    congrArg _ (Viewer.foldl_errorLines _ events)
  have sorted : viewer.marked.Pairwise (· < ·) := marked ▸ errorLines_sorted _
  refine ⟨sorted, fun line => ?_, Viewer.tours_iff_hasRow sorted⟩
  rw [marked, mem_errorLines, List.mem_map]

/-- The first of two lines with an error has no row, so the key stays with it. -/
theorem not_tours_literals :
    let viewer := Viewer.fresh "1 1;\na b;" (parse "1 1;\na b;" ⟨256⟩)
    viewer.marked = [1, 2] ∧ ¬ viewer.Tours := by
  intro viewer
  have both : viewer.marked = [1, 2] := by decide +kernel
  have first : (viewer.afterNext 1).Announces 1 := .inr (by decide +kernel)
  have second : (viewer.afterNext 2).Announces 1 := .inr (by decide +kernel)
  refine ⟨both, ?_⟩
  rintro ⟨visited, each, told⟩
  rw [both] at each
  obtain ⟨line, other, rfl⟩ := List.length_eq_two.mp each.length_eq
  have same : line = other :=
    ((told 0 line rfl).unique first).trans ((told 1 other rfl).unique second).symm
  subst same
  exact absurd (each.nodup_iff.mpr (by decide)) (by simp)

end ScriptTree
