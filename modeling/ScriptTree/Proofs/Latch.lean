import ScriptTree.Proofs.Books

/-! The panic of a reader of expressions is a latch. The first report sets it, nothing is
reported while it is set, and an expression never resets it. What is read does not depend on
it: two readers that start in the same place, only one of them in a panic, read the same. -/
namespace ScriptTree

namespace Cursor

/-- The cursors stand in the same place of the same tokens, on the same level. They may
differ in what was reported and in whether they panic. -/
structure Abreast (cursor other : Cursor) : Prop where
  unread : other.unread = cursor.unread
  stop : other.stop = cursor.stop
  consumed : other.consumed = cursor.consumed
  depth : other.account.depth = cursor.account.depth

/-- Between the two there was this report, or none. A report sets the panic and the flag, and
in a panic there is none. -/
structure Records (report : Option Diagnostic) (before after : Cursor) : Prop where
  reported : after.reported = report.toList ++ before.reported
  panicking : after.panicking = (before.panicking || report.isSome)
  hadError : after.hadError = (before.hadError || report.isSome)
  muted : before.panicking = true → report = none

def Latched (before after : Cursor) : Prop :=
  ∃ report, Records report before after

variable {cursor other : Cursor}

theorem Abreast.advance (abreast : cursor.Abreast other) : cursor.advance.Abreast other.advance := by
  unfold Cursor.advance
  rw [abreast.unread]
  split
  · exact abreast
  · exact ⟨rfl, abreast.stop, congrArg Nat.succ abreast.consumed, abreast.depth⟩

theorem Abreast.report (abreast : cursor.Abreast other) (token token' : Token)
    (complaint : Complaint) :
    (cursor.report token complaint).Abreast (other.report token' complaint) := by
  unfold Cursor.report
  split <;> split <;>
    exact ⟨abreast.unread, abreast.stop, abreast.consumed, abreast.depth⟩

theorem likeness_abreast : Likeness id Abreast where
  kind _ := rfl
  lexeme _ := rfl
  unread abreast := by rw [abreast.unread, List.map_id]
  stop abreast := abreast.stop
  advance abreast := abreast.advance
  complain abreast complaint := abreast.report _ _ complaint
  refuse abreast _ _ := abreast.advance.report _ _ _

theorem Latched.of_silent (reported : other.reported = cursor.reported)
    (panicking : other.panicking = cursor.panicking) (hadError : other.hadError = cursor.hadError) :
    cursor.Latched other :=
  ⟨none, reported, by simp [panicking], by simp [hadError], fun _ => rfl⟩

theorem Latched.refl (cursor : Cursor) : cursor.Latched cursor :=
  .of_silent rfl rfl rfl

theorem Latched.trans {first second third : Cursor} (before : first.Latched second)
    (after : second.Latched third) : first.Latched third := by
  obtain ⟨report, earlier⟩ := before
  obtain ⟨report', later⟩ := after
  cases report with
  | none =>
    have same : second.panicking = first.panicking := by simpa using earlier.panicking
    refine ⟨report', ?_, ?_, ?_, fun panics => later.muted (same.trans panics)⟩
    · rw [later.reported, earlier.reported, Option.toList_none, List.nil_append]
    · rw [later.panicking, same]
    · rw [later.hadError, earlier.hadError, Option.isSome_none, Bool.or_false]
  | some diagnostic =>
    have panics : second.panicking = true := by simpa using earlier.panicking
    cases later.muted panics
    refine ⟨some diagnostic, ?_, ?_, ?_, earlier.muted⟩
    · rw [later.reported, earlier.reported, Option.toList_none, List.nil_append]
    · rw [later.panicking, earlier.panicking, Option.isSome_none, Bool.or_false]
    · rw [later.hadError, earlier.hadError, Option.isSome_none, Bool.or_false]

theorem latched_advance (cursor : Cursor) : cursor.Latched cursor.advance := by
  unfold advance
  split
  · exact .refl cursor
  · exact .of_silent rfl rfl rfl

theorem latched_report (cursor : Cursor) (token : Token) (complaint : Complaint) :
    cursor.Latched (cursor.report token complaint) := by
  unfold report
  split
  next => exact .refl cursor
  next calm => exact ⟨some _, rfl, by simp, by simp, fun panics => absurd panics calm⟩

end Cursor

namespace Read

/-- Wherever it starts, the reader reports at most once, and not in a panic. -/
def Latched {α : Type} (p : Read α) : Prop :=
  ∀ cursor : Cursor, cursor.Latched (p cursor).2

theorem latched_law : Law Latched fun _ => False where
  passes := fun _ _ => id
  pure := fun _ cursor => .refl cursor
  bind := fun first next cursor => (first cursor).trans (next _ _)
  take? := by
    intro _ pick _ cursor
    unfold Read.take?
    split
    next => exact .refl cursor
    next =>
      split
      · exact cursor.latched_advance
      · exact .refl cursor
  report := fun found complaint cursor => cursor.latched_report (found cursor) complaint

theorem expression_panics_of_told {room : Nat} {cursor : Cursor} {diagnostic : Diagnostic}
    (told : diagnostic :: cursor.reported <:+ (expression room cursor).2.reported) :
    (expression room cursor).2.panicking = true := by
  obtain ⟨report, records⟩ := latched_law.expression room cursor
  have longer := told.length_le
  rw [records.panicking]
  cases report with
  | none =>
    rw [records.reported, Option.toList_none, List.nil_append, List.length_cons] at longer
    omega
  | some diagnostic => exact Bool.or_true _

/-- From a calm cursor: either a whole expression stands in front of it, with room for it, and
is read quietly, or the reader panics. -/
theorem expression_panicking_iff (room : Nat) {cursor : Cursor} (calm : cursor.panicking = false) :
    (expression room cursor).2.panicking = true ↔
      ¬ ∃ front rest expr, cursor.unread = front ++ rest ∧ ExprPhrase .assignment front expr ∧
        wholeCost (some expr) ≤ room ∧ ExprForm.assignment.EndsBefore rest.head? := by
  constructor
  · rintro panics ⟨front, rest, expr, split, phrase, enough, ends⟩
    rw [phrase.accepts_expression enough ends cursor rest calm split rfl, Cursor.past_panicking,
      calm] at panics
    contradiction
  · intro missing
    cases judged_expression room cursor.unread with
    | accepts split accepted found =>
      obtain ⟨expr, rfl, phrase, enough, ends⟩ := found
      exact absurd ⟨_, _, expr, split, phrase, enough, ends⟩ missing
    | rejects split rejected _ =>
      exact expression_panics_of_told (rejected room le_rfl cursor _ calm split rfl).2
    | tooDeep split rejected _ =>
      exact expression_panics_of_told (rejected cursor _ calm split rfl).2

theorem expression_of_calm (room : Nat) {cursor : Cursor} (calm : cursor.panicking = false) :
    ∃ report, cursor.Records report (expression room cursor).2 ∧
      ((expression room cursor).1 = none → report.isSome = true) := by
  obtain ⟨report, records⟩ := latched_law.expression room cursor
  refine ⟨report, records, fun missed => ?_⟩
  have panics : (expression room cursor).2.panicking = true := by
    rw [expression_panicking_iff room calm]
    rintro ⟨front, rest, expr, split, phrase, enough, ends⟩
    rw [phrase.accepts_expression enough ends cursor rest calm split rfl] at missed
    contradiction
  rwa [records.panicking, calm, Bool.false_or] at panics

theorem expression_of_panicking (room : Nat) {cursor : Cursor} (panics : cursor.panicking = true) :
    cursor.Records none (expression room cursor).2 := by
  obtain ⟨report, records⟩ := latched_law.expression room cursor
  exact records.muted panics ▸ records

theorem expression_abreast (room : Nat) {cursor other : Cursor} (abreast : cursor.Abreast other) :
    (expression room other).1 = (expression room cursor).1 ∧
      (expression room cursor).2.Abreast (expression room other).2 := by
  have alike := Cursor.likeness_abreast.expression room cursor other abreast
  rwa [Expr.map_id, Option.map_id] at alike

end Read

namespace Charged

theorem expression_eq (limit : Nat) (cursor : Cursor) :
    let bound := limit - cursor.account.depth
    ∃ account, expression limit bound (cursor.charge .mark) =
        ((Read.expression bound cursor).1,
          (Read.expression bound cursor).2.charge fun _ => account) ∧
      account.depth = cursor.account.depth := by
  intro bound
  rcases le_total cursor.account.depth limit with allowed | above
  · have level : cursor.account.depth + bound = limit := Nat.add_sub_cancel' allowed
    have before : Tracks False limit bound bound 2 cursor (cursor.charge .mark) :=
      ⟨⟨rfl, allowed, .inr ⟨not_false, rfl⟩⟩, level⟩
    obtain ⟨same, after⟩ := expression_alike bound bound 1 cursor _ before
    rw [Expr.map_id, Option.map_id] at same
    exact ⟨(expression limit bound (cursor.charge .mark)).2.account, Prod.ext same after.same,
      Nat.add_right_cancel (after.level.trans level.symm)⟩
  · -- No account is tracked above the limit, where the reader is refused at once.
    have closed : bound = 0 := Nat.sub_eq_zero_of_le above
    rw [closed]
    have refused := cursor.charge_report (fun _ => cursor.account.mark.refuse) cursor.next
      .tooMuchNesting
    exact ⟨_, Prod.ext rfl refused, rfl⟩

/-- Two readers stand abreast, and only one of them panics. They answer the same expression
and come to stand abreast again. The one that panics reports nothing and goes on panicking. The
other reports at most once, and it panics behind the expression exactly if it did report; it did
if it has no answer. But for their accounts both are left where the readers are left that are
told the levels they may still enter. -/
theorem panic_only_mutes {limit : Nat} {calm panicked : Cursor} (abreast : calm.Abreast panicked)
    (off : calm.panicking = false) (on : panicked.panicking = true) :
    let bound := limit - calm.account.depth
    let heard := expression limit bound (calm.charge .mark)
    let muted := expression limit bound (panicked.charge .mark)
    muted.1 = heard.1 ∧ heard.2.Abreast muted.2 ∧
      (muted.2.reported = panicked.reported ∧ muted.2.hadError = panicked.hadError ∧
        muted.2.panicking = true) ∧
      (∃ report : Option Diagnostic, heard.2.reported = report.toList ++ calm.reported ∧
        heard.2.hadError = (calm.hadError || report.isSome) ∧
        heard.2.panicking = report.isSome) ∧
      (heard.1 = none → heard.2.panicking = true) ∧
      heard = ((Read.expression bound calm).1,
        (Read.expression bound calm).2.charge fun _ => heard.2.account) ∧
      muted = ((Read.expression bound panicked).1,
        (Read.expression bound panicked).2.charge fun _ => muted.2.account) := by
  intro bound heard muted
  obtain ⟨account, read, level⟩ := expression_eq limit calm
  obtain ⟨account', read', level'⟩ := expression_eq limit panicked
  obtain ⟨same, along⟩ := Read.expression_abreast bound abreast
  obtain ⟨report, records, missed⟩ := Read.expression_of_calm bound off
  have quiet := Read.expression_of_panicking bound on
  have panics : (Read.expression bound calm).2.panicking = report.isSome := by
    rw [records.panicking, off, Bool.false_or]
  rw [abreast.depth] at read'
  have first : heard = ((Read.expression bound calm).1,
      (Read.expression bound calm).2.charge fun _ => account) := read
  have second : muted = ((Read.expression bound panicked).1,
      (Read.expression bound panicked).2.charge fun _ => account') := read'
  rw [first, second]
  refine ⟨same, ⟨along.unread, along.stop, along.consumed, ?_⟩, ⟨quiet.reported, ?_, ?_⟩,
    ⟨report, records.reported, records.hadError, panics⟩, fun silent => panics.trans (missed silent),
    rfl, rfl⟩
  · exact level'.trans (abreast.depth.trans level.symm)
  · exact quiet.hadError.trans (Bool.or_false _)
  · exact quiet.panicking.trans (by rw [on, Bool.true_or])

/-- A wrong target, a parenthesis that is not closed and a missing operand: one report, and none
in a panic. -/
theorem panic_only_mutes_three_mistakes :
    let tokens := tokenize "(1 = +"
    let calm : Cursor :=
      { unread := tokens.body, stop := tokens.stop, account := { depth := 1 } }
    let panicked : Cursor := { calm with panicking := true, hadError := true }
    let heard := expression 5 4 (calm.charge .mark)
    let muted := expression 5 4 (panicked.charge .mark)
    calm.Abreast panicked ∧ calm.panicking = false ∧ panicked.panicking = true ∧
      (heard.1.isNone = true ∧ heard.2.consumed = 4 ∧ heard.2.reported.length = 1) ∧
      muted.1 = heard.1 ∧ heard.2.Abreast muted.2 ∧
      (muted.2.reported = panicked.reported ∧ muted.2.hadError = panicked.hadError ∧
        muted.2.panicking = true) ∧
      (∃ report : Option Diagnostic, heard.2.reported = report.toList ++ calm.reported ∧
        heard.2.hadError = (calm.hadError || report.isSome) ∧
        heard.2.panicking = report.isSome) ∧
      (heard.1 = none → heard.2.panicking = true) ∧
      heard = ((Read.expression 4 calm).1,
        (Read.expression 4 calm).2.charge fun _ => heard.2.account) ∧
      muted = ((Read.expression 4 panicked).1,
        (Read.expression 4 panicked).2.charge fun _ => muted.2.account) := by
  intro tokens calm panicked heard muted
  have abreast : calm.Abreast panicked := ⟨rfl, rfl, rfl, rfl⟩
  exact ⟨abreast, rfl, rfl, by decide +kernel, panic_only_mutes abreast rfl rfl⟩

end Charged

end ScriptTree
