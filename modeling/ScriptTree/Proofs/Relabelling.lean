import ScriptTree.Proofs.Likeness

/-! A text whose tokens were changed one by one and kept their kinds and lexemes. It is
read in step with the text it came from: the changed tokens stand in the tree, and the
diagnostics are those that are found at them. -/
namespace ScriptTree

/-- A change of tokens that no reader can tell, and what it makes of the diagnostics. -/
structure Relabelling (change : Token → Token) (retell : Diagnostic → Diagnostic) : Prop where
  kind : ∀ token, (change token).kind = token.kind
  lexeme : ∀ token, (change token).lexeme = token.lexeme
  told : ∀ token message,
    Diagnostic.ofToken (change token) message = retell (Diagnostic.ofToken token message)

namespace Cursor

/-- The cursor that stands at the same place among the changed tokens, with other tokens
passed before them. -/
def relabel (change : Token → Token) (retell : Diagnostic → Diagnostic) (passed : Nat)
    (cursor : Cursor) : Cursor where
  unread := cursor.unread.map change
  stop := change cursor.stop
  consumed := cursor.consumed + passed
  panicking := cursor.panicking
  hadError := cursor.hadError
  reported := cursor.reported.map retell

variable {change : Token → Token} {retell : Diagnostic → Diagnostic} {passed : Nat}

theorem relabel_next (cursor : Cursor) :
    (cursor.relabel change retell passed).next = change cursor.next := by
  simp only [next, relabel]
  cases cursor.unread <;> rfl

theorem relabel_advance (cursor : Cursor) :
    (cursor.relabel change retell passed).advance = cursor.advance.relabel change retell passed := by
  obtain ⟨_ | ⟨token, rest⟩, stop, consumed, _⟩ := cursor
  · rfl
  · simp only [advance, relabel, List.map_cons, Nat.add_right_comm]

theorem relabel_report (labels : Relabelling change retell) (cursor : Cursor) (token : Token)
    (complaint : Complaint) :
    (cursor.relabel change retell passed).report (change token) complaint =
      (cursor.report token complaint).relabel change retell passed := by
  obtain ⟨unread, stop, consumed, panicking, _⟩ := cursor
  cases panicking with
  | true => rfl
  | false => simp only [report, relabel, labels.told]; rfl

theorem skipStatement_map (kind : ∀ token, (change token).kind = token.kind) (skipped : Nat)
    (tokens : List Token) :
    skipStatement skipped (tokens.map change) =
      ((skipStatement skipped tokens).1.map change, (skipStatement skipped tokens).2) := by
  fun_induction skipStatement skipped tokens with
  | case1 => rfl
  | case2 skipped token rest ends =>
    rw [List.map_cons, skipStatement, kind, if_pos ends]
  | case3 skipped token rest goes opens =>
    rw [List.map_cons, skipStatement, kind, if_neg goes, if_pos opens]
  | case4 skipped token rest goes plain ih =>
    rw [List.map_cons, skipStatement, kind, if_neg goes, if_neg plain, ih]

theorem relabel_synchronize (labels : Relabelling change retell) (cursor : Cursor) :
    (cursor.relabel change retell passed).synchronize =
      cursor.synchronize.relabel change retell passed := by
  simp only [synchronize, relabel, skipStatement_map labels.kind, Nat.add_right_comm]

theorem relabel_recover (labels : Relabelling change retell) (cursor : Cursor) :
    (cursor.relabel change retell passed).recover =
      cursor.recover.relabel change retell passed := by
  have panics : (cursor.relabel change retell passed).panicking = cursor.panicking := rfl
  unfold recover
  rw [panics, relabel_synchronize labels]
  split <;> rfl

end Cursor

namespace Relabelling

variable {change : Token → Token} {retell : Diagnostic → Diagnostic}

theorem likeness (labels : Relabelling change retell) (passed : Nat) :
    Likeness change (fun cursor other => other = cursor.relabel change retell passed) where
  kind := labels.kind
  lexeme := labels.lexeme
  unread same := by rw [same]; rfl
  stop same := by rw [same]; rfl
  advance same := by rw [same, Cursor.relabel_advance]
  complain same complaint := by rw [same, Cursor.relabel_next, Cursor.relabel_report labels]
  refuse same _ _ := by rw [same, Cursor.relabel_advance, Cursor.relabel_report labels]

theorem lasting (labels : Relabelling change retell) (passed : Nat) :
    Likeness.Lasting (fun cursor other => other = cursor.relabel change retell passed) where
  recover same := by rw [same, Cursor.relabel_recover labels]
  progress same further := by rw [same, further]; exact Nat.add_right_cancel_iff

theorem program (labels : Relabelling change retell) (room passed : Nat) (cursor : Cursor) :
    Read.program room (cursor.relabel change retell passed) =
      ((Read.program room cursor).1.map (Stmt.map change),
        (Read.program room cursor).2.relabel change retell passed) := by
  have like := labels.likeness passed
  have lasting := labels.lasting passed
  obtain ⟨read, ends⟩ := like.sequence lasting (like.rule lasting .declaration room)
    (fun _ => false) .empty cursor _ rfl
  rw [Slots.map_empty] at read ends
  exact Prod.ext read ends

end Relabelling

end ScriptTree
