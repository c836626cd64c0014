import ScriptTree.Proofs.Likeness
import ScriptTree.Proofs.Remains

/-! Reading in a panic. A panic keeps a reader quiet and changes nothing else of what it does,
until it looks for a statement boundary; and it looks for one only between the declarations
of a block or of the whole text. -/
namespace ScriptTree

namespace Cursor

/-- The other cursor panics in front of the same tokens and has told what it has told. -/
structure Muted (told : List Diagnostic) (cursor other : Cursor) : Prop where
  unread : other.unread = cursor.unread
  stop : other.stop = cursor.stop
  panicking : other.panicking = true
  reported : other.reported = told

variable {told : List Diagnostic} {cursor other : Cursor}

theorem Muted.advance (muted : Muted told cursor other) : Muted told cursor.advance other.advance := by
  unfold Cursor.advance
  rw [muted.unread]
  split
  · exact muted
  · exact ⟨rfl, muted.stop, muted.panicking, muted.reported⟩

theorem Muted.report (muted : Muted told cursor other) (token token' : Token)
    (complaint : Complaint) :
    Muted told (cursor.report token complaint) (other.report token' complaint) := by
  have quiet : other.report token' complaint = other := if_pos muted.panicking
  have stop : (cursor.report token complaint).stop = cursor.stop :=
    (onward_report cursor token complaint).stop
  rw [quiet]
  exact ⟨by rw [report_unread, muted.unread], by rw [stop, muted.stop], muted.panicking,
    muted.reported⟩

theorem likeness_muted (told : List Diagnostic) : Likeness id (Muted told) where
  kind _ := rfl
  lexeme _ := rfl
  unread muted := by rw [muted.unread, List.map_id]
  stop muted := muted.stop
  advance muted := muted.advance
  complain muted complaint := muted.report _ _ complaint
  refuse muted _ _ := muted.advance.report _ _ _

def Unbraced (cursor : Cursor) : Prop :=
  ∀ token ∈ cursor.unread, token.kind ≠ .leftBrace

theorem Unbraced.onward (unbraced : Unbraced cursor) (onward : cursor.Onward other) :
    Unbraced other := by
  obtain ⟨passed, split, -⟩ := onward.passed
  exact fun token ahead => unbraced token (split ▸ List.mem_append_right passed ahead)

theorem invariant_unbraced : Invariant Unbraced where
  advance unbraced := unbraced.onward (onward_advance _)
  complain unbraced complaint := unbraced.onward (onward_report _ _ complaint)
  refuse unbraced _ _ := unbraced.onward ((onward_advance _).trans (onward_report _ _ _))
  recover unbraced := unbraced.onward (onward_recover _)

end Cursor

namespace Likeness

open Read

variable {change : Token → Token} {Related : Cursor → Cursor → Prop}

theorem within {Holds : Cursor → Prop} (like : Likeness change Related) (keeps : Invariant Holds) :
    Likeness change (fun cursor other => Related cursor other ∧ Holds cursor) where
  kind := like.kind
  lexeme := like.lexeme
  unread related := like.unread related.1
  stop related := like.stop related.1
  advance related := ⟨like.advance related.1, keeps.advance related.2⟩
  complain related complaint := ⟨like.complain related.1 complaint, keeps.complain related.2 complaint⟩
  refuse related ahead equal :=
    ⟨like.refuse related.1 ahead equal, keeps.refuse related.2 ahead equal⟩

/-- Where no block is opened nothing recovers, and a statement is read alike even if it could
be told where one does. -/
theorem statement_of_unbraced (like : Likeness change Related)
    (unbraced : ∀ {cursor other}, Related cursor other → cursor.Unbraced) (room : Nat) :
    Alike Related (Stmt.map change) (Read.statement room) (Read.statement room) := by
  induction room with
  | zero => exact (like.complains _).bind fun _ => .pure rfl
  | succ room inner =>
    have whole := like.expression room
    intro cursor other related
    obtain ⟨same, after⟩ := like.opening cursor other related
    rw [Option.map_id_fun, id] at same
    unfold Read.statement statementWith
    rw [bind_apply, bind_apply, same]
    cases opened : (Read.take? Opening.of? cursor).1 with
    | none => exact like.expressionStatement whole _ _ after
    | some opening =>
      cases opening with
      | forLoop => exact like.forStatement whole inner _ _ after
      | whileLoop => exact like.whileStatement whole inner _ _ after
      | branch => exact like.ifStatement whole inner _ _ after
      | block =>
        obtain ⟨passed, split, found⟩ := opening_remains cursor
        rw [opened] at found
        obtain ⟨brace, rfl, kind⟩ := found
        exact absurd kind (unbraced related brace (split ▸ List.mem_cons_self))

end Likeness

end ScriptTree
