import ScriptTree.Proofs.Law

/-! An expression ends at a semicolon as it ends at the end of input. Two runs of
its reader, one in front of a semicolon and one in front of nothing, stop at the
same token, answer the same and panic alike, also after a report. -/
namespace ScriptTree

/-- The long cursor has a rest behind what the short one has to read. -/
structure Cursor.Extends (rest : List Token) (long short : Cursor) : Prop where
  unread : long.unread = short.unread ++ rest
  panicking : long.panicking = short.panicking

theorem Cursor.Extends.advance {rest : List Token} {long short : Cursor} {token : Token}
    {unread : List Token} (same : Cursor.Extends rest long short)
    (next : short.unread = token :: unread) :
    Cursor.Extends rest long.advance short.advance := by
  have next' := same.unread
  rw [next, List.cons_append] at next'
  constructor
  · simp [Cursor.advance, next, next']
  · simp [Cursor.advance, next, next', same.panicking]

theorem Cursor.Extends.report {rest : List Token} {long short : Cursor}
    (same : Cursor.Extends rest long short) (token token' : Token) (complaint : Complaint) :
    Cursor.Extends rest (long.report token complaint) (short.report token' complaint) := by
  have alike := same.panicking
  unfold Cursor.report
  cases panics : short.panicking with
  | true =>
    rw [panics] at alike
    simpa [alike] using same
  | false =>
    rw [panics] at alike
    constructor
    · simpa [alike] using same.unread
    · simp [alike]

namespace Read

variable {α β : Type}

/-- The reader makes no difference between a semicolon and the end. -/
def StopsAtSemicolon (p : Read α) : Prop :=
  ∀ rest long short, (∀ token ∈ rest.head?, token.kind = .semicolon) →
    Cursor.Extends rest long short →
      (p long).1 = (p short).1 ∧ Cursor.Extends rest (p long).2 (p short).2

theorem StopsAtSemicolon.pure (a : α) : StopsAtSemicolon (pure a : Read α) :=
  fun _ _ _ _ same => ⟨rfl, same⟩

theorem StopsAtSemicolon.bind {p : Read α} {f : α → Read β} (first : StopsAtSemicolon p)
    (next : ∀ a, StopsAtSemicolon (f a)) : StopsAtSemicolon (p >>= f) := by
  intro rest long short semicolon same
  obtain ⟨answer, after⟩ := first rest long short semicolon same
  rw [bind_apply, bind_apply, answer]
  exact next _ _ _ _ semicolon after

theorem StopsAtSemicolon.take? {pick : Token → Option α}
    (passes : ∀ token : Token, token.kind = .semicolon → pick token = none) :
    StopsAtSemicolon (take? pick) := by
  intro rest long short semicolon same
  have unread := same.unread
  unfold Read.take?
  cases next : short.unread with
  | nil =>
    rw [next, List.nil_append] at unread
    rw [unread]
    cases rest with
    | nil => exact ⟨rfl, same⟩
    | cons token rest =>
      simp only [passes token (semicolon token rfl)]
      exact ⟨trivial, same⟩
  | cons token short' =>
    rw [next, List.cons_append] at unread
    rw [unread]
    cases picked : pick token with
    | none => exact ⟨by simp [picked], by simpa [picked] using same⟩
    | some a => exact ⟨by simp [picked], by simpa [picked] using same.advance next⟩

theorem StopsAtSemicolon.report (found : Cursor → Token) (complaint : Complaint) :
    StopsAtSemicolon (modify fun cursor => cursor.report (found cursor) complaint : Read Unit) :=
  fun _ _ _ _ same => ⟨rfl, same.report _ _ complaint⟩

theorem stops_law : Law StopsAtSemicolon fun kind => kind = .semicolon where
  passes := by decide
  pure := .pure
  bind := .bind
  take? := .take?
  report := .report

theorem stops_expression (room : Nat) : StopsAtSemicolon (expression room) :=
  stops_law.expression room

end Read

end ScriptTree
