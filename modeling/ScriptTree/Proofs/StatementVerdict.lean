import ScriptTree.Proofs.StatementReading

/-! From every place the reader of statements accepts a phrase, rejects the
first token with which no phrase can go on, or uses up its room, for which it
has to pass a token for each level but one. -/
namespace ScriptTree

open Read

def Kind.sample (kind : Kind) : Token :=
  ⟨kind, "", 1⟩

namespace StmtForm

theorem exists_phrase (form : StmtForm) : ∃ tokens stmt, StmtPhrase form tokens stmt := by
  obtain ⟨tokens, value, phrase⟩ := ExprForm.assignment.exists_phrase
  have simple : StmtPhrase .statement (tokens ++ [Kind.semicolon.sample]) (.expr (some value)) :=
    .expr phrase rfl
  cases form with
  | declaration => exact ⟨_, _, .plain simple⟩
  | statement => exact ⟨_, _, simple⟩

structure Found (form : StmtForm) (room : Nat) (tokens : List Token) (stmt : Stmt)
    (look : Option Token) : Prop where
  phrase : StmtPhrase form tokens stmt
  nearest : stmt.nearestElse = true
  enough : stmt.cost ≤ room
  ends : stmt.EndsBefore look

def Viable (form : StmtForm) (tokens : List Token) : Prop :=
  ∃ rest stmt, StmtPhrase form (tokens ++ rest) stmt

/-- What becomes of a text under the reader of a form. -/
def Judged (form : StmtForm) (room : Nat) (unread : List Token) : Prop :=
  Verdict form.rule room unread (form.Found room) form.Viable (room - 1)

end StmtForm

section

variable {room : Nat} {word : Token}

theorem judged_variableDeclaration (var : word.kind = .varWord) (unread : List Token) :
    Verdict (fun more => variableDeclaration (expression more)) room unread
      (fun tokens => StmtForm.declaration.Found room (word :: tokens))
      (fun tokens => StmtForm.declaration.Viable (word :: tokens)) (room - 1) := by
  simp only [variableDeclaration_eq]
  refine Verdict.expect (fun more => onward_initialValue (onward_expression more)) ?_ ?_
  · exact ⟨[Kind.identifier.sample, Kind.semicolon.sample], _, .declare var rfl rfl⟩
  rintro name afterName rfl named
  refine Verdict.accept ?_ ?_
  · rintro equals afterEquals rfl equal
    refine Verdict.bind (judged_expression room afterEquals) ?_ ?_ (by omega) ?_
    · exact fun _ _ => (Onward.expect _ _).bind fun _ => .pure _
    · rintro tokens ⟨rest, value, phrase⟩
      exact ⟨rest ++ [Kind.semicolon.sample], _, by
        simpa using StmtPhrase.declareAs var named equal phrase rfl⟩
    · rintro tokens _ rest - ⟨value, rfl, phrase, enough, -⟩
      refine Verdict.expect (fun _ _ => .pure _) ?_ ?_
      · exact ⟨[Kind.semicolon.sample], _, by
          simpa using StmtPhrase.declareAs var named equal phrase rfl⟩
      · rintro close rest rfl closed
        exact Verdict.pure ⟨.declareAs var named equal phrase closed, rfl, enough, nofun⟩
  · intro missed
    refine Verdict.expect (fun _ _ => .pure _) ?_ ?_
    · exact ⟨[Kind.semicolon.sample], _, .declare var named rfl⟩
    · rintro close rest rfl closed
      exact Verdict.pure ⟨.declare var named closed, rfl, Nat.zero_le _, nofun⟩

theorem judged_expressionStatement (unread : List Token) :
    Verdict (fun more => expressionStatement (expression more)) room unread
      (StmtForm.statement.Found (room + 1)) StmtForm.statement.Viable room := by
  refine Verdict.bind (judged_expression room unread) ?_ ?_ (Nat.le_refl _) ?_
  · exact fun _ _ => (Onward.expect _ _).bind fun _ => .pure _
  · rintro tokens ⟨rest, value, phrase⟩
    have closed : StmtPhrase .statement (tokens ++ rest ++ [Kind.semicolon.sample])
      (.expr (some value)) := .expr phrase rfl
    exact ⟨rest ++ [Kind.semicolon.sample], _, by simpa using closed⟩
  · rintro tokens _ rest - ⟨value, rfl, phrase, enough, -⟩
    refine Verdict.expect (fun _ _ => .pure _) ?_ ?_
    · exact ⟨[Kind.semicolon.sample], _, by simpa using StmtPhrase.expr phrase rfl⟩
    · rintro close rest rfl closed
      refine Verdict.pure ⟨.expr phrase closed, rfl, ?_, nofun⟩
      simp only [Stmt.cost]
      omega

theorem judged_condition {α : Type} {ask answer : Complaint} {f : Nat → Option Expr → Read α}
    {Good : List Token → α → Option Token → Prop} {Viable : List Token → Prop} {depth : Nat}
    {unread : List Token} (onward : ∀ more condition, Onward (f more condition))
    (deeper : depth ≤ room) (start : Viable [])
    (inside : ∀ opening : Token, opening.kind = .leftParen → ∀ tokens,
      ExprForm.assignment.Viable tokens → Viable (opening :: tokens))
    (after : ∀ (opening closing : Token) tokens condition rest, opening.kind = .leftParen →
      ExprPhrase .assignment tokens condition → wholeCost (some condition) ≤ room →
      closing.kind = .rightParen →
      Verdict (fun more => f more (some condition)) room rest
        (fun r => Good (opening :: (tokens ++ closing :: r)))
        (fun r => Viable (opening :: (tokens ++ closing :: r))) depth) :
    Verdict (fun more => do
      let _ ← expect .leftParen ask
      let condition ← expression more
      let _ ← expect .rightParen answer
      f more condition) room unread Good Viable depth := by
  refine Verdict.expect ?_ start ?_
  · exact fun more _ => (onward_expression more).bind fun _ => (Onward.expect _ _).bind fun _ =>
      onward more _
  rintro opening afterOpening rfl opened
  refine Verdict.bind (judged_expression room afterOpening) ?_ (inside opening opened) (by omega) ?_
  · exact fun more _ => (Onward.expect _ _).bind fun _ => onward more _
  rintro tokens _ rest - ⟨condition, rfl, phrase, enough, -⟩
  refine Verdict.expect (fun more _ => onward more _) ?_ ?_
  · exact inside opening opened (tokens ++ []) ⟨[], condition, by simpa using phrase⟩
  rintro closing rest rfl closed
  refine Verdict.imp (after opening closing tokens condition rest opened phrase enough closed)
    ?_ ?_ (by omega)
  · exact fun r a t _ good => good
  · exact fun r start => start

variable (judged : ∀ unread, StmtForm.statement.Judged room unread)

include judged

theorem judged_clause (unread : List Token) :
    Verdict (fun more => clause (expression more) (statement more)) room unread
      (StmtForm.declaration.Found room) StmtForm.declaration.Viable (room - 1) := by
  refine Verdict.accept ?_ ?_
  · rintro word rest rfl var
    exact (judged_variableDeclaration var rest).imp (fun _ _ _ _ found => found)
      (fun _ start => start) (Nat.sub_le _ _)
  · intro _
    refine Verdict.imp (judged unread) ?_ ?_ (Nat.le_refl _)
    · rintro tokens stmt rest - ⟨phrase, nearest, enough, ends⟩
      exact ⟨.plain phrase, nearest, enough, ends⟩
    · rintro tokens ⟨rest, stmt, phrase⟩
      exact ⟨rest, stmt, .plain phrase⟩

theorem judged_declaration (unread : List Token) : StmtForm.declaration.Judged room unread :=
  (judged_clause judged unread).congr fun _ _ => declaration_of_calm

theorem judged_sequence (closes : Kind → Bool) (unread : List Token) (done : Slots Stmt) :
    Verdict (fun more => sequence (StmtForm.declaration.rule more) closes done) room unread
      (fun tokens slots look => ∃ stmts, Script tokens stmts ∧ Stmt.allNearestElse stmts = true ∧
        Stmt.greatestCost stmts ≤ room ∧ slots = stmts.foldl Slots.push done ∧
        ∀ token ∈ look, closes token.kind = true)
      (fun tokens => ∃ rest stmts, Script (tokens ++ rest) stmts) (room - 1) := by
  have part : ∀ unread, Verdict StmtForm.declaration.rule room unread
      (fun tokens stmt _ => tokens ≠ [] ∧ StmtForm.declaration.Found room tokens stmt none)
      StmtForm.declaration.Viable (room - 1) := by
    intro unread
    refine Verdict.imp (judged_declaration judged unread) ?_ (fun _ start => start) (Nat.le_refl _)
    rintro tokens stmt rest - ⟨phrase, nearest, enough, -⟩
    obtain ⟨token, tail, rfl, -⟩ := phrase.head
    exact ⟨by simp, phrase, nearest, enough, by simp [Stmt.EndsBefore]⟩
  refine (Verdict.sequence (StmtForm.declaration.onward_rule) part unread done).imp ?_ ?_
    (Nat.le_refl _)
  · rintro _ _ rest - ⟨parts, each, rfl, rfl, closed⟩
    refine ⟨_, ⟨parts, fun part member => (each part member).phrase, rfl, rfl⟩, ?_, ?_, rfl, closed⟩
    · rw [Stmt.allNearestElse_iff, List.forall_mem_map]
      exact fun part member => (each part member).nearest
    · rw [Stmt.greatestCost_le_iff, List.forall_mem_map]
      exact fun part member => (each part member).enough
  · rintro _ ⟨parts, tokens, each, rfl, rest, stmt, phrase⟩
    refine ⟨rest, _, parts ++ [(tokens ++ rest, stmt)], ?_, by simp, rfl⟩
    rintro part member
    rcases List.mem_append.mp member with member | member
    · exact (each part member).phrase
    · rw [List.mem_singleton.mp member]
      exact phrase

theorem judged_block {opening : Token} (opened : opening.kind = .leftBrace) (unread : List Token) :
    Verdict (fun more => block (declaration (expression more) (statement more))) room unread
      (fun tokens => StmtForm.statement.Found (room + 1) (opening :: tokens))
      (fun tokens => StmtForm.statement.Viable (opening :: tokens)) (room - 1) := by
  simp only [block_eq]
  refine Verdict.bind (judged_sequence judged _ unread .empty) ?_ ?_ (Nat.le_refl _) ?_
  · exact fun _ _ => (Onward.expect _ _).bind fun _ => .pure _
  · rintro tokens ⟨rest, _, parts, phrases, split, rfl⟩
    have brace : Kind.rightBrace.sample.kind = .rightBrace := rfl
    have closed := StmtPhrase.block opened phrases brace
    rw [← split] at closed
    exact ⟨rest ++ [Kind.rightBrace.sample], _, by simpa using closed⟩
  · rintro _ _ rest - ⟨_, ⟨parts, phrases, rfl, rfl⟩, nearest, enough, rfl, -⟩
    refine Verdict.expect (fun _ _ => .pure _) ?_ ?_
    · exact ⟨[Kind.rightBrace.sample], _, by simpa using StmtPhrase.block opened phrases rfl⟩
    · rintro closing rest rfl closed
      refine Verdict.pure ⟨.block opened phrases closed, ?_, ?_, nofun⟩
      · rw [Stmt.nearestElse_block, Slots.toList_foldl_push]
        exact nearest
      · rw [Stmt.cost_block, Slots.toList_foldl_push, Slots.toList_empty, List.nil_append]
        omega

theorem judged_whileStatement (whileWord : word.kind = .whileWord) (unread : List Token) :
    Verdict (fun more => whileStatement (expression more) (statement more)) room unread
      (fun tokens => StmtForm.statement.Found (room + 1) (word :: tokens))
      (fun tokens => StmtForm.statement.Viable (word :: tokens)) (room - 1) := by
  obtain ⟨sample, body, simple⟩ := StmtForm.statement.exists_phrase
  obtain ⟨asked, some, question⟩ := ExprForm.assignment.exists_phrase
  have parens : Kind.leftParen.sample.kind = .leftParen ∧ Kind.rightParen.sample.kind = .rightParen :=
    ⟨rfl, rfl⟩
  refine judged_condition (f := fun more condition =>
    statement more >>= fun body => pure (Stmt.whileLoop condition body)) ?_ (Nat.sub_le _ _) ?_ ?_ ?_
  · exact fun more _ => (onward_statement more).bind fun _ => .pure _
  · exact ⟨_, _, .whileLoop whileWord parens.1 question parens.2 simple⟩
  · rintro opening opened tokens ⟨rest, condition, phrase⟩
    exact ⟨rest ++ Kind.rightParen.sample :: sample, _, by
      simpa using StmtPhrase.whileLoop whileWord opened phrase parens.2 simple⟩
  · intro opening closing tokens condition rest opened phrase enough closed
    refine Verdict.bind (judged rest) (fun _ _ => .pure _) ?_ (Nat.le_refl _) ?_
    · rintro part ⟨rest, body, inner⟩
      exact ⟨rest, _, by simpa using StmtPhrase.whileLoop whileWord opened phrase closed inner⟩
    · rintro part body rest - ⟨inner, nearest, enough', ends⟩
      refine Verdict.pure ⟨?_, nearest, ?_, ends⟩
      · simpa using StmtPhrase.whileLoop whileWord opened phrase closed inner
      · simp only [Stmt.cost]
        omega

theorem judged_ifStatement (ifWord : word.kind = .ifWord) (unread : List Token) :
    Verdict (fun more => ifStatement (expression more) (statement more)) room unread
      (fun tokens => StmtForm.statement.Found (room + 1) (word :: tokens))
      (fun tokens => StmtForm.statement.Viable (word :: tokens)) (room - 1) := by
  obtain ⟨sample, body, simple⟩ := StmtForm.statement.exists_phrase
  obtain ⟨asked, some, question⟩ := ExprForm.assignment.exists_phrase
  have parens : Kind.leftParen.sample.kind = .leftParen ∧ Kind.rightParen.sample.kind = .rightParen :=
    ⟨rfl, rfl⟩
  simp only [ifStatement_eq]
  refine judged_condition (f := fun more condition =>
    statement more >>= fun yes => elseBranch (statement more) condition yes)
    ?_ (Nat.sub_le _ _) ?_ ?_ ?_
  · exact fun more _ => (onward_statement more).bind fun _ =>
      onward_elseBranch (onward_statement more) _ _
  · exact ⟨_, _, .ifThen ifWord parens.1 question parens.2 simple⟩
  · rintro opening opened tokens ⟨rest, condition, phrase⟩
    exact ⟨rest ++ Kind.rightParen.sample :: sample, _, by
      simpa using StmtPhrase.ifThen ifWord opened phrase parens.2 simple⟩
  · intro opening closing tokens condition rest opened phrase enough closed
    refine Verdict.bind (judged rest)
      (fun more _ => onward_elseBranch (onward_statement more) _ _) ?_ (Nat.le_refl _) ?_
    · rintro part ⟨rest, yes, inner⟩
      exact ⟨rest, _, by simpa using StmtPhrase.ifThen ifWord opened phrase closed inner⟩
    rintro yeses yes rest - ⟨inner, nearest, enough', ends⟩
    refine Verdict.accept ?_ ?_
    · rintro otherwise rest rfl elseWord
      have takes : yes.takesElse = false := by
        by_contra takes
        exact ends (by simpa using takes) otherwise rfl elseWord
      refine Verdict.bind (judged rest) (fun _ _ => .pure _) ?_ (by omega) ?_
      · rintro part ⟨rest, no, other⟩
        exact ⟨rest, _, by simpa using StmtPhrase.ifElse ifWord opened phrase closed inner elseWord other⟩
      · rintro noes no rest - ⟨other, nearest', enough'', ends'⟩
        refine Verdict.pure ⟨?_, ?_, ?_, ends'⟩
        · simpa using StmtPhrase.ifElse ifWord opened phrase closed inner elseWord other
        · simp [Stmt.nearestElse, takes, nearest, nearest']
        · simp only [Stmt.cost]
          omega
    · intro missed
      refine Verdict.pure ⟨?_, nearest, ?_, fun _ => missed⟩
      · simpa using StmtPhrase.ifThen ifWord opened phrase closed inner
      · simp only [Stmt.cost]
        omega

theorem judged_forStatement (forWord : word.kind = .forWord) (unread : List Token) :
    Verdict (fun more => forStatement (expression more) (statement more)) room unread
      (fun tokens => StmtForm.statement.Found (room + 1) (word :: tokens))
      (fun tokens => StmtForm.statement.Viable (word :: tokens)) (room - 1) := by
  obtain ⟨first, _, simple⟩ := StmtForm.declaration.exists_phrase
  obtain ⟨second, _, simple'⟩ := StmtForm.statement.exists_phrase
  have leftParen : Kind.leftParen.sample.kind = .leftParen := rfl
  have rightParen : Kind.rightParen.sample.kind = .rightParen := rfl
  have inner : ∀ more, Onward (statement more) := onward_statement
  simp only [forStatement_eq]
  refine Verdict.expect ?_ ?_ ?_
  · exact fun more _ => (onward_clause (onward_expression more) (inner more)).bind fun _ =>
      (inner more).bind fun _ => (inner more).bind fun _ => (Onward.expect _ _).bind fun _ =>
        (inner more).bind fun _ => .pure _
  · exact ⟨_, _, .forLoop forWord leftParen simple simple' simple' rightParen simple'⟩
  rintro opening rest rfl opened
  refine Verdict.bind (judged_clause judged rest) ?_ ?_ (by omega) ?_
  · exact fun more _ => (inner more).bind fun _ => (inner more).bind fun _ =>
      (Onward.expect _ _).bind fun _ => (inner more).bind fun _ => .pure _
  · rintro part ⟨rest, init, phrase⟩
    exact ⟨rest ++ (second ++ (second ++ Kind.rightParen.sample :: second)), _, by
      simpa using StmtPhrase.forLoop forWord opened phrase simple' simple' rightParen simple'⟩
  rintro inits init rest - ⟨phrase, nearest, enough, -⟩
  refine Verdict.bind (judged rest) ?_ ?_ (by omega) ?_
  · exact fun more _ => (inner more).bind fun _ => (Onward.expect _ _).bind fun _ =>
      (inner more).bind fun _ => .pure _
  · rintro part ⟨rest, condition, phrase'⟩
    exact ⟨rest ++ (second ++ Kind.rightParen.sample :: second), _, by
      simpa using StmtPhrase.forLoop forWord opened phrase phrase' simple' rightParen simple'⟩
  rintro conditions condition rest - ⟨phrase', nearest', enough', -⟩
  refine Verdict.bind (judged rest) ?_ ?_ (by omega) ?_
  · exact fun more _ => (Onward.expect _ _).bind fun _ => (inner more).bind fun _ => .pure _
  · rintro part ⟨rest, increment, phrase''⟩
    exact ⟨rest ++ Kind.rightParen.sample :: second, _, by
      simpa using StmtPhrase.forLoop forWord opened phrase phrase' phrase'' rightParen simple'⟩
  rintro increments increment rest - ⟨phrase'', nearest'', enough'', -⟩
  refine Verdict.expect (fun more _ => (inner more).bind fun _ => .pure _) ?_ ?_
  · exact ⟨Kind.rightParen.sample :: second, _, by
      simpa using StmtPhrase.forLoop forWord opened phrase phrase' phrase'' rightParen simple'⟩
  rintro closing rest rfl closed
  refine Verdict.bind (judged rest) (fun _ _ => .pure _) ?_ (by omega) ?_
  · rintro part ⟨rest, body, phrase₄⟩
    exact ⟨rest, _, by
      simpa using StmtPhrase.forLoop forWord opened phrase phrase' phrase'' closed phrase₄⟩
  rintro bodies body rest - ⟨phrase₄, nearest₄, enough₄, ends⟩
  refine Verdict.pure ⟨?_, ?_, ?_, ends⟩
  · simpa using StmtPhrase.forLoop forWord opened phrase phrase' phrase'' closed phrase₄
  · simp [Stmt.nearestElse, nearest, nearest', nearest'', nearest₄]
  · simp only [Stmt.cost]
    omega

theorem judged_statementWith (unread : List Token) :
    Verdict (fun more => statementWith (expression more) (statement more)) room unread
      (StmtForm.statement.Found (room + 1)) StmtForm.statement.Viable room := by
  refine Verdict.take? ?_ fun _ => judged_expressionStatement unread
  rintro word opening rest rfl found
  have kind := (Opening.of?_eq_some opening).mp found
  cases opening with
  | forLoop => exact judged_forStatement judged kind rest
  | whileLoop => exact judged_whileStatement judged kind rest
  | branch => exact judged_ifStatement judged kind rest
  | block => exact judged_block judged kind rest

end

theorem judged_statement (room : Nat) (unread : List Token) :
    StmtForm.statement.Judged room unread := by
  induction room generalizing unread with
  | zero =>
    exact .tooDeep (s := []) rfl (Rejects.complain.bind fun _ => .pure _) (Nat.zero_le _)
  | succ room ih => exact Verdict.deeper (fun _ => rfl) (judged_statementWith ih unread)

/-- A whole text is accepted as a script that costs no more than the room,
unless a token is rejected with which no script can go on, or the room is used
up. -/
theorem judged_program (room : Nat) (unread : List Token) :
    Verdict program room unread
      (fun tokens slots look => look = none ∧ ∃ stmts, Script tokens stmts ∧
        Stmt.allNearestElse stmts = true ∧ Stmt.greatestCost stmts ≤ room ∧ slots = .ofList stmts)
      (fun tokens => ∃ rest stmts, Script (tokens ++ rest) stmts) (room - 1) := by
  refine Verdict.imp (judged_sequence (judged_statement room) (fun _ => false) unread .empty)
    ?_ (fun _ start => start) (Nat.le_refl _)
  rintro tokens slots rest - ⟨stmts, script, nearest, enough, rfl, closed⟩
  refine ⟨?_, stmts, script, nearest, enough, rfl⟩
  cases rest with
  | nil => rfl
  | cons token rest => exact absurd (closed token rfl) (by simp)

end ScriptTree
