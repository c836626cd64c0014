import ScriptTree.Proofs.Charged

/-! The books of a reader. Wherever a rule of the grammar is called and however it comes back,
with an answer, without one or early after a report, the reader has the same tokens, stands no
nearer to their front, takes back no report, and is in as many levels as it was. In between it
was never in more of them than the limit. -/
namespace ScriptTree

structure Cursor.Inside (tokens : Tokens) (cursor : Cursor) : Prop where
  stop : cursor.stop = tokens.stop
  unread : cursor.unread = tokens.body.drop cursor.consumed
  consumed : cursor.consumed ≤ tokens.body.length

theorem Cursor.Onward.inside {tokens : Tokens} {before after : Cursor} (onward : before.Onward after)
    (inside : before.Inside tokens) : after.Inside tokens := by
  obtain ⟨passed, split, counted⟩ := onward.passed
  rw [inside.unread] at split
  have further : after.unread = tokens.body.drop after.consumed := by
    rw [counted, ← List.drop_drop, split, List.drop_left]
  have shorter := congrArg List.length split
  rw [List.length_drop, List.length_append] at shorter
  exact ⟨onward.stop.trans inside.stop, further, by have room := inside.consumed; omega⟩

theorem Cursor.Onward.consumed_le {before after : Cursor} (onward : before.Onward after) :
    before.consumed ≤ after.consumed := by
  obtain ⟨passed, -, counted⟩ := onward.passed
  omega

theorem Cursor.Onward.charge {before after : Cursor} (onward : before.Onward after)
    (change : Account → Account) : before.Onward (after.charge change) :=
  ⟨onward.stop, onward.passed, onward.told⟩

/-- How a rule leaves the cursor that it is called with: in the same tokens and no nearer to
their front, on the same level, and with every report that there was. The latest report comes first. -/
structure Cursor.Keeps (tokens : Tokens) (limit : Nat) (before after : Cursor) : Prop where
  inside : after.Inside tokens
  onward : before.consumed ≤ after.consumed
  depth : after.account.depth = before.account.depth
  deepest : after.account.deepest ≤ limit
  hadError : before.hadError = true → after.hadError = true
  reported : before.reported <:+ after.reported

/-- From here on it is seen what the deepest level is. -/
def Account.mark (account : Account) : Account :=
  { account with deepest := account.depth }

/-- Readers of the parts that the rules are made of. -/
structure Readers where
  expression : Read (Option Expr)
  assignment : Read (Option Expr)
  chain : List (List Kind) → Read (Option Expr)
  unary : Read (Option Expr)
  primary : Read (Option Expr)
  statement : Read Stmt

def Read.readers (room : Nat) : Readers where
  expression := expression room
  assignment := assignment room
  chain := chain room
  unary := unary room
  primary := primary room
  statement := statement room

def Charged.readers (limit bound : Nat) : Readers where
  expression := expression limit bound
  assignment := assignment limit bound
  chain := chain limit bound
  unary := unary limit bound
  primary := primary limit bound
  statement := statement limit bound

inductive Rule where
  | declaration
  | variableDeclaration
  | statement
  | forStatement
  | whileStatement
  | ifStatement
  | block
  | expressionStatement
  | expression
  | assignment
  | chain (tier : Fin 4)
  | unary
  | primary

def Rule.run (rule : Rule) (readers : Readers) (cursor : Cursor) : Cursor :=
  let value := readers.expression
  let part := readers.statement
  match rule with
  | declaration => (Read.declaration value part cursor).2
  | variableDeclaration => (Read.variableDeclaration value cursor).2
  | statement => (part cursor).2
  | forStatement => (Read.forStatement value part cursor).2
  | whileStatement => (Read.whileStatement value part cursor).2
  | ifStatement => (Read.ifStatement value part cursor).2
  | block => (Read.block (Read.declaration value part) cursor).2
  | expressionStatement => (Read.expressionStatement value cursor).2
  | expression => (value cursor).2
  | assignment => (readers.assignment cursor).2
  | chain tier => (readers.chain (Read.tiers.drop tier) cursor).2
  | unary => (readers.unary cursor).2
  | primary => (readers.primary cursor).2

open Read

theorem Rule.onward_run (rule : Rule) (room : Nat) (cursor : Cursor) :
    cursor.Onward (rule.run (readers room) cursor) := by
  have whole := onward_expression room
  have inner := onward_statement room
  cases rule with
  | declaration => exact onward_declaration whole inner cursor
  | variableDeclaration => exact onward_variableDeclaration whole cursor
  | statement => exact inner cursor
  | forStatement => exact onward_forStatement whole inner cursor
  | whileStatement => exact onward_whileStatement whole inner cursor
  | ifStatement => exact onward_ifStatement whole inner cursor
  | block => exact onward_block (onward_declaration whole inner) cursor
  | expressionStatement => exact onward_expressionStatement whole cursor
  | expression => exact whole cursor
  | assignment => exact onward_law.assignment room cursor
  | chain tier => exact onward_law.chain room _ (List.drop_suffix tier tiers) cursor
  | unary => exact onward_law.unary room cursor
  | primary => exact onward_law.primary room cursor

namespace Charged

theorem run_tracks (rule : Rule) {limit bound : Nat} {cursor other : Cursor}
    (tracks : Tracks False limit bound bound 2 cursor other) :
    Tracks False limit bound bound 2 (rule.run (Read.readers bound) cursor)
      (rule.run (readers limit bound) other) := by
  have like := likeness False limit bound bound 2
  have lasting := lasting False limit bound bound 2
  have whole := @expression_alike False limit bound bound 1
  have inner := @statement_alike False limit bound bound 0
  cases rule with
  | declaration => exact (like.declaration lasting whole inner _ _ tracks).2
  | variableDeclaration => exact (like.variableDeclaration whole _ _ tracks).2
  | statement => exact (inner _ _ tracks).2
  | forStatement => exact (like.forStatement whole inner _ _ tracks).2
  | whileStatement => exact (like.whileStatement whole inner _ _ tracks).2
  | ifStatement => exact (like.ifStatement whole inner _ _ tracks).2
  | block => exact (like.block lasting (like.declaration lasting whole inner) _ _ tracks).2
  | expressionStatement => exact (like.expressionStatement whole _ _ tracks).2
  | expression => exact (whole _ _ tracks).2
  | assignment => exact (assignment_alike bound bound 2 _ _ tracks).2
  | chain tier => exact (chain_alike bound bound 2 (Read.tiers.drop tier) _ _ tracks).2
  | unary => exact (unary_alike bound bound 2 _ _ tracks).2
  | primary => exact (primary_alike bound bound 2 _ _ tracks).2

/-- Any rule, called anywhere in any tokens and on any level that the limit allows, keeps the
books, and on the way the limit is never passed. But for its account the cursor is left where
the reader leaves it that is told the levels it may still enter. -/
theorem keeps_books (rule : Rule) {limit : Nat} {tokens : Tokens} {cursor : Cursor}
    (inside : cursor.Inside tokens) (allowed : cursor.account.depth ≤ limit) :
    let bound := limit - cursor.account.depth
    let after := rule.run (readers limit bound) (cursor.charge .mark)
    cursor.Keeps tokens limit after ∧
      after = (rule.run (Read.readers bound) cursor).charge fun _ => after.account := by
  intro bound after
  have level : cursor.account.depth + bound = limit := Nat.add_sub_cancel' allowed
  have before : Tracks False limit bound bound 2 cursor (cursor.charge .mark) :=
    ⟨⟨rfl, allowed, .inr ⟨not_false, rfl⟩⟩, level⟩
  have behind : Tracks False limit bound bound 2 (rule.run (Read.readers bound) cursor) after :=
    run_tracks rule before
  have onward : cursor.Onward after := by
    rw [behind.same]
    exact (rule.onward_run bound cursor).charge _
  exact ⟨{
    inside := onward.inside inside
    onward := onward.consumed_le
    depth := Nat.add_right_cancel (behind.level.trans level.symm)
    deepest := behind.deepest
    hadError := onward.hadError
    reported := onward.reported }, behind.same⟩

/-- On the first of two levels, behind `a =`, a chain is given up at its second operator: the
level of the first one is left all the same. -/
theorem keeps_books_of_refused_chain :
    let tokens := tokenize "a = 1 + 2 + 3;"
    let cursor : Cursor :=
      { unread := tokens.body.drop 2, stop := tokens.stop, consumed := 2, account := { depth := 1 } }
    let after := Rule.run (.chain 0) (readers 2 1) (cursor.charge .mark)
    cursor.Inside tokens ∧ cursor.account.depth ≤ 2 ∧
      (after.consumed = 6 ∧ after.hadError = true ∧ after.account.deepest = 2) ∧
      cursor.Keeps tokens 2 after ∧
      after = (Rule.run (.chain 0) (Read.readers 1) cursor).charge fun _ => after.account := by
  intro tokens cursor after
  have inside : cursor.Inside tokens := ⟨rfl, rfl, by decide +kernel⟩
  have allowed : cursor.account.depth ≤ 2 := by decide
  exact ⟨inside, allowed, by decide +kernel, keeps_books (.chain 0) inside allowed⟩

end Charged

end ScriptTree
