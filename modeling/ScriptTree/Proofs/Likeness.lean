import ScriptTree.Proofs.StatementReading
import ScriptTree.Proofs.TokenMap

/-! Two readings side by side. A reader looks at the kinds of tokens and copies the
rest, so if the tokens of a text are changed one by one and keep their kind and their
lexeme, the same is read, with the changed tokens in the tree. How far apart the two
cursors may be otherwise is left open: any relation will do that no step can tell. -/
namespace ScriptTree

/-- A relation of cursors that no reader of expressions can tell from equality, but for
the tokens that it keeps. Reports are made at the next token, or at an equals sign right
behind it. -/
structure Likeness (change : Token → Token) (Related : Cursor → Cursor → Prop) : Prop where
  kind : ∀ token, (change token).kind = token.kind
  lexeme : ∀ token, (change token).lexeme = token.lexeme
  unread : ∀ {cursor other}, Related cursor other → other.unread = cursor.unread.map change
  stop : ∀ {cursor other}, Related cursor other → other.stop = change cursor.stop
  advance : ∀ {cursor other}, Related cursor other → Related cursor.advance other.advance
  complain : ∀ {cursor other}, Related cursor other → ∀ complaint,
    Related (cursor.report cursor.next complaint) (other.report other.next complaint)
  refuse : ∀ {cursor other token rest}, Related cursor other → cursor.unread = token :: rest →
    token.kind = .equal → Related (cursor.advance.report token .invalidTarget)
      (other.advance.report (change token) .invalidTarget)

/-- Nor can a reader of statements, which recovers and looks for progress. -/
structure Likeness.Lasting (Related : Cursor → Cursor → Prop) : Prop where
  recover : ∀ {cursor other}, Related cursor other → Related cursor.recover other.recover
  progress : ∀ {cursor other after otherAfter}, Related cursor other →
    Related after otherAfter → (otherAfter.consumed = other.consumed ↔ after.consumed = cursor.consumed)

namespace Read

variable {α β γ δ : Type} {Before Between After Related : Cursor → Cursor → Prop}

/-- From cursors related in one way the readers answer the same, but for what is carried
over, and they leave cursors related in another. -/
def Leads (Before After : Cursor → Cursor → Prop) (carry : α → β) (p : Read α) (q : Read β) :
    Prop :=
  ∀ cursor other, Before cursor other →
    (q other).1 = carry (p cursor).1 ∧ After (p cursor).2 (q other).2

theorem Leads.pure {carry : α → β} {a : α} {b : β} (same : b = carry a) :
    Leads Related Related carry (pure a) (pure b) :=
  fun _ _ related => ⟨same, related⟩

theorem Leads.bind {p : Read α} {q : Read β} {f : α → Read γ} {g : β → Read δ}
    {carry : α → β} {carry' : γ → δ} (first : Leads Before Between carry p q)
    (next : ∀ a, Leads Between After carry' (f a) (g (carry a))) :
    Leads Before After carry' (p >>= f) (q >>= g) := by
  intro cursor other related
  obtain ⟨same, after⟩ := first cursor other related
  rw [bind_apply, bind_apply, same]
  exact next _ _ _ after

theorem Leads.after {After' : Cursor → Cursor → Prop} {p : Read α} {q : Read β} {carry : α → β}
    (leads : Leads Before After carry p q)
    (weaker : ∀ {cursor other}, After cursor other → After' cursor other) :
    Leads Before After' carry p q := by
  intro cursor other related
  obtain ⟨same, after⟩ := leads cursor other related
  exact ⟨same, weaker after⟩

abbrev Alike (Related : Cursor → Cursor → Prop) (carry : α → β) (p : Read α) (q : Read β) : Prop :=
  Leads Related Related carry p q

end Read

open Read

namespace Likeness

variable {change : Token → Token} {Related : Cursor → Cursor → Prop} {α : Type}

theorem next (like : Likeness change Related) {cursor other : Cursor}
    (related : Related cursor other) : other.next = change cursor.next := by
  rw [Cursor.next, Cursor.next, like.unread related, like.stop related]
  cases cursor.unread <;> rfl

theorem take? (like : Likeness change Related) {pick : Token → Option α} {carry : α → α}
    (same : ∀ token, pick (change token) = (pick token).map carry) :
    Alike Related (Option.map carry) (take? pick) (take? pick) := by
  intro cursor other related
  have unread := like.unread related
  unfold Read.take?
  cases ahead : cursor.unread with
  | nil =>
    rw [ahead, List.map_nil] at unread
    rw [unread]
    exact ⟨rfl, related⟩
  | cons token rest =>
    rw [ahead, List.map_cons] at unread
    rw [unread]
    simp only [same]
    cases pick token with
    | none => exact ⟨rfl, related⟩
    | some picked => exact ⟨rfl, like.advance related⟩

theorem acceptAny (like : Likeness change Related) (kinds : List Kind) :
    Alike Related (Option.map change) (acceptAny kinds) (acceptAny kinds) := by
  apply like.take?
  intro token
  rw [like.kind]
  split <;> rfl

theorem accept (like : Likeness change Related) (kind : Kind) :
    Alike Related (Option.map change) (accept kind) (accept kind) := by
  apply like.take?
  intro token
  rw [like.kind]
  split <;> rfl

theorem complains (like : Likeness change Related) (complaint : Complaint) :
    Alike Related id (Read.complain complaint) (Read.complain complaint) :=
  fun _ _ related => ⟨rfl, like.complain related complaint⟩

theorem expect (like : Likeness change Related) (kind : Kind) (complaint : Complaint) :
    Alike Related (Option.map change) (expect kind complaint) (expect kind complaint) := by
  apply (like.accept kind).bind
  intro found
  cases found with
  | some token => exact .pure rfl
  | none => exact (like.complains complaint).bind fun _ => .pure rfl

theorem nested (like : Likeness change Related) {room : Nat}
    {body body' : (inner : Nat) → inner < room → Read (Option α)} {carry : α → α}
    (alike : ∀ inner bound, Alike Related (Option.map carry) (body inner bound) (body' inner bound)) :
    Alike Related (Option.map carry) (nested room body) (nested room body') := by
  cases room with
  | zero => exact (like.complains _).bind fun _ => .pure rfl
  | succ inner => exact alike inner _

theorem leaf (like : Likeness change Related) :
    Alike Related (Option.map (Expr.map change)) (Read.take? leaf?) (Read.take? leaf?) := by
  apply like.take?
  intro token
  unfold leaf?
  rw [like.kind, like.lexeme]
  split <;> rfl

theorem refused (like : Likeness change Related) (target : Expr) :
    Alike Related (Option.map (Expr.map change))
      (do
        let some equals ← Read.accept .equal | return some target
        modify (·.report equals .invalidTarget)
        return some target : Read (Option Expr))
      (do
        let some equals ← Read.accept .equal | return some (target.map change)
        modify (·.report equals .invalidTarget)
        return some (target.map change) : Read (Option Expr)) := by
  intro cursor other related
  have unread := like.unread related
  simp only [bind_apply, Read.accept, Read.take?]
  cases ahead : cursor.unread with
  | nil =>
    rw [ahead, List.map_nil] at unread
    rw [unread]
    exact ⟨rfl, related⟩
  | cons token rest =>
    rw [ahead, List.map_cons] at unread
    simp only [unread, like.kind]
    by_cases equal : token.kind = .equal
    · simp only [if_pos equal]
      exact ⟨rfl, like.refuse related ahead equal⟩
    · simp only [if_neg equal]
      exact ⟨rfl, related⟩

theorem assignTo (like : Likeness change Related) {value value' : Read (Option Expr)}
    (alike : Alike Related (Option.map (Expr.map change)) value value') (target : Option Expr) :
    Alike Related (Option.map (Expr.map change)) (assignTo value target)
      (assignTo value' (target.map (Expr.map change))) := by
  cases target with
  | none => exact .pure rfl
  | some target =>
    cases target with
    -- The change keeps names names, so the same targets are refused.
    | name name =>
      apply (like.accept .equal).bind
      intro equals
      cases equals with
      | none => exact .pure rfl
      | some equals =>
        apply alike.bind
        intro value
        cases value <;> exact .pure rfl
    | _ => exact like.refused _

mutual

theorem assignment (like : Likeness change Related) (room : Nat) :
    Alike Related (Option.map (Expr.map change)) (assignment room) (assignment room) := by
  rw [assignment_eq]
  apply (like.chain room binaryTiers).bind
  exact like.assignTo (like.nested fun inner _ => like.assignment inner)
termination_by room * 8 + 7
decreasing_by
  · simp only [binaryTiers, List.length_cons, List.length_nil]
    omega
  · omega

theorem chain (like : Likeness change Related) (room : Nat) : ∀ tiers,
    Alike Related (Option.map (Expr.map change)) (chain room tiers) (chain room tiers)
  | [] => by
    unfold Read.chain
    exact like.unary room
  | operators :: tighter => by
    unfold Read.chain
    apply (like.chain room tighter).bind
    intro left
    cases left with
    | none => exact .pure rfl
    | some left => exact like.chainRest room operators tighter left
termination_by tiers => room * 8 + 2 + tiers.length

theorem chainRest (like : Likeness change Related) (room : Nat) (operators : List Kind)
    (tighter : List (List Kind)) (left : Expr) :
    Alike Related (Option.map (Expr.map change)) (chainRest room operators tighter left)
      (chainRest room operators tighter (left.map change)) := by
  unfold Read.chainRest
  apply (like.acceptAny operators).bind
  intro operator
  cases operator with
  | none => exact .pure rfl
  | some operator =>
    apply like.nested
    intro inner _
    apply (like.chain inner tighter).bind
    intro right
    cases right with
    | none => exact .pure rfl
    | some right => exact like.chainRest inner operators tighter (.binary operator left right)
termination_by room * 8 + 2 + tighter.length

theorem unary (like : Likeness change Related) (room : Nat) :
    Alike Related (Option.map (Expr.map change)) (unary room) (unary room) := by
  unfold Read.unary
  apply (like.acceptAny [.bang, .minus]).bind
  intro operator
  cases operator with
  | none => exact like.primary room
  | some operator =>
    apply (like.nested fun inner _ => like.unary inner).bind
    intro right
    cases right <;> exact .pure rfl
termination_by room * 8 + 1

theorem primary (like : Likeness change Related) (room : Nat) :
    Alike Related (Option.map (Expr.map change)) (primary room) (primary room) := by
  unfold Read.primary
  apply like.leaf.bind
  intro found
  cases found with
  | some leaf => exact .pure rfl
  | none =>
    apply (like.accept .leftParen).bind
    intro opening
    cases opening with
    | none => exact (like.complains _).bind fun _ => .pure rfl
    | some opening =>
      apply (like.nested fun inner _ => like.assignment inner).bind
      intro inner
      cases inner with
      | none => exact .pure rfl
      | some inner => exact (like.expect .rightParen _).bind fun _ => .pure rfl
termination_by room * 8

end

theorem expression (like : Likeness change Related) (room : Nat) :
    Alike Related (Option.map (Expr.map change)) (expression room) (expression room) :=
  like.nested fun inner _ => like.assignment inner

section

variable {value value' : Read (Option Expr)} {part part' : Read Stmt}

theorem initialValue (like : Likeness change Related)
    (whole : Alike Related (Option.map (Expr.map change)) value value') (name : Option Token) :
    Alike Related (Stmt.map change) (initialValue value name)
      (initialValue value' (name.map change)) := by
  apply (like.accept .equal).bind
  intro equals
  cases equals with
  | none => exact (like.expect .semicolon _).bind fun _ => .pure rfl
  | some equals =>
    apply whole.bind
    intro init
    exact (like.expect .semicolon _).bind fun _ => .pure rfl

theorem variableDeclaration (like : Likeness change Related)
    (whole : Alike Related (Option.map (Expr.map change)) value value') :
    Alike Related (Stmt.map change) (variableDeclaration value) (variableDeclaration value') :=
  (like.expect .identifier _).bind (like.initialValue whole)

theorem clause (like : Likeness change Related)
    (whole : Alike Related (Option.map (Expr.map change)) value value')
    (inner : Alike Related (Stmt.map change) part part') :
    Alike Related (Stmt.map change) (clause value part) (clause value' part') := by
  apply (like.accept .varWord).bind
  intro word
  cases word with
  | none => exact inner
  | some word => exact like.variableDeclaration whole

section

variable {Before : Cursor → Cursor → Prop} {carry : Option Token → Option Token}

/-! However the parenthesis behind the word is read on the two sides, what is behind it is
read alike. -/

theorem forStatement_of_opened (like : Likeness change Related)
    (whole : Alike Related (Option.map (Expr.map change)) value value')
    (inner : Alike Related (Stmt.map change) part part')
    (opened : Leads Before Related carry (Read.expect .leftParen .expectForHeader)
      (Read.expect .leftParen .expectForHeader)) :
    Leads Before Related (Stmt.map change) (forStatement value part) (forStatement value' part') := by
  rw [forStatement_eq, forStatement_eq]
  apply opened.bind
  intro opening
  apply (like.clause whole inner).bind
  intro init
  apply inner.bind
  intro condition
  apply inner.bind
  intro increment
  apply (like.expect .rightParen _).bind
  intro closing
  exact inner.bind fun _ => .pure rfl

theorem whileStatement_of_opened (like : Likeness change Related)
    (whole : Alike Related (Option.map (Expr.map change)) value value')
    (inner : Alike Related (Stmt.map change) part part')
    (opened : Leads Before Related carry (Read.expect .leftParen .expectWhileHeader)
      (Read.expect .leftParen .expectWhileHeader)) :
    Leads Before Related (Stmt.map change) (whileStatement value part)
      (whileStatement value' part') := by
  apply opened.bind
  intro opening
  apply whole.bind
  intro condition
  apply (like.expect .rightParen _).bind
  intro closing
  exact inner.bind fun _ => .pure rfl

theorem ifStatement_of_opened (like : Likeness change Related)
    (whole : Alike Related (Option.map (Expr.map change)) value value')
    (inner : Alike Related (Stmt.map change) part part')
    (opened : Leads Before Related carry (Read.expect .leftParen .expectIfHeader)
      (Read.expect .leftParen .expectIfHeader)) :
    Leads Before Related (Stmt.map change) (ifStatement value part) (ifStatement value' part') := by
  apply opened.bind
  intro opening
  apply whole.bind
  intro condition
  apply (like.expect .rightParen _).bind
  intro closing
  apply inner.bind
  intro yes
  apply (like.accept .elseWord).bind
  intro word
  cases word with
  | none => exact .pure rfl
  | some word => exact inner.bind fun _ => .pure rfl

end

theorem forStatement (like : Likeness change Related)
    (whole : Alike Related (Option.map (Expr.map change)) value value')
    (inner : Alike Related (Stmt.map change) part part') :
    Alike Related (Stmt.map change) (forStatement value part) (forStatement value' part') :=
  like.forStatement_of_opened whole inner (like.expect .leftParen _)

theorem whileStatement (like : Likeness change Related)
    (whole : Alike Related (Option.map (Expr.map change)) value value')
    (inner : Alike Related (Stmt.map change) part part') :
    Alike Related (Stmt.map change) (whileStatement value part) (whileStatement value' part') :=
  like.whileStatement_of_opened whole inner (like.expect .leftParen _)

theorem ifStatement (like : Likeness change Related)
    (whole : Alike Related (Option.map (Expr.map change)) value value')
    (inner : Alike Related (Stmt.map change) part part') :
    Alike Related (Stmt.map change) (ifStatement value part) (ifStatement value' part') :=
  like.ifStatement_of_opened whole inner (like.expect .leftParen _)

theorem expressionStatement (like : Likeness change Related)
    (whole : Alike Related (Option.map (Expr.map change)) value value') :
    Alike Related (Stmt.map change) (expressionStatement value) (expressionStatement value') := by
  apply whole.bind
  intro value
  exact (like.expect .semicolon _).bind fun _ => .pure rfl

theorem declaration (like : Likeness change Related) (lasting : Lasting Related)
    (whole : Alike Related (Option.map (Expr.map change)) value value')
    (inner : Alike Related (Stmt.map change) part part') :
    Alike Related (Stmt.map change) (declaration value part) (declaration value' part') := by
  have recovers : Alike Related id (modify Cursor.recover) (modify Cursor.recover) :=
    fun _ _ related => ⟨rfl, lasting.recover related⟩
  apply (like.accept .varWord).bind
  intro word
  cases word with
  | none => exact recovers.bind fun _ => inner
  | some word => exact like.variableDeclaration whole

theorem stops (like : Likeness change Related) (closes : Kind → Bool) {cursor other : Cursor}
    (related : Related cursor other) : other.stops closes = cursor.stops closes := by
  rw [Cursor.stops, Cursor.stops, like.next related, like.kind, like.unread related,
    List.isEmpty_map]

theorem progressSince (like : Likeness change Related) (lasting : Lasting Related)
    {cursor other after otherAfter : Cursor} (related : Related cursor other)
    (further : Related after otherAfter) :
    Related (after.progressSince cursor.consumed) (otherAfter.progressSince other.consumed) := by
  unfold Cursor.progressSince
  simp only [lasting.progress related further]
  split
  · exact like.advance further
  · exact further

theorem roundEnd (like : Likeness change Related) (lasting : Lasting Related)
    (each : Alike Related (Stmt.map change) part part') {cursor other : Cursor}
    (related : Related cursor other) : Related (roundEnd part cursor) (roundEnd part' other) :=
  like.progressSince lasting related (lasting.recover (each cursor other related).2)

theorem sequence (like : Likeness change Related) (lasting : Lasting Related)
    (each : Alike Related (Stmt.map change) part part') (closes : Kind → Bool)
    (done : Slots Stmt) :
    Alike Related (Slots.map (Stmt.map change)) (sequence part closes done)
      (sequence part' closes (done.map (Stmt.map change))) := by
  -- By induction on the bound, which is as long on the other side.
  have rounds (bound bound' : List Token) (long : bound'.length = bound.length)
      (done : Slots Stmt) :
      Alike Related (Slots.map (Stmt.map change)) (declarations part closes bound done)
        (declarations part' closes bound' (done.map (Stmt.map change))) := by
    induction bound generalizing bound' done with
    | nil =>
      rw [List.length_eq_zero_iff.mp long]
      exact .pure rfl
    | cons token bound ih =>
      obtain ⟨token', bound', rfl⟩ := List.exists_cons_of_length_eq_add_one long
      intro cursor other related
      rw [declarations_cons, declarations_cons, like.stops closes related]
      split
      · exact ⟨rfl, related⟩
      · rw [(each cursor other related).1, ← Slots.map_push]
        exact ih bound' (Nat.succ.inj long) _ _ _ (like.roundEnd lasting each related)
  intro cursor other related
  have long : other.unread.length = cursor.unread.length := by
    rw [like.unread related, List.length_map]
  exact rounds cursor.unread other.unread long done cursor other related

theorem block (like : Likeness change Related) (lasting : Lasting Related)
    (each : Alike Related (Stmt.map change) part part') :
    Alike Related (Stmt.map change) (block part) (block part') := by
  have body : Alike Related (Slots.map (Stmt.map change))
      (Read.sequence part (· == .rightBrace) .empty)
      (Read.sequence part' (· == .rightBrace) .empty) := by
    simpa only [Slots.map_empty] using like.sequence lasting each (· == .rightBrace) .empty
  rw [block_eq, block_eq]
  apply body.bind
  intro slots
  exact (like.expect .rightBrace _).bind fun _ => .pure (Stmt.map_block change slots).symm

end

theorem opening (like : Likeness change Related) :
    Alike Related (Option.map id) (Read.take? Opening.of?) (Read.take? Opening.of?) := by
  apply like.take?
  intro token
  unfold Opening.of?
  rw [like.kind, Option.map_id_fun, id]

theorem statement (like : Likeness change Related) (lasting : Lasting Related) (room : Nat) :
    Alike Related (Stmt.map change) (statement room) (statement room) := by
  induction room with
  | zero => exact (like.complains _).bind fun _ => .pure rfl
  | succ room inner =>
    have whole := like.expression room
    apply like.opening.bind
    intro opening
    cases opening with
    | none => exact like.expressionStatement whole
    | some opening =>
      cases opening with
      | forLoop => exact like.forStatement whole inner
      | whileLoop => exact like.whileStatement whole inner
      | branch => exact like.ifStatement whole inner
      | block => exact like.block lasting (like.declaration lasting whole inner)

theorem rule (like : Likeness change Related) (lasting : Lasting Related) (form : StmtForm)
    (room : Nat) : Alike Related (Stmt.map change) (form.rule room) (form.rule room) := by
  cases form with
  | declaration => exact like.declaration lasting (like.expression room) (like.statement lasting room)
  | statement => exact like.statement lasting room

end Likeness

/-- What every step of a reader keeps. -/
structure Invariant (Holds : Cursor → Prop) : Prop where
  advance : ∀ {cursor}, Holds cursor → Holds cursor.advance
  complain : ∀ {cursor}, Holds cursor → ∀ complaint, Holds (cursor.report cursor.next complaint)
  refuse : ∀ {cursor token rest}, Holds cursor → cursor.unread = token :: rest →
    token.kind = .equal → Holds (cursor.advance.report token .invalidTarget)
  recover : ∀ {cursor}, Holds cursor → Holds cursor.recover

namespace Invariant

variable {Holds : Cursor → Prop}

theorem likeness (keeps : Invariant Holds) :
    Likeness id (fun cursor other => other = cursor ∧ Holds cursor) where
  kind _ := rfl
  lexeme _ := rfl
  unread related := by rw [related.1, List.map_id]
  stop related := by rw [related.1]; rfl
  advance related := ⟨congrArg _ related.1, keeps.advance related.2⟩
  complain related complaint := ⟨by rw [related.1], keeps.complain related.2 complaint⟩
  refuse related ahead equal := ⟨by rw [related.1]; rfl, keeps.refuse related.2 ahead equal⟩

theorem lasting (keeps : Invariant Holds) :
    Likeness.Lasting (fun cursor other => other = cursor ∧ Holds cursor) where
  recover related := ⟨congrArg _ related.1, keeps.recover related.2⟩
  progress related further := by rw [related.1, further.1]

theorem program (keeps : Invariant Holds) (room : Nat) {cursor : Cursor} (here : Holds cursor) :
    Holds (Read.program room cursor).2 := by
  have like := keeps.likeness
  have read := like.sequence keeps.lasting (like.rule keeps.lasting .declaration room)
    (fun _ => false) .empty
  exact (read cursor cursor ⟨rfl, here⟩).2.2

end Invariant

end ScriptTree
