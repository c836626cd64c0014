import ScriptTree.Proofs.ExpressionReading
import ScriptTree.Proofs.Sequence

/-! The readers of statements against the grammar, as for expressions. Of the
trees that the grammar allows a reader answers the one in which every `else`
belongs to the nearest `if`, and it accepts a statement that could take an `else`
only where none follows. -/
namespace ScriptTree

namespace Read

variable {value : Read (Option Expr)} {part : Read Stmt}

def clause (expression : Read (Option Expr)) (statement : Read Stmt) : Read Stmt := do
  match ← accept .varWord with
  | some _ => variableDeclaration expression
  | none => statement

theorem forStatement_eq (value : Read (Option Expr)) (part : Read Stmt) :
    forStatement value part = (do
      let _ ← expect .leftParen .expectForHeader
      let init ← clause value part
      let condition ← part
      let increment ← part
      let _ ← expect .rightParen .expectEndOfForHeader
      let body ← part
      return .forLoop init condition increment body) := by
  unfold forStatement
  congr
  funext opening cursor
  simp only [bind_apply, clause]
  cases (accept .varWord cursor).1 <;> rfl

theorem declaration_of_calm {cursor : Cursor} (calm : cursor.panicking = false) :
    declaration value part cursor = clause value part cursor := by
  have taken : ((accept .varWord cursor).1 = none → (accept .varWord cursor).2 = cursor) := by
    unfold accept take?
    split
    · simp
    · split <;> simp
  unfold declaration clause
  simp only [bind_apply]
  cases word : (accept .varWord cursor).1 with
  | some word => rfl
  | none =>
    rw [taken word]
    change part cursor.recover = part cursor
    rw [Cursor.recover_of_calm calm]

theorem declaration_of_other {cursor : Cursor} (calm : cursor.panicking = false)
    (other : ∀ token ∈ cursor.unread.head?, token.kind ≠ .varWord) :
    declaration value part cursor = part cursor := by
  have missed : accept .varWord cursor = (none, cursor) :=
    take?_of_miss fun token ahead => if_neg (other token ahead)
  rw [declaration_of_calm calm, clause, bind_apply, missed]

def initialValue (expression : Read (Option Expr)) (name : Option Token) : Read Stmt := do
  match ← accept .equal with
  | some _ =>
    let value ← expression
    let _ ← expect .semicolon .expectEndOfDeclaration
    return .declare name (some (.expr value))
  | none =>
    let _ ← expect .semicolon .expectEndOfDeclaration
    return .declare name none

theorem variableDeclaration_eq (value : Read (Option Expr)) :
    variableDeclaration value =
      expect .identifier .expectVariableName >>= initialValue value := rfl

theorem onward_initialValue (whole : Onward value) (name : Option Token) :
    Onward (initialValue value name) := by
  apply (Onward.take? _).bind
  intro equals
  cases equals with
  | none => exact (Onward.expect _ _).bind fun _ => .pure _
  | some equals => exact whole.bind fun _ => (Onward.expect _ _).bind fun _ => .pure _

theorem onward_variableDeclaration (whole : Onward value) :
    Onward (variableDeclaration value) :=
  (Onward.expect _ _).bind (onward_initialValue whole)

theorem onward_clause (whole : Onward value) (inner : Onward part) : Onward (clause value part) := by
  apply (Onward.take? _).bind
  intro word
  cases word with
  | none => exact inner
  | some word => exact onward_variableDeclaration whole

theorem onward_declaration (whole : Onward value) (inner : Onward part) :
    Onward (declaration value part) := by
  apply (Onward.take? _).bind
  intro word
  cases word with
  | none => exact (Onward.modify Cursor.onward_recover).bind fun _ => inner
  | some word => exact onward_variableDeclaration whole

theorem onward_block (inner : Onward part) : Onward (block part) := by
  rw [block_eq]
  exact (Onward.sequence inner _).bind fun _ => (Onward.expect _ _).bind fun _ => .pure _

theorem onward_forStatement (whole : Onward value) (inner : Onward part) :
    Onward (forStatement value part) := by
  rw [forStatement_eq]
  exact (Onward.expect _ _).bind fun _ => (onward_clause whole inner).bind fun _ =>
    inner.bind fun _ => inner.bind fun _ => (Onward.expect _ _).bind fun _ =>
      inner.bind fun _ => .pure _

theorem onward_whileStatement (whole : Onward value) (inner : Onward part) :
    Onward (whileStatement value part) :=
  (Onward.expect _ _).bind fun _ => whole.bind fun _ => (Onward.expect _ _).bind fun _ =>
    inner.bind fun _ => .pure _

def elseBranch (statement : Read Stmt) (condition : Option Expr) (yes : Stmt) : Read Stmt := do
  match ← accept .elseWord with
  | some _ =>
    let no ← statement
    return .branch condition yes (some no)
  | none => return .branch condition yes none

theorem ifStatement_eq (value : Read (Option Expr)) (part : Read Stmt) :
    ifStatement value part = (do
      let _ ← expect .leftParen .expectIfHeader
      let condition ← value
      let _ ← expect .rightParen .expectEndOfIfHeader
      let yes ← part
      elseBranch part condition yes) := rfl

theorem onward_elseBranch (inner : Onward part) (condition : Option Expr) (yes : Stmt) :
    Onward (elseBranch part condition yes) := by
  apply (Onward.take? _).bind
  intro word
  cases word with
  | none => exact .pure _
  | some word => exact inner.bind fun _ => .pure _

theorem onward_ifStatement (whole : Onward value) (inner : Onward part) :
    Onward (ifStatement value part) := by
  rw [ifStatement_eq]
  exact (Onward.expect _ _).bind fun _ => whole.bind fun _ => (Onward.expect _ _).bind fun _ =>
    inner.bind fun _ => onward_elseBranch inner _ _

theorem onward_expressionStatement (whole : Onward value) : Onward (expressionStatement value) :=
  whole.bind fun _ => (Onward.expect _ _).bind fun _ => .pure _

theorem onward_statementWith (whole : Onward value) (inner : Onward part) :
    Onward (statementWith value part) := by
  apply (Onward.take? _).bind
  intro opening
  cases opening with
  | none => exact onward_expressionStatement whole
  | some opening =>
    cases opening with
    | forLoop => exact onward_forStatement whole inner
    | whileLoop => exact onward_whileStatement whole inner
    | branch => exact onward_ifStatement whole inner
    | block => exact onward_block (onward_declaration whole inner)

theorem onward_statement (room : Nat) : Onward (statement room) := by
  induction room with
  | zero => exact (Onward.complain _).bind fun _ => .pure _
  | succ room ih => exact onward_statementWith (onward_expression room) ih

end Read

open Read

namespace StmtForm

def rule (form : StmtForm) (room : Nat) : Read Stmt :=
  match form with
  | declaration => Read.declaration (expression room) (Read.statement room)
  | statement => Read.statement room

def starts : StmtForm → List Kind
  | declaration => .varWord :: .forWord :: .whileWord :: .ifWord :: .leftBrace :: expressionStarts
  | statement => .forWord :: .whileWord :: .ifWord :: .leftBrace :: expressionStarts

theorem onward_rule (form : StmtForm) (room : Nat) : Onward (form.rule room) := by
  cases form with
  | declaration => exact onward_declaration (onward_expression room) (onward_statement room)
  | statement => exact onward_statement room

end StmtForm

theorem Read.onward_program (room : Nat) : Onward (program room) :=
  .sequence (StmtForm.onward_rule .declaration room) .empty

theorem StmtPhrase.head {form : StmtForm} {tokens : List Token} {stmt : Stmt}
    (phrase : StmtPhrase form tokens stmt) :
    ∃ token rest, tokens = token :: rest ∧ token.kind ∈ form.starts := by
  induction phrase with
  | declare word | declareAs word => exact ⟨_, _, rfl, by simp [word, StmtForm.starts]⟩
  | plain _ ih =>
    obtain ⟨token, rest, split, kind⟩ := ih
    exact ⟨token, rest, split, List.mem_cons_of_mem _ kind⟩
  | expr phrase =>
    obtain ⟨token, rest, rfl, kind⟩ := phrase.head
    exact ⟨token, _, rfl, by simp [StmtForm.starts, kind]⟩
  | forLoop word | whileLoop word | ifThen word | ifElse word | block word =>
    exact ⟨_, _, rfl, by simp [word, StmtForm.starts]⟩

namespace Read.Opening

def kind : Opening → Kind
  | forLoop => .forWord
  | whileLoop => .whileWord
  | branch => .ifWord
  | block => .leftBrace

theorem of?_eq_some {token : Token} (opening : Opening) :
    of? token = some opening ↔ token.kind = opening.kind := by
  unfold of?
  split <;> cases opening <;> simp_all [kind]

theorem of?_of_expression {token : Token} (starts : token.kind ∈ expressionStarts) :
    of? token = none := by
  cases found : of? token with
  | none => rfl
  | some opening =>
    rw [(of?_eq_some opening).mp found] at starts
    cases opening <;> revert starts <;> decide

end Read.Opening

/-- An `else` may follow a statement unless the statement could take it. -/
def Stmt.EndsBefore (stmt : Stmt) (look : Option Token) : Prop :=
  stmt.takesElse = true → ∀ token ∈ look, token.kind ≠ .elseWord

section

variable {room : Nat} {tokens : List Token} {look : Option Token}

theorem StmtPhrase.ends {form : StmtForm} {stmt : Stmt} (phrase : StmtPhrase form tokens stmt)
    (before : Stmt) : before.EndsBefore (tokens.head?.or look) := by
  obtain ⟨token, rest, rfl, kind⟩ := phrase.head
  intro _ other found
  cases found
  have apart : ∀ kind ∈ form.starts, kind ≠ .elseWord := by cases form <;> decide
  exact apart _ kind

theorem Stmt.endsBefore_of_kind (stmt : Stmt) {token : Token} {kind : Kind} (here : token.kind = kind)
    (apart : kind ≠ .elseWord) : stmt.EndsBefore (some token) := by
  intro _ other found
  cases found
  rw [here]
  exact apart

theorem semicolon_ends {close : Token} (closed : close.kind = .semicolon) :
    ExprForm.assignment.EndsBefore (some close) := by
  intro token found
  cases found
  rw [closed]
  decide

theorem rightParen_ends {closing : Token} (closed : closing.kind = .rightParen) :
    ExprForm.assignment.EndsBefore (some closing) := by
  intro token found
  cases found
  rw [closed]
  decide

theorem accepts_declare {value : Read (Option Expr)} {name close : Token}
    (named : name.kind = .identifier) (closed : close.kind = .semicolon) :
    (variableDeclaration value).Accepts [name, close] (.declare (some name) none) look := by
  apply Accepts.bind (s := [name]) (.expect named)
  refine Accepts.bind (s := []) (.accept_miss ?_) (.last (.expect closed) .pure)
  intro token found
  cases found
  simp [closed]

theorem accepts_declareAs {name equals close : Token} {value : Expr}
    (named : name.kind = .identifier) (equal : equals.kind = .equal)
    (phrase : ExprPhrase .assignment tokens value) (closed : close.kind = .semicolon)
    (enough : wholeCost (some value) ≤ room) :
    (variableDeclaration (expression room)).Accepts (name :: equals :: (tokens ++ [close]))
      (.declare (some name) (some (.expr (some value)))) look := by
  apply Accepts.bind (s := [name]) (.expect named)
  refine Accepts.bind (s := [equals]) (.accept equal) ?_
  exact .bind (phrase.accepts_expression enough (semicolon_ends closed))
    (.last (.expect closed) .pure)

theorem sequence_passes {closes : Kind → Bool} {parts : List (List Token × Stmt)}
    (phrases : ∀ part ∈ parts, StmtPhrase .declaration part.1 part.2)
    (each : ∀ part ∈ parts, ∀ look, part.2.EndsBefore look →
      (StmtForm.declaration.rule room).Accepts part.1 part.2 look)
    (open' : ∀ kind ∈ StmtForm.declaration.starts, closes kind = false)
    (done : Slots Stmt) {cursor : Cursor} {rest : List Token} (calm : cursor.panicking = false)
    (unread : cursor.unread = parts.flatMap Prod.fst ++ rest)
    (next : ∀ token ∈ rest.head?, token.kind ≠ .elseWord) :
    sequence (StmtForm.declaration.rule room) closes done cursor =
      sequence (StmtForm.declaration.rule room) closes ((parts.map Prod.snd).foldl Slots.push done)
        (cursor.past (parts.flatMap Prod.fst) rest) := by
  induction parts generalizing done cursor with
  | nil =>
    rw [List.flatMap_nil, List.nil_append] at unread
    subst rest
    rfl
  | cons part parts ih =>
    obtain ⟨phrase, phrases⟩ := List.forall_mem_cons.mp phrases
    obtain ⟨first, each⟩ := List.forall_mem_cons.mp each
    obtain ⟨token, tail, split, kind⟩ := phrase.head
    have follows : part.2.EndsBefore (parts.flatMap Prod.fst ++ rest).head? := by
      rw [List.head?_append]
      cases parts with
      | nil => exact fun _ token found => next token (by simpa using found)
      | cons part' parts =>
        simpa [Option.or_assoc] using (phrases part' List.mem_cons_self).ends part.2
    have opens : ∀ other ∈ part.1.head?, closes other.kind = false := by
      intro other found
      obtain rfl : token = other := by simpa [split] using found
      exact open' _ kind
    rw [List.flatMap_cons, List.append_assoc] at unread
    have further := @ih phrases each (done.push part.2)
      (cursor.past part.1 (parts.flatMap Prod.fst ++ rest)) calm rfl
    rw [sequence_of_accepts (StmtForm.onward_rule _ _) (by simp [split]) opens (first _ follows)
      calm unread rfl, further, Cursor.past_past]
    rfl

theorem accepts_sequence {closes : Kind → Bool} {parts : List (List Token × Stmt)}
    (phrases : ∀ part ∈ parts, StmtPhrase .declaration part.1 part.2)
    (each : ∀ part ∈ parts, ∀ look, part.2.EndsBefore look →
      (StmtForm.declaration.rule room).Accepts part.1 part.2 look)
    (open' : ∀ kind ∈ StmtForm.declaration.starts, closes kind = false)
    (closed : ∀ token ∈ look, closes token.kind = true ∧ token.kind ≠ .elseWord)
    (done : Slots Stmt) :
    (sequence (StmtForm.declaration.rule room) closes done).Accepts (parts.flatMap Prod.fst)
      ((parts.map Prod.snd).foldl Slots.push done) look := by
  rintro cursor rest calm unread rfl
  rw [sequence_passes phrases each open' done calm unread fun token found => (closed token found).2]
  exact Accepts.sequence_stop (fun token found => (closed token found).1) _ rest calm rfl rfl

theorem accepts_expressionStatement {value : Expr} {close : Token}
    (phrase : ExprPhrase .assignment tokens value) (enough : wholeCost (some value) ≤ room)
    (closed : close.kind = .semicolon) :
    (expressionStatement (expression room)).Accepts (tokens ++ [close]) (.expr (some value)) look :=
  .bind (phrase.accepts_expression enough (semicolon_ends closed)) (.last (.expect closed) .pure)

theorem accepts_condition {α : Type} {opening closing : Token} {rest : List Token}
    {condition : Expr} {ask answer : Complaint} {next : Option Expr → Read α} {result : α}
    (opened : opening.kind = .leftParen) (phrase : ExprPhrase .assignment tokens condition)
    (enough : wholeCost (some condition) ≤ room) (closed : closing.kind = .rightParen)
    (accepted : (next (some condition)).Accepts rest result look) :
    (do
      let _ ← expect .leftParen ask
      let condition ← expression room
      let _ ← expect .rightParen answer
      next condition : Read α).Accepts (opening :: (tokens ++ closing :: rest)) result look := by
  apply Accepts.bind (s := [opening]) (.expect opened)
  refine Accepts.bind (phrase.accepts_expression enough (rightParen_ends closed)) ?_
  exact Accepts.bind (s := [closing]) (.expect closed) accepted

theorem accepts_opened {word : Token} {opening : Opening} {stmt : Stmt}
    (opened : Opening.of? word = some opening)
    (accepted : (match opening with
      | .forLoop => forStatement (expression room) (statement room)
      | .whileLoop => whileStatement (expression room) (statement room)
      | .branch => ifStatement (expression room) (statement room)
      | .block => block (declaration (expression room) (statement room))).Accepts tokens stmt look) :
    (statement (room + 1)).Accepts (word :: tokens) stmt look := by
  unfold statement statementWith
  apply Accepts.bind (s := [word]) (.take? opened)
  cases opening <;> exact accepted

/-- Of the statements that the tokens spell, the one in which every `else`
belongs to the nearest `if` is read. -/
theorem StmtPhrase.reads {form : StmtForm} {stmt : Stmt} (phrase : StmtPhrase form tokens stmt)
    (nearest : stmt.nearestElse = true) (enough : stmt.cost ≤ room) (ends : stmt.EndsBefore look) :
    (form.rule room).Accepts tokens stmt look := by
  induction phrase generalizing room look with
  | @declare word name close var named closed =>
    exact Accepts.bind (s := [word]) (.accept var) (accepts_declare named closed)
  | @declareAs word name equals close tokens value var named equal phrase closed =>
    apply Accepts.bind (s := [word]) (.accept var)
    exact accepts_declareAs named equal phrase closed enough
  | @plain tokens stmt phrase ih =>
    obtain ⟨token, rest, rfl, kind⟩ := phrase.head
    have apart : ∀ kind ∈ StmtForm.statement.starts, kind ≠ .varWord := by decide
    refine Accepts.congr ?_ fun cursor => declaration_of_calm
    refine Accepts.bind (s := []) (.accept_miss ?_) (ih nearest enough ends)
    intro token found
    cases found
    exact apart _ kind
  | @expr close tokens value phrase closed =>
    simp only [Stmt.cost] at enough
    obtain ⟨room, rfl⟩ : ∃ inner, room = inner + 1 := ⟨room - 1, by omega⟩
    obtain ⟨token, rest, rfl, kind⟩ := phrase.head
    simp only [StmtForm.rule]
    unfold statement statementWith
    refine Accepts.bind (s := []) (.take?_miss ?_) ?_
    · intro token found
      cases found
      exact Opening.of?_of_expression kind
    · exact accepts_expressionStatement phrase (by omega) closed
  | @forLoop word opening closing inits conditions increments bodies init condition increment body
      forWord opened _ second third closed _ ihInit ihCondition ihIncrement ihBody =>
    simp only [Stmt.nearestElse, Bool.and_eq_true] at nearest
    obtain ⟨⟨⟨nearest₁, nearest₂⟩, nearest₃⟩, nearest₄⟩ := nearest
    simp only [Stmt.cost] at enough
    obtain ⟨room, rfl⟩ : ∃ inner, room = inner + 1 := ⟨room - 1, by omega⟩
    refine accepts_opened ((Opening.of?_eq_some .forLoop).mpr forWord) ?_
    rw [forStatement_eq]
    apply Accepts.bind (s := [opening]) (.expect opened)
    refine Accepts.bind (.congr (ihInit nearest₁ (by omega) ?_) fun _ calm =>
      (declaration_of_calm calm).symm) ?_
    · rw [List.head?_append, Option.or_assoc]
      exact second.ends init
    refine Accepts.bind (ihCondition nearest₂ (by omega) ?_) ?_
    · rw [List.head?_append, Option.or_assoc]
      exact third.ends condition
    refine Accepts.bind (ihIncrement nearest₃ (by omega) ?_) ?_
    · exact increment.endsBefore_of_kind closed (by decide)
    apply Accepts.bind (s := [closing]) (.expect closed)
    exact .last (ihBody nearest₄ (by omega) ends) .pure
  | @whileLoop word opening closing conditions bodies condition body whileWord opened phrase closed
      _ ihBody =>
    simp only [Stmt.cost] at enough
    obtain ⟨room, rfl⟩ : ∃ inner, room = inner + 1 := ⟨room - 1, by omega⟩
    refine accepts_opened ((Opening.of?_eq_some .whileLoop).mpr whileWord) ?_
    apply accepts_condition opened phrase (by omega) closed
    exact .last (ihBody nearest (by omega) ends) .pure
  | @ifThen word opening closing conditions yeses condition yes ifWord opened phrase closed _ ih =>
    simp only [Stmt.cost] at enough
    obtain ⟨room, rfl⟩ : ∃ inner, room = inner + 1 := ⟨room - 1, by omega⟩
    refine accepts_opened ((Opening.of?_eq_some .branch).mpr ifWord) ?_
    apply accepts_condition opened phrase (by omega) closed
    exact .last (ih nearest (by omega) fun _ => ends rfl) (.last (.accept_miss (ends rfl)) .pure)
  | @ifElse word opening closing otherwise conditions yeses noes condition yes no ifWord opened phrase
      closed _ elseWord _ ihYes ihNo =>
    simp only [Stmt.nearestElse, Bool.and_eq_true, Bool.not_eq_true'] at nearest
    obtain ⟨⟨takes, nearestYes⟩, nearestNo⟩ := nearest
    simp only [Stmt.cost] at enough
    obtain ⟨room, rfl⟩ : ∃ inner, room = inner + 1 := ⟨room - 1, by omega⟩
    refine accepts_opened ((Opening.of?_eq_some .branch).mpr ifWord) ?_
    apply accepts_condition opened phrase (by omega) closed
    apply Accepts.bind (ihYes nearestYes (by omega) fun took => by simp [takes] at took)
    apply Accepts.bind (s := [otherwise]) (.accept elseWord)
    exact .last (ihNo nearestNo (by omega) ends) .pure
  | @block opening closing parts opened phrases closed ih =>
    rw [Stmt.nearestElse_block, Slots.toList_ofList, Stmt.allNearestElse_iff] at nearest
    simp only [Stmt.cost_block, Slots.toList_ofList] at enough
    obtain ⟨room, rfl⟩ : ∃ inner, room = inner + 1 := ⟨room - 1, by omega⟩
    have deepest : Stmt.greatestCost (parts.map Prod.snd) ≤ room := by omega
    have costs := Stmt.greatestCost_le_iff.mp deepest
    refine accepts_opened ((Opening.of?_eq_some .block).mpr opened) ?_
    rw [block_eq]
    refine Accepts.bind ?_ (.last (.expect closed) .pure)
    refine accepts_sequence phrases ?_ (by decide) ?_ .empty
    · intro part member look ends
      have mapped := List.mem_map_of_mem (f := Prod.snd) member
      exact ih part member (nearest _ mapped) (costs _ mapped) ends
    · intro token found
      cases found
      simp [closed]

end

section

variable {room : Nat} {tokens : List Token} {stmts : List Stmt}

/-- A script in front of other tokens is read as its statements, unless these could
go on with an `else`. -/
theorem Script.passes (script : Script tokens stmts) (nearest : Stmt.allNearestElse stmts = true)
    (enough : Stmt.greatestCost stmts ≤ room) (done : Slots Stmt) {cursor : Cursor}
    {rest : List Token} (calm : cursor.panicking = false) (unread : cursor.unread = tokens ++ rest)
    (next : ∀ token ∈ rest.head?, token.kind ≠ .elseWord) :
    sequence (StmtForm.declaration.rule room) (fun _ => false) done cursor =
      sequence (StmtForm.declaration.rule room) (fun _ => false) (stmts.foldl Slots.push done)
        (cursor.past tokens rest) := by
  obtain ⟨parts, phrases, rfl, rfl⟩ := script
  rw [Stmt.allNearestElse_iff] at nearest
  rw [Stmt.greatestCost_le_iff] at enough
  refine sequence_passes phrases ?_ (fun _ _ => rfl) done calm unread next
  intro part member look ends
  have mapped := List.mem_map_of_mem (f := Prod.snd) member
  exact (phrases part member).reads (nearest _ mapped) (enough _ mapped) ends

theorem Script.accepts (script : Script tokens stmts) (nearest : Stmt.allNearestElse stmts = true)
    (enough : Stmt.greatestCost stmts ≤ room) (done : Slots Stmt) :
    (sequence (StmtForm.declaration.rule room) (fun _ => false) done).Accepts tokens
      (stmts.foldl Slots.push done) none := by
  intro cursor rest calm unread ended
  rw [script.passes nearest enough done calm unread (by simp [ended])]
  exact @Accepts.sequence_stop _ _ _ none (by simp) _ rest calm rfl ended

theorem Script.reads (script : Script tokens stmts) (nearest : Stmt.allNearestElse stmts = true)
    (enough : Stmt.greatestCost stmts ≤ room) :
    (program room).Accepts tokens (.ofList stmts) none :=
  script.accepts nearest enough .empty

end

end ScriptTree
