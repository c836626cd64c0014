import ScriptTree.Proofs.Semicolon
import ScriptTree.Proofs.TokenMap
import ScriptTree.Proofs.Validity
import ScriptTree.Proofs.Weight

/-! What becomes of the statements behind a malformed one. Where the malformed
statement ends in a semicolon, reading resumes behind it, with one exception: a
reader that panics in front of the semicolon takes it for the end of the
statement and then skips to another boundary, and what it skips is lost. -/
namespace ScriptTree

/-- The kinds that end a statement or belong to one that is more than an
expression. -/
def statementKinds : List Kind :=
  [.semicolon, .leftBrace, .rightBrace, .classWord, .elseWord, .forWord, .funWord, .ifWord,
    .returnWord, .varWord, .whileWord]

/-- The tokens hold no statement boundary, and a line break ends the last one. -/
structure Plain (tokens : List Token) : Prop where
  kinds : ∀ token ∈ tokens, token.kind ∉ statementKinds
  terminated : Terminated tokens

namespace Cursor

def Skips (token : Token) : Prop :=
  token.kind ≠ .semicolon ∧ opensStatement token.kind = false

theorem skips_of_not_mem {token : Token} (apart : token.kind ∉ statementKinds) : Skips token := by
  constructor
  · intro closed
    rw [closed] at apart
    exact apart (by decide)
  · revert apart
    cases token.kind <;> decide

theorem skipStatement_semicolon {front : List Token} {close : Token} (skipped : Nat)
    (rest : List Token) (skips : ∀ token ∈ front, Skips token) (closed : close.kind = .semicolon) :
    (skipStatement skipped (front ++ close :: rest)).1 = rest := by
  induction front generalizing skipped with
  | nil => rw [List.nil_append, skipStatement, if_pos closed]
  | cons token front ih =>
    obtain ⟨⟨apart, opens⟩, further⟩ := List.forall_mem_cons.mp skips
    rw [List.cons_append, skipStatement, if_neg apart, opens, if_neg (by decide), ih _ further]

theorem skipStatement_opens {unread : List Token} (skipped : Nat)
    (opens : ∀ token ∈ unread.head?, opensStatement token.kind = true) :
    (skipStatement skipped unread).1 = unread := by
  cases unread with
  | nil => rfl
  | cons token rest =>
    have opens := opens token rfl
    have apart : token.kind ≠ .semicolon := by
      intro closed
      rw [closed] at opens
      contradiction
    rw [skipStatement, if_neg apart, if_pos opens]

theorem weightOf_skipStatement_le (skipped : Nat) (unread : List Token) :
    weightOf (skipStatement skipped unread).1 ≤ weightOf unread := by
  obtain ⟨tokens, split, -⟩ := skipStatement_append skipped unread
  have whole := congrArg weightOf split
  rw [weightOf_append] at whole
  omega

theorem report_panicking (cursor : Cursor) (token : Token) (complaint : Complaint) :
    (cursor.report token complaint).panicking = true := by
  unfold report
  split
  next panics => exact panics
  next => rfl

theorem recover_unread {cursor : Cursor} (panics : cursor.panicking = true) :
    cursor.recover.unread = (skipStatement 0 cursor.unread).1 := by
  rw [recover, if_pos panics]
  rfl

theorem progressSince_of_shorter {before after : Cursor} (onward : before.Onward after)
    (shorter : after.unread.length < before.unread.length) :
    after.progressSince before.consumed = after := by
  obtain ⟨tokens, split, counted⟩ := onward.passed
  have whole := congrArg List.length split
  rw [List.length_append] at whole
  rw [progressSince, if_neg (by omega)]

end Cursor

theorem ExprPhrase.skips {form : ExprForm} {tokens : List Token} {expr : Expr}
    (phrase : ExprPhrase form tokens expr) (listed : form.Listed) :
    ∀ token ∈ tokens, Cursor.Skips token := by
  have apart : ∀ kind ∈ expressionKinds, kind ∉ statementKinds := by decide
  intro token found
  exact Cursor.skips_of_not_mem (apart _ (phrase.kind_mem listed token found))

theorem Expr.weight_pos (expr : Expr) : 0 < expr.weight := by
  induction expr with
  | binary operator left right ihLeft ihRight => exact Nat.add_pos_left ihLeft _
  | unary operator right ih => exact ih
  | grouping inner ih => exact ih
  | assign target value ih => exact Nat.add_pos_left Nat.one_pos _
  | literal | name => exact Nat.one_pos

/-- What is skipped at the start of a statement weighs something, unless the
statement opens with a word that stops the skipping. -/
theorem StmtPhrase.skipped_lt {form : StmtForm} {tokens : List Token} {stmt : Stmt}
    (phrase : StmtPhrase form tokens stmt)
    (opens : ∀ token ∈ tokens.head?, Cursor.opensStatement token.kind = false) (rest : List Token) :
    weightOf (Cursor.skipStatement 0 (tokens ++ rest)).1 < weightOf (tokens ++ rest) := by
  have front (word : Token) (more : List Token) (heavy : word.kind.weight = 1)
      (skips : Cursor.Skips word) :
      weightOf (Cursor.skipStatement 0 (word :: more)).1 < weightOf (word :: more) := by
    obtain ⟨apart, passes⟩ := skips
    have less := Cursor.weightOf_skipStatement_le (0 + 1) more
    rw [Cursor.skipStatement, if_neg apart, passes, if_neg (by decide), weightOf_cons]
    omega
  induction phrase with
  | declare word | declareAs word | whileLoop word | ifThen word | ifElse word =>
    have opens := opens _ rfl
    rw [word] at opens
    contradiction
  | plain _ ih => exact ih opens
  | @expr close tokens value phrase closed =>
    have heavy := phrase.weight_eq trivial
    have positive := value.weight_pos
    rw [List.append_assoc, List.singleton_append,
      Cursor.skipStatement_semicolon 0 rest (phrase.skips trivial) closed, weightOf_append,
      weightOf_cons]
    omega
  | forLoop word =>
    exact front _ _ (by rw [word]; rfl) ⟨by rw [word]; decide, by rw [word]; rfl⟩
  | block opened =>
    exact front _ _ (by rw [opened]; rfl) ⟨by rw [opened]; decide, by rw [opened]; rfl⟩

theorem Script.skipped_lt {tokens : List Token} {stmts : List Stmt} (script : Script tokens stmts)
    (opens : ∃ token ∈ tokens.head?, Cursor.opensStatement token.kind = false) :
    weightOf (Cursor.skipStatement 0 tokens).1 < Stmt.weightAll stmts := by
  rw [script.weight_eq]
  obtain ⟨parts, phrases, rfl, rfl⟩ := script
  cases parts with
  | nil =>
    obtain ⟨token, found, -⟩ := opens
    cases found
  | cons part parts =>
    have phrase := phrases part List.mem_cons_self
    obtain ⟨first, more, split, -⟩ := phrase.head
    rw [List.flatMap_cons] at opens ⊢
    refine phrase.skipped_lt ?_ _
    rw [split] at opens ⊢
    obtain ⟨token, ⟨⟩, opens⟩ := opens
    intro token found
    cases found
    exact opens

/-- The reader of expressions panics where the tokens end. -/
def BreaksOff (depth : Nat) (tokens : Tokens) : Prop :=
  ∃ room, depth = room + 1 ∧ (Read.expression room (.start tokens)).2.panicking = true ∧
    (Read.expression room (.start tokens)).2.unread = []

namespace Read

theorem expect_hit {kind : Kind} {complaint : Complaint} {cursor : Cursor} {token : Token}
    {rest : List Token} (unread : cursor.unread = token :: rest) (hit : token.kind = kind) :
    (expect kind complaint cursor).2 = cursor.advance := by
  simp only [expect, accept, bind_apply, take?, unread, if_pos hit]
  rfl

theorem expect_miss {kind : Kind} {complaint : Complaint} {cursor : Cursor} {token : Token}
    {rest : List Token} (unread : cursor.unread = token :: rest) (miss : token.kind ≠ kind) :
    (expect kind complaint cursor).2 = cursor.report token complaint := by
  have next : cursor.next = token := by rw [Cursor.next, unread]; rfl
  simp only [expect, accept, bind_apply, take?, unread, if_neg miss]
  rw [← next]
  rfl

theorem opening_of_plain {token : Token}
    (plain : token.kind = .semicolon ∨ token.kind ∉ statementKinds) : Opening.of? token = none := by
  cases found : Opening.of? token with
  | none => rfl
  | some opening =>
    rw [(Opening.of?_eq_some opening).mp found] at plain
    cases opening <;> revert plain <;> decide

section

variable {tokens : Tokens} {left rest : List Token} {close : Token} {cursor : Cursor}

/-- A semicolon that is expected here or further on is where reading recovers,
unless it is consumed in a panic: the next boundary is looked for behind it. -/
theorem semicolon_recovers (complaint : Complaint) (unread : cursor.unread = left ++ close :: rest)
    (plain : ∀ token ∈ left, token.kind ∉ statementKinds) (closed : close.kind = .semicolon) :
    (expect .semicolon complaint cursor).2.recover.unread =
      if cursor.panicking = true ∧ left = [] then (Cursor.skipStatement 0 rest).1 else rest := by
  cases left with
  | nil =>
    rw [List.nil_append] at unread
    rw [expect_hit unread closed]
    have passed : cursor.advance = cursor.past [close] rest := by rw [Cursor.advance, unread]; rfl
    have alike : cursor.advance.panicking = cursor.panicking := by rw [passed]; rfl
    cases panics : cursor.panicking with
    | true => rw [Cursor.recover_unread (alike.trans panics), passed, if_pos ⟨rfl, rfl⟩]; rfl
    | false => rw [Cursor.recover_of_calm (alike.trans panics), passed, if_neg (by simp)]; rfl
  | cons token more =>
    have apart := (Cursor.skips_of_not_mem (plain token List.mem_cons_self)).1
    rw [List.cons_append] at unread
    rw [expect_miss unread apart, Cursor.recover_unread (Cursor.report_panicking ..),
      Cursor.report_unread, unread, ← List.cons_append, if_neg (by simp)]
    exact Cursor.skipStatement_semicolon 0 rest
      (fun token found => Cursor.skips_of_not_mem (plain token found)) closed

theorem head_of_extends (same : Cursor.Extends (close :: rest) cursor (.start tokens))
    (plain : ∀ token ∈ tokens.body, token.kind ∉ statementKinds) (closed : close.kind = .semicolon) :
    ∀ token ∈ cursor.unread.head?, token.kind = .semicolon ∨ token.kind ∉ statementKinds := by
  rw [same.unread]
  change ∀ token ∈ (tokens.body ++ close :: rest).head?, _
  cases body : tokens.body with
  | nil =>
    intro token found
    cases found
    exact .inl closed
  | cons first more =>
    intro token found
    cases found
    exact .inr (plain first (body ▸ List.mem_cons_self))

theorem statement_of_plain (same : Cursor.Extends (close :: rest) cursor (.start tokens))
    (plain : ∀ token ∈ tokens.body, token.kind ∉ statementKinds) (closed : close.kind = .semicolon)
    (room : Nat) :
    statement (room + 1) cursor = expressionStatement (expression room) cursor := by
  have missed : take? Opening.of? cursor = (none, cursor) := by
    apply take?_of_miss
    intro token found
    exact opening_of_plain (head_of_extends same plain closed token found)
  rw [statement, statementWith, bind_apply, missed]

theorem declaration_of_plain (same : Cursor.Extends (close :: rest) cursor (.start tokens))
    (plain : ∀ token ∈ tokens.body, token.kind ∉ statementKinds) (closed : close.kind = .semicolon)
    (depth : Nat) : StmtForm.declaration.rule depth cursor = statement depth cursor := by
  apply declaration_of_other same.panicking
  intro token found word
  have known := head_of_extends same plain closed token found
  rw [word] at known
  revert known
  decide

theorem statement_recovers (depth : Nat)
    (same : Cursor.Extends (close :: rest) cursor (.start tokens))
    (plain : ∀ token ∈ tokens.body, token.kind ∉ statementKinds) (closed : close.kind = .semicolon) :
    (BreaksOff depth tokens →
      (statement depth cursor).2.recover.unread = (Cursor.skipStatement 0 rest).1) ∧
    (¬ BreaksOff depth tokens → (statement depth cursor).2.recover.unread = rest) := by
  cases depth with
  | zero =>
    have behind : (statement 0 cursor).2.recover.unread = rest := by
      change (cursor.report cursor.next .tooMuchNesting).recover.unread = rest
      rw [Cursor.recover_unread (Cursor.report_panicking ..), Cursor.report_unread, same.unread]
      exact Cursor.skipStatement_semicolon 0 rest
        (fun token found => Cursor.skips_of_not_mem (plain token found)) closed
    refine ⟨?_, fun _ => behind⟩
    rintro ⟨room, level, -⟩
    omega
  | succ room =>
    have semicolon : ∀ token ∈ (close :: rest).head?, token.kind = .semicolon := by
      intro token found
      cases found
      exact closed
    obtain ⟨-, split, alike⟩ := stops_expression room _ _ _ semicolon same
    obtain ⟨passed, whole, -⟩ := (onward_expression room (.start tokens)).passed
    have inside : ∀ token ∈ (expression room (.start tokens)).2.unread,
        token.kind ∉ statementKinds := by
      intro token found
      apply plain token
      change token ∈ (Cursor.start tokens).unread
      rw [whole]
      exact List.mem_append_right _ found
    have recovered := semicolon_recovers .expectEndOfExpression split inside closed
    rw [statement_of_plain same plain closed]
    constructor
    · rintro ⟨room', level, panics, none⟩
      obtain rfl := Nat.succ.inj level
      rw [if_pos ⟨alike.trans panics, none⟩] at recovered
      exact recovered
    · intro whole
      rw [if_neg] at recovered
      · exact recovered
      · rintro ⟨panics, none⟩
        exact whole ⟨room, rfl, alike.symm.trans panics, none⟩

theorem roundEnd_recovers (depth : Nat)
    (same : Cursor.Extends (close :: rest) cursor (.start tokens))
    (plain : ∀ token ∈ tokens.body, token.kind ∉ statementKinds) (closed : close.kind = .semicolon) :
    let after := roundEnd (StmtForm.declaration.rule depth) cursor
    after.panicking = false ∧
      (BreaksOff depth tokens → after.unread = (Cursor.skipStatement 0 rest).1) ∧
      (¬ BreaksOff depth tokens → after.unread = rest) := by
  obtain ⟨broken, whole⟩ := statement_recovers depth same plain closed
  have shorter : (statement depth cursor).2.recover.unread.length < cursor.unread.length := by
    have ahead : cursor.unread.length = tokens.body.length + (rest.length + 1) := by
      rw [same.unread, List.length_append, List.length_cons]
      rfl
    by_cases breaks : BreaksOff depth tokens
    · obtain ⟨skipped, split, -⟩ := Cursor.skipStatement_append 0 rest
      have less := congrArg List.length split
      rw [List.length_append] at less
      rw [broken breaks]
      omega
    · rw [whole breaks]
      omega
  have settled : roundEnd (StmtForm.declaration.rule depth) cursor =
      (statement depth cursor).2.recover := by
    rw [roundEnd, declaration_of_plain same plain closed]
    exact Cursor.progressSince_of_shorter
      ((onward_statement depth cursor).trans (Cursor.onward_recover _)) shorter
  rw [settled]
  exact ⟨Cursor.recover_panicking _, broken, whole⟩

end

end Read

open Read

/-- A script behind a first statement is read as it is. -/
theorem Script.kept {depth : Nat} {tokens : List Token} {stmts : List Stmt} {round : Cursor}
    (script : Script tokens stmts) (nearest : Stmt.allNearestElse stmts = true)
    (enough : Stmt.greatestCost stmts ≤ depth) (calm : round.panicking = false)
    (unread : round.unread = tokens) (first : Stmt) :
    (sequence (StmtForm.declaration.rule depth) (fun _ => false) (Slots.empty.push first)
      round).1.toList = first :: stmts := by
  have accepted := script.accepts nearest enough (Slots.empty.push first) round [] calm
    (by rw [unread, List.append_nil]) rfl
  rw [accepted, Slots.toList_foldl_push]
  rfl

/-- A script whose first tokens are skipped is not, for its trees weigh more than
what is left of it. -/
theorem Script.lost {tokens : List Token} {stmts : List Stmt} {round : Cursor}
    (script : Script tokens stmts)
    (opens : ∃ token ∈ tokens.head?, Cursor.opensStatement token.kind = false)
    (unread : round.unread = (Cursor.skipStatement 0 tokens).1) (depth : Nat)
    (first other : Stmt) :
    (sequence (StmtForm.declaration.rule depth) (fun _ => false) (Slots.empty.push first)
      round).1.toList ≠ other :: stmts := by
  intro found
  obtain ⟨passed, split, more, remains, added⟩ := sequence_remains (fun _ => false)
    (StmtForm.onward_rule .declaration depth) (StmtForm.rule_remains .declaration depth)
    (Slots.empty.push first) round
  have same : other :: stmts = first :: more := by
    rw [← found, added, Slots.toList_foldl_push]
    rfl
  have light := remains.weight_le
  have heavy := script.skipped_lt opens
  have whole := congrArg weightOf split
  rw [weightOf_append, unread] at whole
  rw [(List.cons.inj same).2] at heavy
  omega

section

variable {front back : String} {limits : Limits}

theorem tokenize_semicolon (back : String) (terminated : Terminated (tokenize front).body) :
    ∃ close : Token, close.kind = .semicolon ∧
      tokenize (front ++ "\n;\n" ++ back) =
        ⟨(tokenize front).body ++ close ::
            (tokenize back).body.map (Token.down (1 + linesOf front)),
          (tokenize back).stop.down (1 + linesOf front)⟩ := by
  have single : (tokenize ";").body = [⟨.semicolon, ";", 1⟩] := by decide +kernel
  have terminated' : Terminated (tokenize ";").body := by
    rw [single]
    rintro token found ⟨error, -⟩
    rw [List.mem_singleton.mp found] at error
    contradiction
  have split : front ++ "\n;\n" ++ back = front ++ "\n" ++ (";" ++ "\n" ++ back) := by
    have middle : "\n;\n" = "\n" ++ (";" ++ "\n") := rfl
    rw [middle]
    simp only [String.append_assoc]
  refine ⟨(Token.mk .semicolon ";" 1).down (linesOf front), rfl, ?_⟩
  rw [split, tokenize_append _ terminated, tokenize_append _ terminated', single]
  have lines : linesOf ";" = 1 := by decide +kernel
  have further : Token.down (linesOf front) ∘ Token.down 1 = Token.down (1 + linesOf front) := by
    funext token
    exact token.down_down 1 (linesOf front)
  rw [lines, List.singleton_append, List.map_cons, List.map_map, further, Token.down_down]

/-- Behind a malformed statement that a semicolon ends, the statements of a valid
text are read as they are read alone, unless the malformed statement breaks off
and the text starts with something that skipping does not stop at. -/
theorem resumes_iff (plain : Plain (tokenize front).body)
    (valid : (parse back limits).hadError = false) :
    (∃ first, (parse (front ++ "\n;\n" ++ back) limits).statements.toList =
      first :: (parse back limits).statements.toList.map (Stmt.down (1 + linesOf front))) ↔
    ¬ (BreaksOff limits.maxDepth (tokenize front) ∧
      ∃ token ∈ (tokenize back).body.head?, Cursor.opensStatement token.kind = false) := by
  obtain ⟨stmts, script, nearest, enough⟩ := script_of_parse valid
  obtain ⟨close, closed, tokens⟩ := tokenize_semicolon back plain.terminated
  have alone : (parse back limits).statements.toList = stmts := by
    rw [(parse_of_script script nearest enough).2, Slots.toList_ofList]
  let rest := (tokenize back).body.map (Token.down (1 + linesOf front))
  let start := Cursor.start (tokenize (front ++ "\n;\n" ++ back))
  let round := roundEnd (StmtForm.declaration.rule limits.maxDepth) start
  let first := (StmtForm.declaration.rule limits.maxDepth start).1
  have same : Cursor.Extends (close :: rest) start (.start (tokenize front)) := by
    constructor
    · change (tokenize _).body = (tokenize front).body ++ _
      rw [tokens]
    · rfl
  obtain ⟨calm, broken, whole⟩ := roundEnd_recovers limits.maxDepth same plain.kinds closed
  have read : (parse (front ++ "\n;\n" ++ back) limits).statements =
      (sequence (StmtForm.declaration.rule limits.maxDepth) (fun _ => false)
        (Slots.empty.push first) round).1 := by
    have goes : start.stops (fun _ => false) = false := by
      simp [Cursor.stops, same.unread]
    change (sequence (StmtForm.declaration.rule limits.maxDepth) _ _ start).1 = _
    rw [sequence_apply (StmtForm.onward_rule _ _), goes, if_neg (by decide)]
  have below : Script rest (stmts.map (Stmt.down (1 + linesOf front))) :=
    script.map (Token.down_kind _) fun _ => rfl
  rw [read, alone]
  constructor
  · rintro ⟨other, found⟩ ⟨breaks, token, ahead, opens⟩
    have opens' : ∃ token ∈ rest.head?, Cursor.opensStatement token.kind = false := by
      refine ⟨token.down (1 + linesOf front), ?_, opens⟩
      rw [List.head?_map, Option.mem_def.mp ahead]
      rfl
    exact below.lost opens' (broken breaks) _ _ _ found
  · intro fine
    have unread : round.unread = rest := by
      by_cases breaks : BreaksOff limits.maxDepth (tokenize front)
      · rw [broken breaks]
        apply Cursor.skipStatement_opens
        rw [List.head?_map]
        intro token found
        obtain ⟨original, ahead, rfl⟩ := Option.map_eq_some_iff.mp found
        rw [← Bool.not_eq_false]
        exact fun opens => fine ⟨breaks, original, ahead, opens⟩
      · exact whole breaks
    refine ⟨first, below.kept ?_ ?_ calm unread first⟩
    · exact (Stmt.allNearestElse_map _ stmts).trans nearest
    · exact (Stmt.greatestCost_map (Token.down_kind _) stmts).trans_le enough

end

/-- A number where an operator should be is reported before the semicolon. -/
theorem resumes_behind_number :
    Plain (tokenize "1 2").body ∧ (parse "x;" ⟨256⟩).hadError = false ∧
    ∃ first, (parse ("1 2" ++ "\n;\n" ++ "x;") ⟨256⟩).statements.toList =
      first :: (parse "x;" ⟨256⟩).statements.toList.map (Stmt.down (1 + linesOf "1 2")) := by
  have plain : Plain (tokenize "1 2").body :=
    ⟨by decide +kernel, by unfold Terminated; decide +kernel⟩
  have valid : (parse "x;" ⟨256⟩).hadError = false := by decide +kernel
  refine ⟨plain, valid, (resumes_iff plain valid).mpr ?_⟩
  rintro ⟨⟨room, level, -, none⟩, -⟩
  obtain rfl : room = 255 := (Nat.succ.inj level).symm
  revert none
  decide +kernel

/-- The semicolon of an empty statement is consumed in a panic, and the statement
behind it is skipped. -/
theorem next_statement_lost :
    Plain (tokenize "").body ∧ (parse "x;" ⟨256⟩).hadError = false ∧
    ¬ ∃ first, (parse ("" ++ "\n;\n" ++ "x;") ⟨256⟩).statements.toList =
      first :: (parse "x;" ⟨256⟩).statements.toList.map (Stmt.down (1 + linesOf "")) := by
  refine ⟨⟨by decide +kernel, by unfold Terminated; decide +kernel⟩, by decide +kernel, ?_⟩
  rintro ⟨first, same⟩
  have lengths := congrArg List.length same
  rw [List.length_cons, List.length_map] at lengths
  revert lengths
  decide +kernel

end ScriptTree
