import ScriptTree.Proofs.StatementReading

/-! What remains of a text that may be no script. Whatever a reader has to report,
the tree that it answers is made of tokens that it passed over, in their order and
each of them once. What fits nowhere is dropped. -/
namespace ScriptTree

/-- `ExprRemains tokens expr`: some of the tokens, in their order, make up the
expression. A parenthesis that should close a group may be missing. -/
inductive ExprRemains : List Token → Expr → Prop where
  | among {kept tokens : List Token} {expr : Expr} :
      ExprRemains kept expr → kept.Sublist tokens → ExprRemains tokens expr
  | leaf {token : Token} {expr : Expr} : Read.leaf? token = some expr → ExprRemains [token] expr
  | binary {operator : Token} {operators : List Kind} {before after : List Token}
      {left right : Expr} :
      ExprRemains before left → operators ∈ binaryTiers → operator.kind ∈ operators →
      ExprRemains after right →
      ExprRemains (before ++ operator :: after) (.binary operator left right)
  | unary {operator : Token} {tokens : List Token} {right : Expr} :
      operator.kind = .bang ∨ operator.kind = .minus → ExprRemains tokens right →
      ExprRemains (operator :: tokens) (.unary operator right)
  | grouping {opening : Token} {tokens : List Token} {inner : Expr} :
      opening.kind = .leftParen → ExprRemains tokens inner →
      ExprRemains (opening :: tokens) (.grouping inner)
  | assign {name equals : Token} {before after : List Token} {value : Expr} :
      ExprRemains before (.name name) → equals.kind = .equal → ExprRemains after value →
      ExprRemains (before ++ equals :: after) (.assign name value)

def WholeRemains (tokens : List Token) : Option Expr → Prop
  | some expr => ExprRemains tokens expr
  | none => True

/-- `StmtRemains tokens stmt`: some of the tokens, in their order, make up the
statement. In a block every statement has tokens of its own, if only dropped ones. -/
inductive StmtRemains : List Token → Stmt → Prop where
  | among {kept tokens : List Token} {stmt : Stmt} :
      StmtRemains kept stmt → kept.Sublist tokens → StmtRemains tokens stmt
  | expr {tokens : List Token} {value : Option Expr} :
      WholeRemains tokens value → StmtRemains tokens (.expr value)
  | declare {word : Token} {name : Option Token} :
      word.kind = .varWord → (∀ token ∈ name, token.kind = .identifier) →
      StmtRemains (word :: name.toList) (.declare name none)
  | declareAs {word equals : Token} {name : Option Token} {tokens : List Token}
      {value : Option Expr} :
      word.kind = .varWord → (∀ token ∈ name, token.kind = .identifier) → equals.kind = .equal →
      WholeRemains tokens value →
      StmtRemains (word :: (name.toList ++ equals :: tokens)) (.declare name (some (.expr value)))
  | forLoop {word : Token} {inits conditions increments bodies : List Token}
      {init condition increment body : Stmt} :
      word.kind = .forWord → StmtRemains inits init → StmtRemains conditions condition →
      StmtRemains increments increment → StmtRemains bodies body →
      StmtRemains (word :: (inits ++ (conditions ++ (increments ++ bodies))))
        (.forLoop init condition increment body)
  | whileLoop {word : Token} {conditions bodies : List Token} {condition : Option Expr}
      {body : Stmt} :
      word.kind = .whileWord → WholeRemains conditions condition → StmtRemains bodies body →
      StmtRemains (word :: (conditions ++ bodies)) (.whileLoop condition body)
  | ifThen {word : Token} {conditions yeses : List Token} {condition : Option Expr} {yes : Stmt} :
      word.kind = .ifWord → WholeRemains conditions condition → StmtRemains yeses yes →
      StmtRemains (word :: (conditions ++ yeses)) (.branch condition yes none)
  | ifElse {word otherwise : Token} {conditions yeses noes : List Token}
      {condition : Option Expr} {yes no : Stmt} :
      word.kind = .ifWord → WholeRemains conditions condition → StmtRemains yeses yes →
      otherwise.kind = .elseWord → StmtRemains noes no →
      StmtRemains (word :: (conditions ++ (yeses ++ otherwise :: noes)))
        (.branch condition yes (some no))
  | block {opening : Token} {parts : List (List Token × Stmt)} :
      opening.kind = .leftBrace → (∀ part ∈ parts, part.1 ≠ []) →
      (∀ part ∈ parts, StmtRemains part.1 part.2) →
      StmtRemains (opening :: parts.flatMap Prod.fst) (.block (.ofList (parts.map Prod.snd)))

def ScriptRemains (tokens : List Token) (stmts : List Stmt) : Prop :=
  ∃ parts : List (List Token × Stmt),
    (∀ part ∈ parts, part.1 ≠ []) ∧ (∀ part ∈ parts, StmtRemains part.1 part.2) ∧
      tokens = parts.flatMap Prod.fst ∧ stmts = parts.map Prod.snd

@[simp] theorem wholeRemains_some {tokens : List Token} {expr : Expr} :
    WholeRemains tokens (some expr) ↔ ExprRemains tokens expr := Iff.rfl

theorem WholeRemains.among {kept tokens : List Token} {value : Option Expr}
    (remains : WholeRemains kept value) (sub : kept.Sublist tokens) : WholeRemains tokens value := by
  cases value with
  | none => trivial
  | some expr => exact ExprRemains.among remains sub

theorem WholeRemains.behind {tokens : List Token} {value : Option Expr}
    (remains : WholeRemains tokens value) (dropped : List Token) :
    WholeRemains (dropped ++ tokens) value :=
  remains.among (List.sublist_append_right _ _)

theorem WholeRemains.before {tokens : List Token} {value : Option Expr}
    (remains : WholeRemains tokens value) (dropped : List Token) :
    WholeRemains (tokens ++ dropped) value :=
  remains.among (List.sublist_append_left _ _)

theorem StmtRemains.behind {tokens : List Token} {stmt : Stmt} (remains : StmtRemains tokens stmt)
    (dropped : List Token) : StmtRemains (dropped ++ tokens) stmt :=
  remains.among (List.sublist_append_right _ _)

theorem StmtRemains.before {tokens : List Token} {stmt : Stmt} (remains : StmtRemains tokens stmt)
    (dropped : List Token) : StmtRemains (tokens ++ dropped) stmt :=
  remains.among (List.sublist_append_left _ _)

theorem ScriptRemains.push {tokens more : List Token} {stmts : List Stmt} {stmt : Stmt}
    (script : ScriptRemains tokens stmts) (remains : StmtRemains more stmt) (some : more ≠ []) :
    ScriptRemains (tokens ++ more) (stmts ++ [stmt]) := by
  obtain ⟨parts, each, all, rfl, rfl⟩ := script
  refine ⟨parts ++ [(more, stmt)], ?_, ?_, by simp, by simp⟩
  · simpa only [List.forall_mem_append, List.forall_mem_singleton] using ⟨each, some⟩
  · simpa only [List.forall_mem_append, List.forall_mem_singleton] using ⟨all, remains⟩

namespace Read

variable {α β : Type} {R : List Token → α → Prop} {Q : List Token → β → Prop}

/-- Whatever it finds, the tokens that the reader passes over and its answer are
in the relation. -/
def Passes (p : Read α) (R : List Token → α → Prop) : Prop :=
  ∀ cursor, ∃ tokens, cursor.unread = tokens ++ (p cursor).2.unread ∧ R tokens (p cursor).1

theorem Passes.pure {a : α} (holds : R [] a) : Passes (pure a) R :=
  fun _ => ⟨[], rfl, holds⟩

theorem Passes.bind {p : Read α} {f : α → Read β} (first : Passes p R)
    (next : ∀ a s, R s a → Passes (f a) fun t b => Q (s ++ t) b) : Passes (p >>= f) Q := by
  intro cursor
  obtain ⟨s, split, holds⟩ := first cursor
  obtain ⟨t, split', holds'⟩ := next _ s holds (p cursor).2
  refine ⟨s ++ t, ?_, holds'⟩
  rw [split, split', List.append_assoc]
  rfl

theorem Passes.imp {p : Read α} {S : List Token → α → Prop} (passes : Passes p R)
    (weaker : ∀ tokens a, R tokens a → S tokens a) : Passes p S := by
  intro cursor
  obtain ⟨tokens, split, holds⟩ := passes cursor
  exact ⟨tokens, split, weaker _ _ holds⟩

theorem Passes.of_onward {p : Read α} (onward : Onward p) : Passes p fun _ _ => True := by
  intro cursor
  obtain ⟨tokens, split, -⟩ := (onward cursor).passed
  exact ⟨tokens, split, trivial⟩

theorem Passes.report (found : Cursor → Token) (complaint : Complaint) :
    Passes (modify fun cursor => cursor.report (found cursor) complaint) fun tokens _ =>
      tokens = [] :=
  fun cursor => ⟨[], (Cursor.report_unread cursor (found cursor) complaint).symm, rfl⟩

theorem Passes.take? {pick : Token → Option α} {R : List Token → Option α → Prop}
    (missed : R [] none) (found : ∀ token a, pick token = some a → R [token] (some a)) :
    Passes (take? pick) R := by
  intro cursor
  unfold Read.take?
  split
  next => exact ⟨[], rfl, missed⟩
  next token rest unread =>
    cases picked : pick token with
    | none => exact ⟨[], rfl, missed⟩
    | some a => exact ⟨[token], by simp [Cursor.advance, unread], found token a picked⟩

theorem Passes.acceptAny (kinds : List Kind) : Passes (acceptAny kinds) fun tokens found =>
    tokens = found.toList ∧ ∀ token ∈ found, token.kind ∈ kinds := by
  apply Passes.take? ⟨rfl, nofun⟩
  intro token taken picked
  split at picked
  next member =>
    cases picked
    exact ⟨rfl, by simpa using member⟩
  next => cases picked

theorem Passes.accept (kind : Kind) : Passes (accept kind) fun tokens found =>
    tokens = found.toList ∧ ∀ token ∈ found, token.kind = kind := by
  apply Passes.take? ⟨rfl, nofun⟩
  intro token taken picked
  split at picked
  next same =>
    cases picked
    exact ⟨rfl, by simpa using same⟩
  next => cases picked

theorem Passes.expect (kind : Kind) (complaint : Complaint) :
    Passes (expect kind complaint) fun tokens found =>
      tokens = found.toList ∧ ∀ token ∈ found, token.kind = kind := by
  apply Passes.bind (.accept kind)
  rintro found s ⟨rfl, kinds⟩
  cases found with
  | some token => exact .pure ⟨by simp, kinds⟩
  | none =>
    apply Passes.bind (.report Cursor.next complaint)
    rintro _ t rfl
    exact .pure ⟨rfl, nofun⟩

theorem Passes.nested {room : Nat} {body : (inner : Nat) → inner < room → Read (Option α)}
    {R : List Token → Option α → Prop} (missed : R [] none)
    (passes : ∀ inner bound, Passes (body inner bound) R) : Passes (nested room body) R := by
  cases room with
  | zero =>
    apply Passes.bind (.report Cursor.next _)
    rintro _ s rfl
    exact .pure missed
  | succ inner => exact passes inner _

theorem leaf_remains : Passes (take? leaf?) WholeRemains :=
  .take? trivial fun _ _ => ExprRemains.leaf

mutual

theorem assignment_remains (room : Nat) : Passes (assignment room) WholeRemains := by
  rw [assignment_eq]
  apply Passes.bind (chain_remains room binaryTiers List.suffix_rfl)
  intro target s remains
  cases target with
  | none => exact .pure trivial
  | some target =>
    apply Passes.bind (.accept .equal)
    rintro equals t ⟨rfl, kind⟩
    cases equals with
    | none => exact .pure (by simpa using remains)
    | some equals =>
      cases target with
      | name name =>
        apply Passes.bind (.nested trivial fun inner _ => assignment_remains inner)
        intro value t found
        cases value with
        | none => exact .pure trivial
        | some value =>
          have assigned := ExprRemains.assign remains (kind equals rfl) found
          exact .pure (by simpa using assigned)
      | _ =>
        apply Passes.bind (.report (fun _ => equals) _)
        rintro _ t rfl
        exact .pure (remains.before _)
termination_by room * 8 + 7
decreasing_by
  · simp only [binaryTiers, List.length_cons, List.length_nil]
    omega
  · omega

theorem chain_remains (room : Nat) :
    ∀ tiers, tiers <:+ binaryTiers → Passes (chain room tiers) WholeRemains
  | [], _ => by
    unfold chain
    exact unary_remains room
  | operators :: tighter, listed => by
    unfold chain
    apply Passes.bind (chain_remains room tighter ((List.suffix_cons _ _).trans listed))
    intro left s remains
    cases left with
    | none => exact .pure trivial
    | some left => exact chainRest_remains room operators tighter listed remains
termination_by tiers => room * 8 + 2 + tiers.length

theorem chainRest_remains (room : Nat) (operators : List Kind) (tighter : List (List Kind))
    (listed : (operators :: tighter) <:+ binaryTiers) {left : Expr} {held : List Token}
    (remains : ExprRemains held left) :
    Passes (chainRest room operators tighter left) fun tokens => WholeRemains (held ++ tokens) := by
  -- `held` was passed over before; every fold moves one operator and one operand into it.
  unfold chainRest
  apply Passes.bind (.acceptAny operators)
  rintro operator s ⟨rfl, member⟩
  cases operator with
  | none => exact .pure (by simpa using remains)
  | some operator =>
    apply Passes.nested trivial
    intro inner _
    apply Passes.bind (chain_remains inner tighter ((List.suffix_cons _ _).trans listed))
    intro right t found
    cases right with
    | none => exact .pure trivial
    | some right =>
      have folded : ExprRemains (held ++ operator :: t) (.binary operator left right) :=
        .binary remains (listed.subset List.mem_cons_self) (member operator rfl) found
      simpa using chainRest_remains inner operators tighter listed folded
termination_by room * 8 + 2 + tighter.length

theorem unary_remains (room : Nat) : Passes (unary room) WholeRemains := by
  unfold unary
  apply Passes.bind (.acceptAny [.bang, .minus])
  rintro operator s ⟨rfl, member⟩
  cases operator with
  | none => exact primary_remains room
  | some operator =>
    apply Passes.bind (.nested trivial fun inner _ => unary_remains inner)
    intro right t found
    cases right with
    | none => exact .pure trivial
    | some right =>
      have sign : operator.kind = .bang ∨ operator.kind = .minus := by
        simpa using member operator rfl
      have signed := ExprRemains.unary sign found
      exact .pure (by simpa using signed)
termination_by room * 8 + 1

theorem primary_remains (room : Nat) : Passes (primary room) WholeRemains := by
  unfold primary
  apply Passes.bind leaf_remains
  intro leaf s remains
  cases leaf with
  | some leaf => exact .pure (by simpa using remains)
  | none =>
    apply Passes.bind (.accept .leftParen)
    rintro opening t ⟨rfl, kind⟩
    cases opening with
    | none =>
      apply Passes.bind (.report Cursor.next _)
      exact fun _ _ _ => .pure trivial
    | some opening =>
      apply Passes.bind (.nested trivial fun inner _ => assignment_remains inner)
      intro inner t found
      cases inner with
      | none => exact .pure trivial
      | some inner =>
        apply Passes.bind (.expect .rightParen _)
        rintro closing t' ⟨rfl, -⟩
        apply Passes.pure
        have group : WholeRemains (opening :: t) (some inner.grouping) :=
          ExprRemains.grouping (kind opening rfl) found
        simpa using (group.before closing.toList).behind s
termination_by room * 8

end

theorem expression_remains (room : Nat) : Passes (expression room) WholeRemains :=
  .nested trivial fun inner _ => assignment_remains inner

section

variable {value : Read (Option Expr)} {part : Read Stmt}

theorem initialValue_remains (whole : Passes value WholeRemains) {word : Token}
    (var : word.kind = .varWord) {name : Option Token}
    (named : ∀ token ∈ name, token.kind = .identifier) :
    Passes (initialValue value name) fun tokens => StmtRemains (word :: (name.toList ++ tokens)) := by
  apply Passes.bind (.accept .equal)
  rintro equals s ⟨rfl, kind⟩
  cases equals with
  | none =>
    apply Passes.bind (.expect .semicolon _)
    rintro close t ⟨rfl, -⟩
    apply Passes.pure
    simpa using (StmtRemains.declare var named).before close.toList
  | some equals =>
    apply Passes.bind whole
    intro init t remains
    apply Passes.bind (.expect .semicolon _)
    rintro close t' ⟨rfl, -⟩
    apply Passes.pure
    simpa using (StmtRemains.declareAs var named (kind equals rfl) remains).before close.toList

theorem variableDeclaration_remains (whole : Passes value WholeRemains) {word : Token}
    (var : word.kind = .varWord) :
    Passes (variableDeclaration value) fun tokens => StmtRemains (word :: tokens) := by
  apply Passes.bind (.expect .identifier _)
  rintro name s ⟨rfl, named⟩
  exact initialValue_remains whole var named

theorem clause_remains (whole : Passes value WholeRemains) (inner : Passes part StmtRemains) :
    Passes (clause value part) StmtRemains := by
  apply Passes.bind (.accept .varWord)
  rintro word s ⟨rfl, kind⟩
  cases word with
  | none => exact inner
  | some word => exact variableDeclaration_remains whole (kind word rfl)

theorem declaration_remains (whole : Passes value WholeRemains) (inner : Passes part StmtRemains) :
    Passes (declaration value part) StmtRemains := by
  apply Passes.bind (.accept .varWord)
  rintro word s ⟨rfl, kind⟩
  cases word with
  | none =>
    apply Passes.bind (.of_onward (.modify Cursor.onward_recover))
    intro _ skipped _
    exact inner.imp fun _ _ remains => remains.behind skipped
  | some word => exact variableDeclaration_remains whole (kind word rfl)

theorem sequence_remains {declaration : Read Stmt} (closes : Kind → Bool)
    (onward : Onward declaration) (each : Passes declaration StmtRemains) (done : Slots Stmt) :
    Passes (sequence declaration closes done) fun tokens slots =>
      ∃ stmts, ScriptRemains tokens stmts ∧ slots = stmts.foldl Slots.push done := by
  intro start
  refine sequence_keeps (fun slots after => ∃ tokens,
    start.unread = tokens ++ after.unread ∧
      ∃ stmts, ScriptRemains tokens stmts ∧ slots = stmts.foldl Slots.push done) ?_ ?_
  · rintro _ cursor goes ⟨tokens, split, stmts, remains, rfl⟩
    obtain ⟨passed, taken, stmt⟩ := each cursor
    obtain ⟨dropped, left, -⟩ :=
      ((Cursor.onward_recover _).trans (Cursor.onward_progressSince cursor.consumed _)).passed
    have whole : cursor.unread = (passed ++ dropped) ++ (roundEnd declaration cursor).unread := by
      rw [taken, left, List.append_assoc]
      rfl
    -- A statement that took no token has at least the one that its round dropped.
    have shorter := roundEnd_unread_length_lt onward (Cursor.unread_ne_nil goes)
    have nonempty : passed ++ dropped ≠ [] := by
      intro none
      rw [whole, none, List.nil_append] at shorter
      exact absurd shorter (Nat.lt_irrefl _)
    refine ⟨tokens ++ (passed ++ dropped), ?_, _, remains.push (stmt.before dropped) nonempty, ?_⟩
    · rw [split, whole, List.append_assoc, List.append_assoc, List.append_assoc]
    · rw [List.foldl_append, List.foldl_cons, List.foldl_nil]
  · exact ⟨[], rfl, [], ⟨[], nofun, nofun, rfl, rfl⟩, rfl⟩

theorem block_remains {declaration : Read Stmt} (onward : Onward declaration)
    (each : Passes declaration StmtRemains) {opening : Token} (opened : opening.kind = .leftBrace) :
    Passes (block declaration) fun tokens => StmtRemains (opening :: tokens) := by
  rw [block_eq]
  apply Passes.bind (sequence_remains _ onward each .empty)
  rintro _ _ ⟨_, ⟨parts, some, remains, rfl, rfl⟩, rfl⟩
  apply Passes.bind (.expect .rightBrace _)
  rintro closing t ⟨rfl, -⟩
  apply Passes.pure
  simpa [Slots.ofList] using (StmtRemains.block opened some remains).before closing.toList

theorem forStatement_remains (whole : Passes value WholeRemains) (inner : Passes part StmtRemains)
    {word : Token} (forWord : word.kind = .forWord) :
    Passes (forStatement value part) fun tokens => StmtRemains (word :: tokens) := by
  rw [forStatement_eq]
  apply Passes.bind (.expect .leftParen _)
  rintro opening s ⟨rfl, -⟩
  apply Passes.bind (clause_remains whole inner)
  intro init inits first
  apply Passes.bind inner
  intro condition conditions second
  apply Passes.bind inner
  intro increment increments third
  apply Passes.bind (.expect .rightParen _)
  rintro closing t ⟨rfl, -⟩
  apply Passes.bind inner
  intro body bodies fourth
  apply Passes.pure
  simpa using StmtRemains.forLoop forWord (first.behind opening.toList) second third
    (fourth.behind closing.toList)

theorem whileStatement_remains (whole : Passes value WholeRemains)
    (inner : Passes part StmtRemains) {word : Token} (whileWord : word.kind = .whileWord) :
    Passes (whileStatement value part) fun tokens => StmtRemains (word :: tokens) := by
  apply Passes.bind (.expect .leftParen _)
  rintro opening s ⟨rfl, -⟩
  apply Passes.bind whole
  intro condition conditions found
  apply Passes.bind (.expect .rightParen _)
  rintro closing t ⟨rfl, -⟩
  apply Passes.bind inner
  intro body bodies remains
  apply Passes.pure
  simpa using StmtRemains.whileLoop whileWord (found.behind opening.toList)
    (remains.behind closing.toList)

theorem ifStatement_remains (whole : Passes value WholeRemains) (inner : Passes part StmtRemains)
    {word : Token} (ifWord : word.kind = .ifWord) :
    Passes (ifStatement value part) fun tokens => StmtRemains (word :: tokens) := by
  apply Passes.bind (.expect .leftParen _)
  rintro opening s ⟨rfl, -⟩
  apply Passes.bind whole
  intro condition conditions found
  apply Passes.bind (.expect .rightParen _)
  rintro closing t ⟨rfl, -⟩
  apply Passes.bind inner
  intro yes yeses first
  apply Passes.bind (.accept .elseWord)
  rintro otherwise t ⟨rfl, elseWord⟩
  have condition' := found.behind opening.toList
  have first' := first.behind closing.toList
  cases otherwise with
  | none =>
    apply Passes.pure
    simpa using StmtRemains.ifThen ifWord condition' first'
  | some otherwise =>
    apply Passes.bind inner
    intro no noes second
    apply Passes.pure
    simpa using StmtRemains.ifElse ifWord condition' first' (elseWord otherwise rfl) second

theorem expressionStatement_remains (whole : Passes value WholeRemains) :
    Passes (expressionStatement value) StmtRemains := by
  apply Passes.bind whole
  intro value s remains
  apply Passes.bind (.expect .semicolon _)
  rintro close t ⟨rfl, -⟩
  apply Passes.pure
  simpa using StmtRemains.expr (remains.before close.toList)

end

theorem opening_remains : Passes (take? Opening.of?) fun tokens found =>
    match found with
    | some opening => ∃ word : Token, tokens = [word] ∧ word.kind = opening.kind
    | none => tokens = [] :=
  .take? rfl fun word opening picked => ⟨word, rfl, (Opening.of?_eq_some opening).mp picked⟩

theorem statement_remains (room : Nat) : Passes (statement room) StmtRemains := by
  induction room with
  | zero =>
    apply Passes.bind (.report Cursor.next _)
    exact fun _ _ _ => .pure (.expr trivial)
  | succ room inner =>
    have whole := expression_remains room
    apply Passes.bind opening_remains
    intro opening s found
    cases opening with
    | none =>
      subst found
      exact expressionStatement_remains whole
    | some opening =>
      obtain ⟨word, rfl, kind⟩ := found
      cases opening with
      | forLoop => exact forStatement_remains whole inner kind
      | whileLoop => exact whileStatement_remains whole inner kind
      | branch => exact ifStatement_remains whole inner kind
      | block =>
        exact block_remains
          (onward_declaration (onward_expression room) (onward_statement room))
          (declaration_remains whole inner) kind

end Read

open Read

theorem StmtForm.rule_remains (form : StmtForm) (room : Nat) :
    Passes (form.rule room) StmtRemains := by
  cases form with
  | declaration => exact declaration_remains (expression_remains room) (statement_remains room)
  | statement => exact statement_remains room

/-- Reading comes to the end of the tokens, whatever they are, and ends calm. -/
theorem Read.program_ends (room : Nat) (tokens : Tokens) :
    let after := (program room (.start tokens)).2
    after.unread = [] ∧ after.consumed = tokens.body.length ∧ after.panicking = false := by
  intro after
  have calm : after.panicking = false :=
    sequence_keeps (fun _ after => after.panicking = false)
      (fun _ cursor _ _ => roundEnd_panicking _ cursor) rfl
  have stops : after.stops (fun _ => false) = true :=
    sequence_stops (StmtForm.onward_rule .declaration room) .empty (.start tokens)
  have ended : after.unread = [] := by simpa [Cursor.stops] using stops
  obtain ⟨passed, split, counted⟩ := (onward_program room (.start tokens)).passed
  refine ⟨ended, ?_, calm⟩
  change tokens.body = passed ++ after.unread at split
  change after.consumed = 0 + passed.length at counted
  rw [counted, split, ended, List.append_nil, Nat.zero_add]

theorem Read.program_remains (room : Nat) (tokens : Tokens) :
    ScriptRemains tokens.body (program room (.start tokens)).1.toList := by
  obtain ⟨passed, split, stmts, remains, found⟩ := sequence_remains (fun _ => false)
    (StmtForm.onward_rule .declaration room) (StmtForm.rule_remains .declaration room)
    .empty (.start tokens)
  change tokens.body = passed ++ (program room (.start tokens)).2.unread at split
  change (program room (.start tokens)).1 = _ at found
  rw [(program_ends room tokens).1, List.append_nil] at split
  rw [split, found, Slots.toList_foldl_push]
  exact remains

end ScriptTree
