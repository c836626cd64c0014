import ScriptTree.Proofs.LeadingTokens
import ScriptTree.Proofs.Muted
import ScriptTree.Proofs.Recovery
import ScriptTree.Tree.Equality

/-! A parenthesis that is missing behind `for`, `while` or `if`. It is reported where it
should be, and the rest of the statement is read in a panic, which ends only behind it. -/
namespace ScriptTree

open Read

/-- The statements that ask for a parenthesis behind their word. -/
inductive Header where
  | forLoop
  | whileLoop
  | branch

namespace Header

def opening : Header → Opening
  | forLoop => .forLoop
  | whileLoop => .whileLoop
  | branch => .branch

def spelling : Header → String
  | forLoop => "for"
  | whileLoop => "while"
  | branch => "if"

def complaint : Header → Complaint
  | forLoop => .expectForHeader
  | whileLoop => .expectWhileHeader
  | branch => .expectIfHeader

theorem listed (header : Header) : (header.spelling, header.opening.kind) ∈ keywords := by
  cases header <;> decide

theorem message (header : Header) :
    header.complaint.message = "Expect '(' after '" ++ header.spelling ++ "'." := by
  cases header <;> decide

end Header

def Stmt.header? : Stmt → Option Header
  | forLoop .. => some .forLoop
  | whileLoop .. => some .whileLoop
  | branch .. => some .branch
  | block _ | expr _ | declare _ _ => none

theorem StmtPhrase.opened {form : StmtForm} {tokens : List Token} {stmt : Stmt} {header : Header}
    (phrase : StmtPhrase form tokens stmt) (headed : stmt.header? = some header) :
    ∃ word opening next rest, tokens = word :: opening :: next :: rest ∧
      word.kind = header.opening.kind ∧ opening.kind = .leftParen := by
  induction phrase with
  | plain _ ih => exact ih headed
  | forLoop word opened inits =>
    cases headed
    obtain ⟨next, rest, rfl, -⟩ := inits.head
    exact ⟨_, _, _, _, rfl, word, opened⟩
  | whileLoop word opened | ifThen word opened | ifElse word opened =>
    cases headed
    obtain ⟨next, rest, same⟩ := List.exists_cons_of_ne_nil
      (List.append_ne_nil_of_right_ne_nil _ (List.cons_ne_nil _ _))
    rw [same]
    exact ⟨_, _, _, _, rfl, word, opened⟩
  | declare | declareAs | expr | block => cases headed

/-- The first cursor stands in front of a parenthesis that the other one, which is calm and has
told nothing, does not find in front of `next`. No block is opened behind it. -/
structure Cursor.Parted (next : Token) (cursor other : Cursor) : Prop where
  ahead : ∃ opening rest, opening.kind = .leftParen ∧ cursor.unread = opening :: next :: rest ∧
    other.unread = next :: rest
  apart : next.kind ≠ .leftParen
  stop : other.stop = cursor.stop
  calm : other.panicking = false
  fresh : other.reported = []
  unbraced : cursor.Unbraced

/-- The same is ahead in a panic, and no block is opened. -/
def Cursor.MutedUnbraced (told : List Diagnostic) (cursor other : Cursor) : Prop :=
  Muted told cursor other ∧ cursor.Unbraced

namespace Read

variable {word next : Token} {rest : List Token} {header : Header}

theorem likeness_mutedUnbraced (told : List Diagnostic) :
    Likeness id (Cursor.MutedUnbraced told) :=
  (Cursor.likeness_muted told).within Cursor.invariant_unbraced

theorem expect_parted (next : Token) (complaint : Complaint) :
    Leads (Cursor.Parted next) (Cursor.MutedUnbraced [.ofToken next complaint.message])
      (fun _ => none) (expect .leftParen complaint) (expect .leftParen complaint) := by
  intro cursor other parted
  obtain ⟨opening, rest, opened, ahead, ahead'⟩ := parted.ahead
  have passed : cursor.advance = cursor.past [opening] (next :: rest) := by
    rw [Cursor.advance, ahead]
    rfl
  have told : (other.report next complaint).reported = [.ofToken next complaint.message] := by
    rw [Cursor.report, if_neg (by simp [parted.calm]), parted.fresh]
  have stop : (other.report next complaint).stop = other.stop :=
    (Cursor.onward_report other next complaint).stop
  rw [expect_hit ahead opened, expect_miss ahead' parted.apart]
  refine ⟨?_, ⟨?_, ?_, Cursor.report_panicking other next complaint, told⟩,
    Cursor.invariant_unbraced.advance parted.unbraced⟩
  · simp only [expect, accept, bind_apply, take?, ahead', if_neg parted.apart]
    rfl
  · rw [Cursor.report_unread, ahead', passed]
    rfl
  · rw [stop, parted.stop, passed]
    rfl

theorem statement_of_opening {cursor : Cursor} {opening : Opening}
    (ahead : cursor.unread = word :: rest) (kind : word.kind = opening.kind) (room : Nat) :
    statement (room + 1) cursor = (match opening with
      | .forLoop => forStatement (expression room) (statement room)
      | .whileLoop => whileStatement (expression room) (statement room)
      | .branch => ifStatement (expression room) (statement room)
      | .block => block (declaration (expression room) (statement room))) cursor.advance := by
  have found := (Opening.of?_eq_some opening).mpr kind
  simp only [statement, statementWith, bind_apply, take?, ahead, found]
  cases opening <;> rfl

theorem statement_of_parted {cursor other : Cursor} {rest' : List Token}
    (ahead : cursor.unread = word :: rest) (ahead' : other.unread = word :: rest')
    (kind : word.kind = header.opening.kind) (parted : Cursor.Parted next cursor.advance other.advance)
    (room : Nat) :
    (statement (room + 1) other).1 = (statement (room + 1) cursor).1 ∧
      Cursor.Muted [.ofToken next header.complaint.message] (statement (room + 1) cursor).2
        (statement (room + 1) other).2 := by
  have like := likeness_mutedUnbraced [.ofToken next header.complaint.message]
  have value := like.expression room
  have part := like.statement_of_unbraced And.right room
  have alike : (statement (room + 1) other).1 = (statement (room + 1) cursor).1.map id ∧
      Cursor.MutedUnbraced [.ofToken next header.complaint.message] (statement (room + 1) cursor).2
        (statement (room + 1) other).2 := by
    rw [statement_of_opening ahead kind, statement_of_opening ahead' kind]
    -- The statements differ in what they expect behind the parenthesis, and that is read alike.
    cases header with
    | forLoop => exact like.forStatement_of_opened value part (expect_parted next _) _ _ parted
    | whileLoop => exact like.whileStatement_of_opened value part (expect_parted next _) _ _ parted
    | branch => exact like.ifStatement_of_opened value part (expect_parted next _) _ _ parted
  rw [Stmt.map_id] at alike
  exact ⟨alike.1, alike.2.1⟩

theorem declaration_of_header {cursor : Cursor} (calm : cursor.panicking = false)
    (ahead : cursor.unread = word :: rest) (kind : word.kind = header.opening.kind) (depth : Nat) :
    StmtForm.declaration.rule depth cursor = statement depth cursor := by
  apply declaration_of_other calm
  rw [ahead, List.head?_cons]
  rintro _ ⟨⟩
  rw [kind]
  cases header <;> decide

theorem program_of_single {depth : Nat} {cursor : Cursor} (some : cursor.unread ≠ [])
    (ended : (StmtForm.declaration.rule depth cursor).2.unread = []) :
    (program depth cursor).1 = Slots.empty.push (StmtForm.declaration.rule depth cursor).1 ∧
      (program depth cursor).2.reported = (StmtForm.declaration.rule depth cursor).2.reported := by
  have onward := StmtForm.onward_rule .declaration depth
  have goes : cursor.stops (fun _ => false) = false := by simp [Cursor.stops, some]
  generalize read : StmtForm.declaration.rule depth cursor = result at ended ⊢
  obtain ⟨stmt, after⟩ := result
  have ended : after.unread = [] := ended
  -- A panic ends with the text, where there is nothing left to skip.
  have recovered : after.recover.unread = [] ∧ after.recover.reported = after.reported := by
    unfold Cursor.recover
    split
    · simp [Cursor.synchronize, ended, Cursor.skipStatement]
    · exact ⟨ended, rfl⟩
  have settled : roundEnd (StmtForm.declaration.rule depth) cursor = after.recover := by
    simp [roundEnd, read, Cursor.progressSince, Cursor.advance, recovered.1]
  have stops : after.recover.stops (fun _ => false) = true := by simp [Cursor.stops, recovered.1]
  change (sequence (StmtForm.declaration.rule depth) _ _ cursor).1 = _ ∧
    (sequence (StmtForm.declaration.rule depth) _ _ cursor).2.reported = _
  rw [sequence_apply onward, goes, if_neg (by decide), settled, sequence_apply onward, if_pos stops,
    read]
  exact ⟨rfl, recovered.2⟩

end Read

theorem Script.single {tokens : List Token} {stmt : Stmt} (script : Script tokens [stmt]) :
    StmtPhrase .declaration tokens stmt := by
  obtain ⟨parts, phrases, rfl, made⟩ := script
  obtain ⟨part, rfl, rfl⟩ := List.map_eq_singleton_iff.mp made.symm
  rw [List.flatMap_singleton]
  exact phrases part List.mem_cons_self

theorem Stmt.cost_of_header {stmt : Stmt} {header : Header} (headed : stmt.header? = some header) :
    1 ≤ stmt.cost := by
  cases stmt with
  | branch condition yes no => cases no <;> exact Nat.le_add_right 1 _
  | whileLoop | forLoop => exact Nat.le_add_right 1 _
  | block | expr | declare => cases headed

theorem program_without_parenthesis {word opening next : Token} {rest : List Token} {stmt : Stmt}
    {header : Header} {depth : Nat} (stop : Token)
    (phrase : StmtPhrase .declaration (word :: opening :: next :: rest) stmt)
    (headed : stmt.header? = some header) (nearest : stmt.nearestElse = true)
    (enough : stmt.cost ≤ depth) (kind : word.kind = header.opening.kind)
    (opened : opening.kind = .leftParen) (apart : next.kind ≠ .leftParen)
    (unbraced : ∀ token ∈ word :: opening :: next :: rest, token.kind ≠ .leftBrace) :
    let read := program depth (.start ⟨word :: next :: rest, stop⟩)
    read.1 = Slots.empty.push stmt ∧
      read.2.reported = [.ofToken next header.complaint.message] := by
  intro read
  let whole := Cursor.start ⟨word :: opening :: next :: rest, stop⟩
  let cut := Cursor.start ⟨word :: next :: rest, stop⟩
  have positive := Stmt.cost_of_header headed
  obtain ⟨room, rfl⟩ : ∃ room, depth = room + 1 := ⟨depth - 1, by omega⟩
  have parted : Cursor.Parted next whole.advance cut.advance := {
    ahead := ⟨opening, rest, opened, rfl, rfl⟩
    apart := apart
    stop := rfl
    calm := rfl
    fresh := rfl
    unbraced := fun token ahead => unbraced token (List.mem_cons_of_mem _ ahead) }
  have last : stmt.EndsBefore none := fun _ => nofun
  have accepted : StmtForm.declaration.rule (room + 1) whole = (stmt, whole.past _ []) :=
    phrase.reads nearest enough last whole [] rfl (List.append_nil _).symm rfl
  obtain ⟨same, muted⟩ := statement_of_parted rfl rfl kind parted room
  rw [← declaration_of_header rfl rfl kind, ← declaration_of_header rfl rfl kind, accepted]
    at same muted
  obtain ⟨answered, told⟩ := program_of_single (List.cons_ne_nil _ _) muted.unread
  exact ⟨answered.trans (congrArg _ same), told.trans muted.reported⟩

/-- Replacing the parenthesis behind the word of a single loop or branch without blocks by a
blank leaves the statement as it is, and gives one diagnostic, at the token behind it. -/
theorem parse_without_parenthesis {source : String} {limits : Limits} {stmt : Stmt}
    {header : Header} (valid : (parse source limits).hadError = false)
    (single : (parse source limits).statements.toList = [stmt])
    (headed : stmt.header? = some header)
    (unbraced : ∀ token ∈ (tokenize source).body, token.kind ≠ .leftBrace)
    (apart : ∀ token ∈ (tokenize source).body[2]?, token.kind ≠ .leftParen) :
    ∃ word opening next rest front back,
      (tokenize source).body = word :: opening :: next :: rest ∧
      word.lexeme = header.spelling ∧ opening.kind = .leftParen ∧
      source = front ++ "(" ++ back ∧ (tokenize front).body = [word] ∧
      (tokenize (front ++ "(")).body = [word, opening] ∧
      (parse (front ++ " " ++ back) limits).statements = (parse source limits).statements ∧
      (parse (front ++ " " ++ back) limits).diagnostics =
        [.ofToken next ("Expect '(' after '" ++ header.spelling ++ "'.")] := by
  obtain ⟨stmts, script, nearest, enough⟩ := script_of_parse valid
  have answered := (parse_of_script script nearest enough).2
  rw [answered, Slots.toList_ofList] at single
  subst single
  have enough := Stmt.greatestCost_le_iff.mp enough stmt List.mem_cons_self
  have nearest := Stmt.allNearestElse_iff.mp nearest stmt List.mem_cons_self
  have phrase := script.single
  obtain ⟨word, opening, next, rest, body, kind, opened⟩ := phrase.opened headed
  obtain ⟨spelled, front, back, split, before, behind, without⟩ :=
    tokenize_without_parenthesis body (kind ▸ header.listed) opened
  rw [body] at phrase unbraced
  obtain ⟨same, told⟩ := program_without_parenthesis (tokenize source).stop phrase headed nearest
    enough kind opened (apart next (by rw [body]; rfl)) unbraced
  rw [← without] at same told
  refine ⟨word, opening, next, rest, front, back, body, spelled, opened, split, before, behind,
    same.trans answered.symm, ?_⟩
  rw [← header.message]
  exact congrArg List.reverse told

/-- A header whose first clause declares a variable, and a panic that goes on through both
branches behind it. -/
theorem parse_without_parenthesis_of_for :
    let source := "for (var i = 0; i; i = 1;)\nif (a) b; else c;"
    let name (lexeme : String) (line : Nat) : Expr := .name ⟨.identifier, lexeme, line⟩
    let stmt : Stmt := .forLoop
      (.declare (some ⟨.identifier, "i", 1⟩) (some (.expr (some (.literal .number "0")))))
      (.expr (some (name "i" 1)))
      (.expr (some (.assign ⟨.identifier, "i", 1⟩ (.literal .number "1"))))
      (.branch (some (name "a" 2)) (.expr (some (name "b" 2))) (some (.expr (some (name "c" 2)))))
    (parse source ⟨256⟩).hadError = false ∧ (parse source ⟨256⟩).statements.toList = [stmt] ∧
    stmt.header? = some .forLoop ∧
    (∀ token ∈ (tokenize source).body, token.kind ≠ .leftBrace) ∧
    (∀ token ∈ (tokenize source).body[2]?, token.kind ≠ .leftParen) ∧
    ∃ word opening next rest front back,
      (tokenize source).body = word :: opening :: next :: rest ∧
      word.lexeme = Header.forLoop.spelling ∧ opening.kind = .leftParen ∧
      source = front ++ "(" ++ back ∧ (tokenize front).body = [word] ∧
      (tokenize (front ++ "(")).body = [word, opening] ∧
      (parse (front ++ " " ++ back) ⟨256⟩).statements = (parse source ⟨256⟩).statements ∧
      (parse (front ++ " " ++ back) ⟨256⟩).diagnostics =
        [.ofToken next ("Expect '(' after '" ++ Header.forLoop.spelling ++ "'.")] := by
  intro source name stmt
  have valid : (parse source ⟨256⟩).hadError = false := by decide +kernel
  have single : (parse source ⟨256⟩).statements.toList = [stmt] := by decide +kernel
  have unbraced : ∀ token ∈ (tokenize source).body, token.kind ≠ .leftBrace := by decide +kernel
  have apart : ∀ token ∈ (tokenize source).body[2]?, token.kind ≠ .leftParen := by decide +kernel
  exact ⟨valid, single, rfl, unbraced, apart,
    parse_without_parenthesis valid single rfl unbraced apart⟩

end ScriptTree
