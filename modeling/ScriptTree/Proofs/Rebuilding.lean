import ScriptTree.Proofs.Forest
import ScriptTree.Proofs.PrintedForm

/-! Trees from their outlines. The rows of an outline tell a forest, the labels and lines of
its entries tell the tokens, and an else belongs to the entry in front of it: so the
statements that were read are built again from the outline, all of them and their lines. -/
namespace ScriptTree

namespace Heading

def operator (lexeme : String) (line : Option Nat) : Token :=
  { PrefixForm.operator lexeme with line := line.getD 0 }

def identifier (lexeme : String) (line : Option Nat) : Token :=
  ⟨.identifier, lexeme, line.getD 0⟩

def sorts : List (String × Literal) :=
  [("Bool", .bool), ("Null", .null), ("Number", .number), ("String", .string)]

def leaf (label : String) : Expr :=
  let (sort, text) := firstWord label
  .literal ((sorts.lookup sort).getD .null) text

def toExpr (heading : Heading) (line : Option Nat) (operands : List Expr) : Expr :=
  match heading, operands with
  | binary lexeme, [left, right] => .binary (operator lexeme line) left right
  | unary lexeme, [right] => .unary (operator lexeme line) right
  | name lexeme, _ => .name (identifier lexeme line)
  | grouping, [inner] => .grouping inner
  | assign lexeme, [value] => .assign (identifier lexeme line) value
  | literal label, _ => leaf label
  | _, _ => leaf ""

/-- The statement of this value and these parts that has the heading. A condition has its place
among the parts, where it is passed over. -/
def toStmt (heading : Heading) (line : Option Nat) (value : Option Expr) (parts : List Stmt)
    (otherwise : Option Stmt) : Stmt :=
  match heading, parts with
  | block, body => .block (.ofList body)
  | expr, _ => .expr value
  | branch, [_, yes] => .branch value yes otherwise
  | whileLoop, [_, body] => .whileLoop value body
  | forLoop, [init, condition, increment, body] => .forLoop init condition increment body
  | declare lexeme, init => .declare (line.map fun _ => identifier lexeme line) init.head?
  | _, _ => .missing

end Heading

namespace Entry

mutual

def expr : Entry → Expr
  | mk label line below => (Heading.ofLabel label).toExpr line (exprs below)

def exprs : List Entry → List Expr
  | [] => []
  | entry :: rest => entry.expr :: exprs rest

end

def whole : Entry → Option Expr
  | mk label line below =>
    if Heading.ofLabel label = .missing then none else some (mk label line below).expr

/-- The statements that are listed as entries, and in front of them what an else brings to a
statement before. -/
def stmts : List Entry → Option Stmt × List Stmt
  | [] => (none, [])
  | mk label line below :: rest =>
    let (otherwise, behind) := stmts rest
    let parts := (stmts below).2
    let heading := Heading.ofLabel label
    if heading = .otherwise then (parts.head?, behind)
    else (none, heading.toStmt line (below.head?.bind whole) parts otherwise :: behind)

end Entry

namespace Heading

theorem operator_of_lexeme {token : Token} (same : PrefixForm.operator token.lexeme = token.unplaced) :
    operator token.lexeme (some token.line) = token := by
  rw [operator, same]
  rfl

theorem identifier_of_kind {token : Token} (kind : token.kind = .identifier) :
    identifier token.lexeme (some token.line) = token := by
  rw [identifier, ← kind]
  rfl

theorem leaf_of_label (kind : Literal) (text : String) :
    leaf (kind.name ++ " " ++ text) = .literal kind text := by
  have split : firstWord (kind.name ++ " " ++ text) = (kind.name, text) :=
    firstWord_append (by cases kind <;> decide) (by simp)
  have found : sorts.lookup kind.name = some kind := by cases kind <;> rfl
  simp only [leaf, split, found, Option.getD_some]

theorem ofLabel_word : ofLabel "Expr" = expr ∧ ofLabel "If" = branch ∧
    ofLabel "Else" = otherwise ∧ ofLabel "While" = whileLoop ∧ ofLabel "For" = forLoop ∧
    ofLabel "Grouping" = grouping ∧ ofLabel missingText = missing := by
  decide

end Heading

open Entry Heading

theorem ExprRemains.expr_entry {tokens : List Token} {expr : Expr}
    (remains : ExprRemains tokens expr) (spelled : ∀ token ∈ tokens, token.Spelled) :
    expr.entry.expr = expr := by
  induction remains with
  | among _ sub ih => exact ih fun token member => spelled token (sub.subset member)
  | @leaf token expr picked =>
    unfold Read.leaf? at picked
    split at picked <;> cases picked
    case h_6 kind => simp [Expr.entry, Entry.expr, toExpr, identifier_of_kind kind]
    all_goals simp [Expr.entry, Entry.expr, toExpr, leaf_of_label]
  | binary _ listed member _ ihLeft ihRight =>
    simp only [List.forall_mem_append, List.forall_mem_cons] at spelled
    obtain ⟨before, spells, after⟩ := spelled
    obtain ⟨same, -⟩ := spells.operator (mem_operatorKinds_of_tier listed member)
    simp [Expr.entry, Entry.expr, exprs, toExpr, operator_of_lexeme same, ihLeft before,
      ihRight after]
  | unary sign _ ih =>
    obtain ⟨spells, behind⟩ := List.forall_mem_cons.mp spelled
    obtain ⟨same, -⟩ := spells.operator (mem_operatorKinds_of_sign sign)
    simp [Expr.entry, Entry.expr, exprs, toExpr, operator_of_lexeme same, ih behind]
  | grouping _ _ ih =>
    simp [Expr.entry, Entry.expr, exprs, toExpr, ofLabel_word,
      ih (List.forall_mem_cons.mp spelled).2]
  | assign named _ _ _ ihValue =>
    simp only [List.forall_mem_append, List.forall_mem_cons] at spelled
    simp [Expr.entry, Entry.expr, exprs, toExpr, identifier_of_kind named.name_kind,
      ihValue spelled.2.2]

theorem Expr.ofLabel_entry (expr : Expr) : ∃ label line below, expr.entry = .mk label line below ∧
    ofLabel label ≠ .missing ∧ ofLabel label ≠ .otherwise := by
  cases expr <;> exact ⟨_, _, _, rfl, by simp [ofLabel_word], by simp [ofLabel_word]⟩

theorem WholeRemains.whole_entry {tokens : List Token} {value : Option Expr}
    (remains : WholeRemains tokens value) (spelled : ∀ token ∈ tokens, token.Spelled) :
    (wholeEntry value).whole = value := by
  cases value with
  | none => simp [wholeEntry, whole, ofLabel_word]
  | some expr =>
    have built := ExprRemains.expr_entry remains spelled
    obtain ⟨label, line, below, entry, present, -⟩ := expr.ofLabel_entry
    rw [wholeEntry, entry, whole, if_neg present, ← entry, built]

/-- A value is no else, and is passed over as a statement. -/
theorem stmts_wholeEntry (value : Option Expr) {rest : List Entry} {behind : List Stmt}
    (found : stmts rest = (none, behind)) :
    ∃ passed, stmts (wholeEntry value :: rest) = (none, passed :: behind) := by
  have entry : ∃ label line below, wholeEntry value = .mk label line below ∧
      ofLabel label ≠ .otherwise := by
    cases value with
    | none => exact ⟨_, _, _, rfl, by simp [ofLabel_word]⟩
    | some expr =>
      obtain ⟨label, line, below, entry, -, first⟩ := expr.ofLabel_entry
      exact ⟨label, line, below, entry, first⟩
  obtain ⟨label, line, below, entry, first⟩ := entry
  rw [entry, stmts, found]
  exact ⟨_, if_neg first⟩

/-- In front of entries that begin with no else, the statement is built again from its own. -/
def Stmt.Rebuilt (stmt : Stmt) : Prop :=
  ∀ rest behind, Entry.stmts rest = (none, behind) →
    Entry.stmts (stmt.entries ++ rest) = (none, stmt :: behind)

theorem Stmt.Rebuilt.alone {stmt : Stmt} (rebuilt : stmt.Rebuilt) :
    Entry.stmts stmt.entries = (none, [stmt]) := by
  simpa using rebuilt [] [] (by rw [Entry.stmts])

theorem Stmt.rebuilt_all {stmts : List Stmt} (each : ∀ stmt ∈ stmts, stmt.Rebuilt) :
    Entry.stmts (entriesAll stmts) = (none, stmts) := by
  induction stmts with
  | nil => rw [entriesAll, Entry.stmts]
  | cons stmt rest ih =>
    obtain ⟨first, others⟩ := List.forall_mem_cons.mp each
    exact first _ _ (ih others)

theorem Stmt.rebuilt_of_entry {stmt : Stmt} {label : String} {line : Option Nat}
    {below : List Entry} (entries : stmt.entries = [.mk label line below])
    (first : ofLabel label ≠ .otherwise)
    (built : (ofLabel label).toStmt line (below.head?.bind whole) (stmts below).2 none = stmt) :
    stmt.Rebuilt := by
  intro rest behind found
  rw [entries, List.singleton_append, stmts, found]
  simp only [if_neg first, built]

theorem WholeRemains.rebuilt {tokens : List Token} {value : Option Expr}
    (remains : WholeRemains tokens value) (spelled : ∀ token ∈ tokens, token.Spelled) :
    (Stmt.expr value).Rebuilt := by
  refine Stmt.rebuilt_of_entry rfl (by simp [ofLabel_word]) ?_
  simp [toStmt, ofLabel_word, remains.whole_entry spelled]

theorem StmtRemains.rebuilt {tokens : List Token} {stmt : Stmt}
    (remains : StmtRemains tokens stmt) (spelled : ∀ token ∈ tokens, token.Spelled) :
    stmt.Rebuilt := by
  induction remains with
  | among _ sub ih => exact ih fun token member => spelled token (sub.subset member)
  | expr value => exact value.rebuilt spelled
  | @declare _ name _ named =>
    refine Stmt.rebuilt_of_entry rfl (by simp) ?_
    cases name with
    | none => simp [toStmt, stmts]
    | some token =>
      simp [toStmt, stmts, Stmt.nameText, identifier_of_kind (named token rfl)]
  | @declareAs _ _ name _ value _ named _ remains =>
    simp only [List.forall_mem_append, List.forall_mem_cons] at spelled
    have init : (Stmt.expr value).Rebuilt := remains.rebuilt spelled.2.2.2
    refine Stmt.rebuilt_of_entry rfl (by simp) ?_
    cases name with
    | none => simp [toStmt, init.alone]
    | some token => simp [toStmt, init.alone, Stmt.nameText, identifier_of_kind (named token rfl)]
  | forLoop _ _ _ _ _ ihInit ihCondition ihIncrement ihBody =>
    simp only [List.forall_mem_append, List.forall_mem_cons] at spelled
    obtain ⟨-, inits, conditions, increments, bodies⟩ := spelled
    have clauses := ihInit inits _ _ (ihCondition conditions _ _
      (ihIncrement increments _ _ (ihBody bodies).alone))
    refine Stmt.rebuilt_of_entry rfl (by simp [ofLabel_word]) ?_
    simp [toStmt, ofLabel_word, clauses]
  | @whileLoop _ _ _ condition _ _ remains _ ih | @ifThen _ _ _ condition _ _ remains _ ih =>
    simp only [List.forall_mem_append, List.forall_mem_cons] at spelled
    obtain ⟨passed, parts⟩ := stmts_wholeEntry condition (ih spelled.2.2).alone
    refine Stmt.rebuilt_of_entry rfl (by simp [ofLabel_word]) ?_
    simp [toStmt, ofLabel_word, remains.whole_entry spelled.2.1, parts]
  | @ifElse _ _ _ _ _ condition _ _ _ remains _ _ _ ihYes ihNo =>
    simp only [List.forall_mem_append, List.forall_mem_cons] at spelled
    obtain ⟨-, conditions, yeses, -, noes⟩ := spelled
    obtain ⟨passed, parts⟩ := stmts_wholeEntry condition (ihYes yeses).alone
    intro rest behind found
    rw [Stmt.entries, List.cons_append, stmts, List.cons_append, List.nil_append, stmts, found]
    simp [toStmt, ofLabel_word, remains.whole_entry conditions, parts, (ihNo noes).alone]
  | @block _ parts _ _ _ ih =>
    have inside := List.forall_mem_flatMap.mp (List.forall_mem_cons.mp spelled).2
    have each : ∀ stmt ∈ parts.map Prod.snd, stmt.Rebuilt :=
      List.forall_mem_map.mpr fun part member => ih part member (inside part member)
    refine Stmt.rebuilt_of_entry (Stmt.entries_block _) (by simp) ?_
    simp [toStmt, Slots.toList_ofList, Stmt.rebuilt_all each]

theorem stmts_entriesAll (source : String) (limits : Limits) :
    Entry.stmts (Stmt.entriesAll (parse source limits).statements.toList) =
      (none, (parse source limits).statements.toList) := by
  obtain ⟨parts, -, remains, tokens, stmts⟩ :=
    Read.program_remains limits.maxDepth (tokenize source)
  have whole : (parse source limits).statements.toList = parts.map Prod.snd := stmts
  rw [whole]
  have spelled := spelled_body source
  rw [tokens, List.forall_mem_flatMap] at spelled
  exact Stmt.rebuilt_all (List.forall_mem_map.mpr fun part member =>
    (remains part member).rebuilt (spelled part member))

/-- Outlines tell programs apart, whatever texts they were read from and under whatever limits,
with errors or without: rows that are equal in depth, label and line are those of statements
that are equal, and so are the tokens in them and their lines. -/
theorem outline_eq_iff (source source' : String) (limits limits' : Limits) :
    (parse source limits).outline = (parse source' limits').outline ↔
      (parse source limits).statements.toList = (parse source' limits').statements.toList := by
  constructor
  · intro same
    rw [Program.outline, Program.outline, outline_eq_rowsAll, outline_eq_rowsAll] at same
    have built := stmts_entriesAll source limits
    rw [rowsAll_inj same] at built
    exact congrArg Prod.snd (built.symm.trans (stmts_entriesAll source' limits'))
  · intro same
    rw [Program.outline, Program.outline, same]

/-- An else belongs to the branch whose depth it has. -/
example : (parse "if (a) if (b) c; else d;" {}).outline ≠
    (parse "if (a) { if (b) c; } else d;" {}).outline := by decide +kernel

end ScriptTree
