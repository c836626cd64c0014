import ScriptTree.Proofs.Forest
import ScriptTree.Proofs.PrintedForm

/-! What an outline accounts for, in any tree. It has a row for each node, one for each place
that lacks an expression and one for each else, and it marks whatever is missing. -/
namespace ScriptTree

namespace Stmt

def lacksExpr : Stmt → Bool
  | expr value | branch value _ _ | whileLoop value _ => value.isNone
  | block _ | forLoop .. | declare .. => false

def hasElse : Stmt → Bool
  | branch _ _ no => no.isSome
  | _ => false

end Stmt

/-- The row stands for an expression or a name that is missing. -/
def Row.marksMissing (row : Row) : Bool :=
  row.label = "<missing>" || row.label = "Var <missing>" && row.line = none

theorem Expr.length_outline (depth : Nat) (expr : Expr) :
    (expr.outline depth).length = expr.nodeCount := by
  induction expr generalizing depth with
  | binary operator left right ihLeft ihRight =>
    simp only [outline, nodeCount, List.length_cons, List.length_append, ihLeft, ihRight]
    omega
  | unary operator inner ih | grouping inner ih | assign target inner ih =>
    simp only [outline, nodeCount, List.length_cons, ih]
    omega
  | literal | name => rfl

theorem length_outlineExpr (depth : Nat) (value : Option Expr) :
    (outlineExpr depth value).length =
      (value.map Expr.nodeCount).getD 0 + if value.isNone then 1 else 0 := by
  cases value with
  | none => rfl
  | some expr => exact expr.length_outline depth

namespace Stmt

mutual

theorem length_outline (depth : Nat) : ∀ stmt : Stmt, (stmt.outline depth).length =
    stmt.nodeCount + stmt.parts.countP lacksExpr + stmt.parts.countP hasElse
  | block ⟨⟨body⟩, _⟩ => by
    simp [outline, nodeCount, parts, length_outlineAll (depth + 1) body, lacksExpr, hasElse]
    omega
  | expr value => by
    simp [outline, nodeCount, parts, length_outlineExpr, lacksExpr, hasElse, List.countP_cons]
    omega
  | branch condition yes none => by
    simp [outline, nodeCount, parts, length_outlineExpr, length_outline (depth + 1) yes, lacksExpr,
      hasElse, List.countP_cons]
    omega
  | branch condition yes (some no) => by
    simp [outline, nodeCount, parts, length_outlineExpr, length_outline (depth + 1) yes,
      length_outline (depth + 1) no, lacksExpr, hasElse, List.countP_cons]
    omega
  | whileLoop condition body => by
    simp [outline, nodeCount, parts, length_outlineExpr, length_outline (depth + 1) body,
      lacksExpr, hasElse, List.countP_cons]
    omega
  | forLoop init condition increment body => by
    simp [outline, nodeCount, parts, length_outline (depth + 1) init,
      length_outline (depth + 1) condition, length_outline (depth + 1) increment,
      length_outline (depth + 1) body, lacksExpr, hasElse]
    omega
  | declare _ none => rfl
  | declare _ (some init) => by
    simp [outline, nodeCount, parts, length_outline (depth + 1) init, lacksExpr, hasElse]
    omega

theorem length_outlineAll (depth : Nat) : ∀ stmts : List Stmt, (outlineAll depth stmts).length =
    nodeCountAll stmts + (partsAll stmts).countP lacksExpr + (partsAll stmts).countP hasElse
  | [] => rfl
  | stmt :: rest => by
    simp only [outlineAll, nodeCountAll, partsAll, List.length_append, List.countP_append,
      length_outline depth stmt, length_outlineAll depth rest]
    omega

end

theorem length_entries (stmt : Stmt) :
    stmt.entries.length = 1 + if stmt.hasElse then 1 else 0 := by
  cases stmt with
  | branch condition yes no => cases no <;> rfl
  | declare name init => cases init <;> rfl
  | _ => rfl

theorem length_entriesAll (stmts : List Stmt) :
    (entriesAll stmts).length = stmts.length + stmts.countP hasElse := by
  induction stmts with
  | nil => rfl
  | cons stmt rest ih =>
    rw [entriesAll, List.length_append, length_entries, ih, List.length_cons, List.countP_cons]
    omega

end Stmt

theorem Row.marksMissing_eq_false {depth : Nat} {label : String} {line : Option Nat}
    (present : Heading.ofLabel label ≠ .missing)
    (other : ∀ name, Heading.ofLabel label ≠ .declare name) :
    (Row.mk depth label line).marksMissing = false := by
  have first : label ≠ "<missing>" := by
    rintro rfl
    exact present (by decide)
  have second : label ≠ "Var <missing>" := by
    rintro rfl
    exact other "<missing>" (by decide)
  simp [marksMissing, first, second]

theorem Expr.any_marksMissing (depth : Nat) (expr : Expr) :
    (expr.outline depth).any Row.marksMissing = false := by
  induction expr generalizing depth with
  | binary operator left right ihLeft ihRight =>
    simp [outline, Row.marksMissing_eq_false, ihLeft, ihRight]
  | unary operator inner ih | assign target inner ih =>
    simp [outline, Row.marksMissing_eq_false, ih]
  | grouping inner ih => simp [outline, Row.marksMissing, ih]
  | literal | name => simp [outline, Row.marksMissing_eq_false]

theorem any_marksMissing_outlineExpr (depth : Nat) (value : Option Expr) :
    (outlineExpr depth value).any Row.marksMissing = value.isNone := by
  cases value with
  | none => rfl
  | some expr => exact expr.any_marksMissing depth

/-- A name that is missing is told from one that is spelled like the mark by its line. -/
theorem marksMissing_name (depth : Nat) (name : Option Token) :
    (Row.mk depth ("Var " ++ Stmt.nameText name) (name.map Token.line)).marksMissing =
      name.isNone := by
  cases name with
  | none => rfl
  | some token =>
    have missing : Heading.ofLabel "<missing>" = .missing := by decide
    have other : "Var " ++ Stmt.nameText (some token) ≠ "<missing>" := by
      intro same
      have heading := Heading.ofLabel_declare (Stmt.nameText (some token))
      rw [same, missing] at heading
      cases heading
    simp [Row.marksMissing, other]

namespace Stmt

mutual

theorem any_marksMissing (depth : Nat) : ∀ stmt : Stmt,
    (stmt.outline depth).any Row.marksMissing = stmt.hasMissing
  | block ⟨⟨body⟩, _⟩ => by
    simp [outline, hasMissing, Row.marksMissing_eq_false, any_marksMissingAll (depth + 1) body]
  | expr _ => by simp [outline, hasMissing, Row.marksMissing, any_marksMissing_outlineExpr]
  | branch _ yes none => by
    simp [outline, hasMissing, Row.marksMissing, any_marksMissing_outlineExpr,
      any_marksMissing (depth + 1) yes]
  | branch _ yes (some no) => by
    simp [outline, hasMissing, Row.marksMissing, any_marksMissing_outlineExpr,
      any_marksMissing (depth + 1) yes, any_marksMissing (depth + 1) no, Bool.or_assoc]
  | whileLoop _ body => by
    simp [outline, hasMissing, Row.marksMissing, any_marksMissing_outlineExpr,
      any_marksMissing (depth + 1) body]
  | forLoop init condition increment body => by
    simp [outline, hasMissing, Row.marksMissing, any_marksMissing (depth + 1) init,
      any_marksMissing (depth + 1) condition, any_marksMissing (depth + 1) increment,
      any_marksMissing (depth + 1) body, Bool.or_assoc]
  | declare _ none => by simp [outline, hasMissing, marksMissing_name]
  | declare _ (some init) => by
    simp [outline, hasMissing, marksMissing_name, any_marksMissing (depth + 1) init]

theorem any_marksMissingAll (depth : Nat) : ∀ stmts : List Stmt,
    (outlineAll depth stmts).any Row.marksMissing = anyMissing stmts
  | [] => rfl
  | stmt :: rest => by
    simp [outlineAll, anyMissing, any_marksMissing depth stmt, any_marksMissingAll depth rest]

end

end Stmt

/-- What the outline of any statements accounts for. It has a row for every node, every absent
expression and every else; its depths start at the top and go down by single steps; at the top
stand the statements and the else of each branch among them; and a row is marked exactly if
something is missing. -/
theorem outline_accounts (stmts : List Stmt) :
    let rows := outline stmts
    rows.length = Stmt.nodeCountAll stmts + (Stmt.partsAll stmts).countP Stmt.lacksExpr +
        (Stmt.partsAll stmts).countP Stmt.hasElse ∧
      (∀ row ∈ rows.head?, row.depth = 0) ∧
      rows.IsChain (fun row next => next.depth ≤ row.depth + 1) ∧
      rows.countP (fun row => row.depth = 0) = stmts.length + stmts.countP Stmt.hasElse ∧
      ((∃ stmt ∈ stmts, stmt.hasMissing = true) ↔ ∃ row ∈ rows,
        row.label = "<missing>" ∨ row.label = "Var <missing>" ∧ row.line = none) := by
  intro rows
  have listed : rows = Entry.rowsAll 0 (Stmt.entriesAll stmts) := outline_eq_rowsAll stmts
  have descends := Entry.descends_rowsAll 0 (Stmt.entriesAll stmts)
  rw [← listed] at descends
  refine ⟨Stmt.length_outlineAll 0 stmts, descends.first, descends.steps, ?_, ?_⟩
  · rw [listed, Entry.countP_rowsAll, Stmt.length_entriesAll]
  · rw [← Stmt.anyMissing_iff, ← Stmt.any_marksMissingAll 0, List.any_eq_true]
    simp [Row.marksMissing, rows, outline]

end ScriptTree
