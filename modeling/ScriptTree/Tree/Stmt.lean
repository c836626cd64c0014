import ScriptTree.Slots
import ScriptTree.Tree.Expr

/-! Statements. An absent expression or name marks a place that could not be
read. The clauses of a `for` are whole statements, and an initializer is a
statement too. -/
namespace ScriptTree

inductive Stmt where
  | block (body : Slots Stmt)
  | expr (value : Option Expr)
  | branch (condition : Option Expr) (yes : Stmt) (no : Option Stmt)
  | whileLoop (condition : Option Expr) (body : Stmt)
  | forLoop (init condition increment body : Stmt)
  | declare (name : Option Token) (init : Option Stmt)

namespace Stmt

def missing : Stmt := expr none

mutual

def nodeCount : Stmt → Nat
  | block ⟨⟨body⟩, _⟩ => 1 + nodeCountAll body
  | expr value => 1 + (value.map Expr.nodeCount).getD 0
  | branch condition yes none => 1 + ((condition.map Expr.nodeCount).getD 0 + yes.nodeCount)
  | branch condition yes (some no) =>
    1 + ((condition.map Expr.nodeCount).getD 0 + yes.nodeCount + no.nodeCount)
  | whileLoop condition body => 1 + ((condition.map Expr.nodeCount).getD 0 + body.nodeCount)
  | forLoop init condition increment body =>
    1 + (init.nodeCount + condition.nodeCount + increment.nodeCount + body.nodeCount)
  | declare _ none => 1
  | declare _ (some init) => 1 + init.nodeCount

def nodeCountAll : List Stmt → Nat
  | [] => 0
  | stmt :: rest => stmt.nodeCount + nodeCountAll rest

end

mutual

/-- Whether an expression or a name is missing anywhere in a statement. -/
def hasMissing : Stmt → Bool
  | block ⟨⟨body⟩, _⟩ => anyMissing body
  | expr value => value.isNone
  | branch condition yes none => condition.isNone || yes.hasMissing
  | branch condition yes (some no) => condition.isNone || yes.hasMissing || no.hasMissing
  | whileLoop condition body => condition.isNone || body.hasMissing
  | forLoop init condition increment body =>
    init.hasMissing || condition.hasMissing || increment.hasMissing || body.hasMissing
  | declare name none => name.isNone
  | declare name (some init) => name.isNone || init.hasMissing

def anyMissing : List Stmt → Bool
  | [] => false
  | stmt :: rest => stmt.hasMissing || anyMissing rest

end

def nameText (name : Option Token) : String :=
  (name.map Token.lexeme).getD missingText

mutual

/-- A statement in one line, its keyword first. An initializer that is an
expression shows only its value. -/
def text : Stmt → String
  | block ⟨⟨body⟩, _⟩ => "(block" ++ textAll body ++ ")"
  | expr value => "(expr " ++ exprText value ++ ")"
  | branch condition yes none => "(if " ++ exprText condition ++ " " ++ yes.text ++ ")"
  | branch condition yes (some no) =>
    "(if " ++ exprText condition ++ " " ++ yes.text ++ " " ++ no.text ++ ")"
  | whileLoop condition body => "(while " ++ exprText condition ++ " " ++ body.text ++ ")"
  | forLoop init condition increment body =>
    "(for " ++ init.text ++ " " ++ condition.text ++ " " ++ increment.text ++ " " ++ body.text ++ ")"
  | declare name none => "(var " ++ nameText name ++ ")"
  | declare name (some init) =>
    let value := match init with
      | expr value => exprText value
      | _ => init.text
    "(var " ++ nameText name ++ " " ++ value ++ ")"

def textAll : List Stmt → String
  | [] => ""
  | stmt :: rest => " " ++ stmt.text ++ textAll rest

end

theorem anyMissing_iff (stmts : List Stmt) :
    anyMissing stmts = true ↔ ∃ stmt ∈ stmts, stmt.hasMissing = true := by
  induction stmts with
  | nil => simp [anyMissing]
  | cons stmt rest ih => simp [anyMissing, ih]

end Stmt

end ScriptTree
