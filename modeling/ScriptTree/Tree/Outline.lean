import ScriptTree.Tree.Stmt

/-! The outline of a tree: one labelled row for each node, each child one step
deeper than its parent. An `Else` row stands at the depth of its `If`. -/
namespace ScriptTree

structure Row where
  depth : Nat
  label : String
  line : Option Nat
deriving DecidableEq, Repr

def Expr.outline (depth : Nat) : Expr → List Row
  | .binary operator left right =>
    ⟨depth, "Binary " ++ operator.lexeme, some operator.line⟩ ::
      (left.outline (depth + 1) ++ right.outline (depth + 1))
  | .unary operator right =>
    ⟨depth, "Unary " ++ operator.lexeme, some operator.line⟩ :: right.outline (depth + 1)
  | .literal kind text => [⟨depth, "Literal " ++ kind.name ++ " " ++ text, none⟩]
  | .name token => [⟨depth, "Variable " ++ token.lexeme, some token.line⟩]
  | .grouping inner => ⟨depth, "Grouping", inner.line?⟩ :: inner.outline (depth + 1)
  | .assign target value =>
    ⟨depth, "Assign " ++ target.lexeme, some target.line⟩ :: value.outline (depth + 1)

/-- A missing expression has a row of its own. -/
def outlineExpr (depth : Nat) : Option Expr → List Row
  | some expr => expr.outline depth
  | none => [⟨depth, missingText, none⟩]

namespace Stmt

mutual

def outline (depth : Nat) : Stmt → List Row
  | block ⟨⟨body⟩, _⟩ =>
    ⟨depth, "Block [" ++ toString body.length ++ "]", none⟩ :: outlineAll (depth + 1) body
  | expr value => ⟨depth, "Expr", value.bind Expr.line?⟩ :: outlineExpr (depth + 1) value
  | branch condition yes none =>
    ⟨depth, "If", condition.bind Expr.line?⟩ ::
      (outlineExpr (depth + 1) condition ++ yes.outline (depth + 1))
  | branch condition yes (some no) =>
    ⟨depth, "If", condition.bind Expr.line?⟩ ::
      (outlineExpr (depth + 1) condition ++ yes.outline (depth + 1) ++
        ⟨depth, "Else", none⟩ :: no.outline (depth + 1))
  | whileLoop condition body =>
    ⟨depth, "While", condition.bind Expr.line?⟩ ::
      (outlineExpr (depth + 1) condition ++ body.outline (depth + 1))
  | forLoop init condition increment body =>
    ⟨depth, "For", none⟩ ::
      (init.outline (depth + 1) ++ condition.outline (depth + 1) ++
        increment.outline (depth + 1) ++ body.outline (depth + 1))
  | declare name none => [⟨depth, "Var " ++ nameText name, name.map Token.line⟩]
  | declare name (some init) =>
    ⟨depth, "Var " ++ nameText name, name.map Token.line⟩ :: init.outline (depth + 1)

def outlineAll (depth : Nat) : List Stmt → List Row
  | [] => []
  | stmt :: rest => stmt.outline depth ++ outlineAll depth rest

end

end Stmt

def outline (stmts : List Stmt) : List Row :=
  Stmt.outlineAll 0 stmts

end ScriptTree
