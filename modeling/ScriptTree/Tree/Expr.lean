import ScriptTree.Token

/-! Expressions. Operators and names keep their tokens; a literal keeps only
its text, which for a truth value and for null is not the word that was read. -/
namespace ScriptTree

inductive Literal where
  | bool
  | null
  | number
  | string
deriving DecidableEq, Repr

def Literal.name : Literal → String
  | .bool => "Bool"
  | .null => "Null"
  | .number => "Number"
  | .string => "String"

inductive Expr where
  | binary (operator : Token) (left right : Expr)
  | unary (operator : Token) (right : Expr)
  | literal (kind : Literal) (text : String)
  | name (token : Token)
  | grouping (inner : Expr)
  | assign (target : Token) (value : Expr)
deriving DecidableEq, Repr

def missingText : String := "<missing>"

namespace Expr

def nodeCount : Expr → Nat
  | binary _ left right => 1 + (left.nodeCount + right.nodeCount)
  | unary _ right => 1 + right.nodeCount
  | grouping inner => 1 + inner.nodeCount
  | assign _ value => 1 + value.nodeCount
  | literal .. | name _ => 1

/-- The line of the first token an expression carries, if it carries one. -/
def line? : Expr → Option Nat
  | binary operator left _ => left.line?.or (some operator.line)
  | unary operator _ => some operator.line
  | name token | assign token _ => some token.line
  | grouping inner => inner.line?
  | literal .. => none

/-- The operator first and parentheses around everything that has parts. -/
def text : Expr → String
  | binary operator left right => "(" ++ operator.lexeme ++ " " ++ left.text ++ " " ++ right.text ++ ")"
  | unary operator right => "(" ++ operator.lexeme ++ " " ++ right.text ++ ")"
  | literal _ text => text
  | name token => token.lexeme
  | grouping inner => "(group " ++ inner.text ++ ")"
  | assign target value => "(= " ++ target.lexeme ++ " " ++ value.text ++ ")"

end Expr

def exprText (expr : Option Expr) : String :=
  (expr.map Expr.text).getD missingText

end ScriptTree
