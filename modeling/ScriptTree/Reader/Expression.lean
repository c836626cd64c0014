import ScriptTree.Reader.Cursor
import ScriptTree.Tree.Expr

/-! Reading expressions:

    assignment ::= name "=" assignment | chain of the loosest tier
    chain      ::= operand ( operator operand )*     one tier tighter each
    unary      ::= ( "!" | "-" ) unary | primary
    primary    ::= literal | name | "(" assignment ")"

Each step inwards takes one level of the room that is left, and so does each
operator of a chain until the chain ends. A rule that answers nothing has
reported why, or was already panicking. -/
namespace ScriptTree.Read

/-- The operators of the binary tiers, the loosest first. -/
def tiers : List (List Kind) :=
  [[.bangEqual, .equalEqual],
   [.greater, .greaterEqual, .less, .lessEqual],
   [.minus, .plus],
   [.slash, .star]]

@[simp] theorem length_tiers : tiers.length = 4 := rfl

def leaf? (token : Token) : Option Expr :=
  match token.kind with
  | .falseWord => some (.literal .bool "0")
  | .trueWord => some (.literal .bool "1")
  | .nullWord => some (.literal .null "NULL")
  | .number => some (.literal .number token.lexeme)
  | .string => some (.literal .string token.lexeme)
  | .identifier => some (.name token)
  | _ => none

mutual

/-- Only a bare name can be assigned to. After any other target the equals sign
is reported and what follows it is left unread. -/
def assignment (room : Nat) : Read (Option Expr) := do
  let some target ← chain room tiers | return none
  let some equals ← accept .equal | return some target
  match target with
  | .name name =>
    let some value ← nested room fun inner _ => assignment inner | return none
    return some (.assign name value)
  | _ =>
    modify (·.report equals .invalidTarget)
    return some target
termination_by room * 8 + 7
decreasing_by
  · simp only [length_tiers]; omega
  · omega

/-- A chain of the first tier, its operands chains of the tighter ones. -/
def chain (room : Nat) : List (List Kind) → Read (Option Expr)
  | [] => unary room
  | operators :: tighter => do
    let some left ← chain room tighter | return none
    chainRest room operators tighter left
termination_by levels => room * 8 + 2 + levels.length

/-- Folds what follows to the left: the chain so far is the left operand of the
next operator. -/
def chainRest (room : Nat) (operators : List Kind) (tighter : List (List Kind)) (left : Expr) :
    Read (Option Expr) := do
  let some operator ← acceptAny operators | return some left
  nested room fun inner _ => do
    let some right ← chain inner tighter | return none
    chainRest inner operators tighter (.binary operator left right)
termination_by room * 8 + 2 + tighter.length

def unary (room : Nat) : Read (Option Expr) := do
  let some operator ← acceptAny [.bang, .minus] | primary room
  let some right ← nested room fun inner _ => unary inner | return none
  return some (.unary operator right)
termination_by room * 8 + 1

def primary (room : Nat) : Read (Option Expr) := do
  match ← take? leaf? with
  | some leaf => return some leaf
  | none =>
    match ← accept .leftParen with
    | some _ =>
      let some inner ← nested room fun inner _ => assignment inner | return none
      let _ ← expect .rightParen .expectEndOfGroup
      return some (.grouping inner)
    | none =>
      complain .expectExpression
      return none
termination_by room * 8

end

/-- A whole expression is one level inside what holds it. -/
def expression (room : Nat) : Read (Option Expr) :=
  nested room fun inner _ => assignment inner

end ScriptTree.Read
