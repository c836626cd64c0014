import ScriptTree.Reader.Expression
import ScriptTree.Tree.Stmt

/-! Reading statements:

    declaration ::= "var" name ( "=" expression )? ";" | statement
    statement   ::= "for" "(" clause statement statement ")" statement
                  | "while" "(" expression ")" statement
                  | "if" "(" expression ")" statement ( "else" statement )?
                  | "{" declaration* "}"
                  | expression ";"
    clause      ::= "var" name ( "=" expression )? ";" | statement

The rules take the readers of their parts as arguments; `statement` ties them
together, one level of room for each statement inside another. A rule always
answers with a statement, whose missing parts have been reported. -/
namespace ScriptTree.Read

def variableDeclaration (expression : Read (Option Expr)) : Read Stmt := do
  let name ← expect .identifier .expectVariableName
  match ← accept .equal with
  | some _ =>
    let value ← expression
    let _ ← expect .semicolon .expectEndOfDeclaration
    return .declare name (some (.expr value))
  | none =>
    let _ ← expect .semicolon .expectEndOfDeclaration
    return .declare name none

/-- A pending panic ends before a statement, but not before a `var`. -/
def declaration (expression : Read (Option Expr)) (statement : Read Stmt) : Read Stmt := do
  match ← accept .varWord with
  | some _ => variableDeclaration expression
  | none =>
    modify Cursor.recover
    statement

/-- Reads declarations up to a token of a closing kind or the end. Every round
consumes a token, so the unread tokens bound the number of rounds. -/
def declarations (declaration : Read Stmt) (closes : Kind → Bool) :
    List Token → Slots Stmt → Read (Slots Stmt)
  | [], done => return done
  | _ :: bound, done => do
    let cursor ← get
    if cursor.unread.isEmpty || closes cursor.next.kind then
      return done
    else
      let stmt ← declaration
      modify fun after => after.recover.progressSince cursor.consumed
      declarations declaration closes bound (done.push stmt)

def block (declaration : Read Stmt) : Read Stmt := do
  let body ← declarations declaration (· == .rightBrace) (← get).unread .empty
  let _ ← expect .rightBrace .expectEndOfBlock
  return .block body

/-- The first clause may declare a variable. It is no declaration otherwise, so
that a panic does not skip the rest of the header. -/
def forStatement (expression : Read (Option Expr)) (statement : Read Stmt) : Read Stmt := do
  let _ ← expect .leftParen .expectForHeader
  let init ← match ← accept .varWord with
    | some _ => variableDeclaration expression
    | none => statement
  let condition ← statement
  let increment ← statement
  let _ ← expect .rightParen .expectEndOfForHeader
  let body ← statement
  return .forLoop init condition increment body

def whileStatement (expression : Read (Option Expr)) (statement : Read Stmt) : Read Stmt := do
  let _ ← expect .leftParen .expectWhileHeader
  let condition ← expression
  let _ ← expect .rightParen .expectEndOfWhileHeader
  let body ← statement
  return .whileLoop condition body

/-- An `else` belongs to the nearest `if`. -/
def ifStatement (expression : Read (Option Expr)) (statement : Read Stmt) : Read Stmt := do
  let _ ← expect .leftParen .expectIfHeader
  let condition ← expression
  let _ ← expect .rightParen .expectEndOfIfHeader
  let yes ← statement
  match ← accept .elseWord with
  | some _ =>
    let no ← statement
    return .branch condition yes (some no)
  | none => return .branch condition yes none

def expressionStatement (expression : Read (Option Expr)) : Read Stmt := do
  let value ← expression
  let _ ← expect .semicolon .expectEndOfExpression
  return .expr value

inductive Opening where
  | forLoop
  | whileLoop
  | branch
  | block

def Opening.of? (token : Token) : Option Opening :=
  match token.kind with
  | .forWord => some .forLoop
  | .whileWord => some .whileLoop
  | .ifWord => some .branch
  | .leftBrace => some .block
  | _ => none

def statementWith (expression : Read (Option Expr)) (statement : Read Stmt) : Read Stmt := do
  match ← take? Opening.of? with
  | some .forLoop => forStatement expression statement
  | some .whileLoop => whileStatement expression statement
  | some .branch => ifStatement expression statement
  | some .block => block (declaration expression statement)
  | none => expressionStatement expression

def statement : Nat → Read Stmt
  | 0 => do
    complain .tooMuchNesting
    return .missing
  | room + 1 => statementWith (expression room) (statement room)

def program (room : Nat) : Read (Slots Stmt) := do
  declarations (declaration (expression room) (statement room)) (fun _ => false)
    (← get).unread .empty

end ScriptTree.Read
