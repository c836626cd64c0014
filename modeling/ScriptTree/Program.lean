import ScriptTree.Reader.Statement
import ScriptTree.Token.Scan
import ScriptTree.Tree.Outline

/-! Reading a whole text. A text always gives statements: where it is no script
the tree is a best effort and the error flag is raised. -/
namespace ScriptTree

structure Limits where
  maxDepth : Nat := 256
deriving DecidableEq, Repr

/-- A limit that is asked for is at least one level. -/
def Limits.ofDepth (depth : Nat) : Limits :=
  ⟨max depth 1⟩

structure Program where
  statements : Slots Stmt := .empty
  hadError : Bool := false
  diagnostics : List Diagnostic := []

def Program.isValid (program : Program) : Bool :=
  !program.hadError

def Program.nodeCount (program : Program) : Nat :=
  Stmt.nodeCountAll program.statements.toList

def Program.outline (program : Program) : List Row :=
  ScriptTree.outline program.statements.toList

def readTokens (limits : Limits) (tokens : Tokens) : Slots Stmt × Cursor :=
  Read.program limits.maxDepth (.start tokens)

/-- The diagnostics of a program stand in the order in which they were found. -/
def Program.ofReading (statements : Slots Stmt) (cursor : Cursor) : Program :=
  ⟨statements, cursor.hadError, cursor.reported.reverse⟩

def parse (source : String) (limits : Limits) : Program :=
  let (statements, cursor) := readTokens limits (tokenize source)
  .ofReading statements cursor

end ScriptTree
