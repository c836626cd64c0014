import ScriptTree.Token

/-! What a reader is told about a text that is not a script: the line, the
place and a message. -/
namespace ScriptTree

inductive Site where
  | atEnd
  | lexical
  | token (lexeme : String)
deriving DecidableEq, Repr

def Site.text : Site → String
  | .atEnd => " at end"
  | .lexical => ""
  | .token lexeme => " at '" ++ lexeme ++ "'"

structure Diagnostic where
  line : Nat
  site : Site
  message : String
deriving DecidableEq, Repr

/-- A diagnostic found at a token. An error token speaks for itself: its lexeme
takes the place of the message. -/
def Diagnostic.ofToken (token : Token) (message : String) : Diagnostic :=
  match token.kind with
  | .endOfInput => ⟨token.line, .atEnd, message⟩
  | .error => ⟨token.line, .lexical, token.lexeme⟩
  | _ => ⟨token.line, .token token.lexeme, message⟩

def Diagnostic.text (diagnostic : Diagnostic) : String :=
  "[line " ++ toString diagnostic.line ++ "] Error" ++ diagnostic.site.text ++ ": " ++
    diagnostic.message

/-- Everything the grammar can object to. -/
inductive Complaint where
  | expectExpression
  | invalidTarget
  | tooMuchNesting
  | expectVariableName
  | expectEndOfDeclaration
  | expectEndOfExpression
  | expectEndOfGroup
  | expectEndOfBlock
  | expectForHeader
  | expectEndOfForHeader
  | expectWhileHeader
  | expectEndOfWhileHeader
  | expectIfHeader
  | expectEndOfIfHeader
deriving DecidableEq, Repr

def Complaint.message : Complaint → String
  | .expectExpression => "Expect expression."
  | .invalidTarget => "Invalid assignment target."
  | .tooMuchNesting => "Too much nesting."
  | .expectVariableName => "Expect variable name."
  | .expectEndOfDeclaration => "Expect ';' after variable declaration."
  | .expectEndOfExpression => "Expect ';' after expression."
  | .expectEndOfGroup => "Expect ')' after expression."
  | .expectEndOfBlock => "Expect '\x7d' after block."
  | .expectForHeader => "Expect '(' after 'for'."
  | .expectEndOfForHeader => "Expect ')' after for condition."
  | .expectWhileHeader => "Expect '(' after 'while'."
  | .expectEndOfWhileHeader => "Expect ')' after while condition."
  | .expectIfHeader => "Expect '(' after 'if'."
  | .expectEndOfIfHeader => "Expect ')' after if condition."

end ScriptTree
