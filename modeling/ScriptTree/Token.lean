/-! Tokens of the script language: a kind, the text it was read from and the
line on which that text ends. -/
namespace ScriptTree

inductive Kind where
  | leftParen | rightParen | leftBrace | rightBrace | leftBracket | rightBracket
  | comma | dot | minus | plus | semicolon | slash | star
  | bang | bangEqual | equal | equalEqual | greater | greaterEqual | less | lessEqual
  | identifier | string | number
  | andWord | classWord | elseWord | falseWord | funWord | forWord | ifWord | nullWord
  | orWord | returnWord | sourceWord | superWord | thisWord | trueWord | varWord | whileWord
  | error | endOfInput
deriving DecidableEq, Repr

/-- An error token has no text of its own: its lexeme says what is wrong. -/
structure Token where
  kind : Kind
  lexeme : String
  line : Nat
deriving DecidableEq, Repr

def Token.describe (token : Token) : String :=
  match token.kind with
  | .endOfInput => "end of input"
  | .error => "error: " ++ token.lexeme
  | _ => "'" ++ token.lexeme ++ "'"

/-- The tokens of a text, with the end of input kept apart because it is never
consumed. -/
structure Tokens where
  body : List Token
  stop : Token
deriving DecidableEq

def Tokens.toList (tokens : Tokens) : List Token :=
  tokens.body ++ [tokens.stop]

end ScriptTree
