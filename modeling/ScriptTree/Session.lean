import ScriptTree.Program

/-! A session reads one text after another under the same limits. It holds the
tokens and the program of the last text until the program is taken or the
session is reset, and nothing of what came before. -/
namespace ScriptTree

structure Session where
  limits : Limits := {}
  tokens : List Token := []
  consumed : Nat := 0
  panicking : Bool := false
  program : Program := {}

namespace Session

def fresh (limits : Limits) : Session where
  limits := limits

def reset (session : Session) : Session :=
  fresh session.limits

def parse (session : Session) (source : String) : Session :=
  let tokens := tokenize source
  let (statements, cursor) := readTokens session.limits tokens
  { limits := session.limits
    tokens := tokens.toList
    consumed := cursor.consumed
    panicking := cursor.panicking
    program := .ofReading statements cursor }

/-- Hands the program over and leaves the session as new. -/
def take (session : Session) : Program × Session :=
  (session.program, session.reset)

/-- The first token that was not consumed, unless no text was read. -/
def next? (session : Session) : Option Token :=
  session.tokens[session.consumed]?

end Session

end ScriptTree
