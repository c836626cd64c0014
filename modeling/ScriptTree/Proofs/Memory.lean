import ScriptTree.Proofs.Charged
import ScriptTree.Proofs.Remains
import ScriptTree.Session

/-! A session has no memory. Whatever was read, taken or reset before, a text is read as by a
new session: nothing is left of the tokens, the tree or the diagnostics of an earlier one, and
at the end of every text, valid or not, the panic is over and all the levels are left. -/
namespace ScriptTree

/-- A session with the state of its reader laid open. The readers of a text start from these
fields as they find them, and put them back as they leave them. -/
structure Parser where
  limits : Limits
  tokens : List Token := []
  consumed : Nat := 0
  panicking : Bool := false
  hadError : Bool := false
  depth : Nat := 0
  statements : Slots Stmt := .empty
  diagnostics : List Diagnostic := []

inductive Call where
  | parse (source : String)
  | reset
  | take

def Session.call (session : Session) : Call → Session
  | .parse source => session.parse source
  | .reset => session.reset
  | .take => session.take.2

namespace Parser

def fresh (limits : Limits) : Parser where
  limits := limits

def reset (parser : Parser) : Parser :=
  { parser with
    statements := parser.statements.clear
    diagnostics := []
    tokens := []
    consumed := 0
    panicking := false
    hadError := false
    depth := 0 }

/-- Where the parser stands. The last of its tokens is the end of input. -/
def cursor (parser : Parser) : Cursor where
  unread := parser.tokens.dropLast.drop parser.consumed
  stop := parser.tokens.getLastD ⟨.endOfInput, "", 1⟩
  consumed := parser.consumed
  panicking := parser.panicking
  hadError := parser.hadError
  reported := parser.diagnostics.reverse
  account := { depth := parser.depth }

def stopAt (parser : Parser) (statements : Slots Stmt) (cursor : Cursor) : Parser :=
  { parser with
    consumed := cursor.consumed
    panicking := cursor.panicking
    hadError := cursor.hadError
    depth := cursor.account.depth
    statements := statements
    diagnostics := cursor.reported.reverse }

def run (parser : Parser) : Parser :=
  let limit := parser.limits.maxDepth
  let declaration := Read.declaration (Charged.expression limit limit) (Charged.statement limit limit)
  let read := Read.sequence declaration (fun _ => false) parser.statements parser.cursor
  parser.stopAt read.1 read.2

def parse (parser : Parser) (source : String) : Parser :=
  run { parser.reset with tokens := (tokenize source).toList }

def take (parser : Parser) : Program × Parser :=
  let program := ⟨parser.statements, parser.hadError, parser.diagnostics⟩
  (program, reset { parser with statements := .empty, diagnostics := [] })

def call (parser : Parser) : Call → Parser
  | .parse source => parser.parse source
  | .reset => parser.reset
  | .take => parser.take.2

def session (parser : Parser) : Session where
  limits := parser.limits
  tokens := parser.tokens
  consumed := parser.consumed
  panicking := parser.panicking
  program := ⟨parser.statements, parser.hadError, parser.diagnostics⟩

theorem call_limits (parser : Parser) (call : Call) : (parser.call call).limits = parser.limits := by
  cases call <;> rfl

theorem calls_limits (parser : Parser) (calls : List Call) :
    (calls.foldl call parser).limits = parser.limits := by
  induction calls generalizing parser with
  | nil => rfl
  | cons call rest ih => exact (ih _).trans (parser.call_limits call)

theorem call_fresh (parser : Parser) (call : Call) :
    parser.call call = (fresh parser.limits).call call := by
  cases call <;> rfl

theorem cursor_loaded (limits : Limits) (tokens : Tokens) :
    cursor { fresh limits with tokens := tokens.toList } = .start tokens := by
  simp [cursor, fresh, Tokens.toList, Cursor.start, List.getLastD_eq_getLast?]

theorem parse_eq (parser : Parser) (source : String) :
    parser.parse source =
      { limits := parser.limits
        tokens := (tokenize source).toList
        consumed := (readTokens parser.limits (tokenize source)).2.consumed
        panicking := (readTokens parser.limits (tokenize source)).2.panicking
        hadError := (readTokens parser.limits (tokenize source)).2.hadError
        depth := 0
        statements := (readTokens parser.limits (tokenize source)).1
        diagnostics := (readTokens parser.limits (tokenize source)).2.reported.reverse } := by
  obtain ⟨account, read, level, -⟩ :=
    Charged.program_balanced parser.limits.maxDepth (tokenize source)
  let loaded : Parser := { fresh parser.limits with tokens := (tokenize source).toList }
  calc
    parser.parse source =
        loaded.stopAt (Charged.program parser.limits.maxDepth loaded.cursor).1
          (Charged.program parser.limits.maxDepth loaded.cursor).2 := rfl
    _ = _ := by
      rw [cursor_loaded, read, stopAt]
      simp only [Cursor.charge, level]
      rfl

theorem session_call (parser : Parser) (call : Call) :
    (parser.call call).session = parser.session.call call := by
  cases call with
  | parse source =>
    change (parser.parse source).session = _
    rw [parse_eq]
    rfl
  | reset => rfl
  | take => rfl

theorem parse_ends (limits : Limits) (source : String) :
    let parser := (fresh limits).parse source
    (parser.tokens[parser.consumed]?.map Token.kind) = some .endOfInput ∧ parser.depth = 0 ∧
      parser.panicking = false ∧ parser.take = (ScriptTree.parse source limits, fresh limits) := by
  obtain ⟨-, consumed, calm⟩ := Read.program_ends limits.maxDepth (tokenize source)
  intro parser
  have ended : parser = _ := parse_eq (fresh limits) source
  rw [ended]
  refine ⟨?_, rfl, calm, rfl⟩
  change ((tokenize source).toList[(Read.program limits.maxDepth _).2.consumed]?.map Token.kind) = _
  rw [consumed, Tokens.toList, List.getElem?_append_right (Nat.le_refl _), Nat.sub_self]
  rfl

/-- After any calls a session is as new, or as if the last text had been its first. In front of
the end of input it is calm and on no level, and it hands over the program of that text. -/
theorem no_memory (limits : Limits) (calls : List Call) :
    let parser := calls.foldl call (fresh limits)
    parser.session = calls.foldl Session.call (.fresh limits) ∧
    match calls.getLast? with
    | some (.parse source) =>
      parser = (fresh limits).parse source ∧
        (parser.tokens[parser.consumed]?.map Token.kind) = some .endOfInput ∧
        parser.depth = 0 ∧ parser.panicking = false ∧
        parser.take = (ScriptTree.parse source limits, fresh limits)
    | _ => parser = fresh limits ∧ parser.take = ({}, fresh limits) := by
  intro parser
  refine ⟨(List.foldl_hom session fun parser call => (parser.session_call call).symm).symm, ?_⟩
  rcases calls.eq_nil_or_concat' with rfl | ⟨before, last, rfl⟩
  · exact ⟨rfl, rfl⟩
  have left : parser = (fresh limits).call last := by
    have last_call : parser = (before.foldl call (fresh limits)).call last :=
      List.foldl_concat call (fresh limits) last before
    rw [last_call, call_fresh, calls_limits]
    rfl
  rw [List.getLast?_concat, left]
  cases last with
  | parse source => exact ⟨rfl, parse_ends limits source⟩
  | reset => exact ⟨rfl, rfl⟩
  | take => exact ⟨rfl, rfl⟩

end Parser

end ScriptTree
