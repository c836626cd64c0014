import ScriptTree.Diagnostic

/-! Where a reader stands in the tokens and what it has reported. After a
report the reader panics: it keeps quiet until it has skipped to the next
statement boundary, so that one mistake is reported once. -/
namespace ScriptTree

/-- The levels that were entered and not left again, the most that ever were, and
how often one was refused. Only a reader that charges for its levels keeps it. -/
structure Account where
  depth : Nat := 0
  deepest : Nat := 0
  refusals : Nat := 0

/-- The end of input is not among the unread tokens and is never consumed. The
latest report comes first. -/
structure Cursor where
  unread : List Token
  stop : Token
  consumed : Nat := 0
  panicking : Bool := false
  hadError : Bool := false
  reported : List Diagnostic := []
  account : Account := {}

namespace Cursor

def start (tokens : Tokens) : Cursor where
  unread := tokens.body
  stop := tokens.stop

def next (cursor : Cursor) : Token :=
  cursor.unread.headD cursor.stop

def advance (cursor : Cursor) : Cursor :=
  match cursor.unread with
  | [] => cursor
  | _ :: rest => { cursor with unread := rest, consumed := cursor.consumed + 1 }

def report (cursor : Cursor) (token : Token) (complaint : Complaint) : Cursor :=
  if cursor.panicking then cursor
  else
    { cursor with
      panicking := true
      hadError := true
      reported := Diagnostic.ofToken token complaint.message :: cursor.reported }

/-- Skipping stops before these words. -/
def opensStatement : Kind → Bool
  | .classWord | .funWord | .varWord | .ifWord | .whileWord | .returnWord => true
  | _ => false

/-- Skips to a statement boundary, counting what it skips: behind the next
semicolon or before a word that opens a statement. -/
def skipStatement (skipped : Nat) : List Token → List Token × Nat
  | [] => ([], skipped)
  | token :: rest =>
    if token.kind = .semicolon then (rest, skipped + 1)
    else if opensStatement token.kind then (token :: rest, skipped)
    else skipStatement (skipped + 1) rest

def synchronize (cursor : Cursor) : Cursor :=
  let (rest, skipped) := skipStatement 0 cursor.unread
  { cursor with unread := rest, consumed := cursor.consumed + skipped, panicking := false }

def recover (cursor : Cursor) : Cursor :=
  if cursor.panicking then cursor.synchronize else cursor

/-- Passes over one token if nothing was consumed since `before`. -/
def progressSince (before : Nat) (cursor : Cursor) : Cursor :=
  if cursor.consumed = before then cursor.advance else cursor

end Cursor

abbrev Read := StateM Cursor

namespace Read

variable {α : Type}

/-- Consumes the next token if `pick` makes something of it. -/
def take? (pick : Token → Option α) : Read (Option α) := fun cursor =>
  match cursor.unread with
  | [] => (none, cursor)
  | token :: _ =>
    match pick token with
    | some picked => (some picked, cursor.advance)
    | none => (none, cursor)

def accept (kind : Kind) : Read (Option Token) :=
  take? fun token => if token.kind = kind then some token else none

def acceptAny (kinds : List Kind) : Read (Option Token) :=
  take? fun token => if token.kind ∈ kinds then some token else none

/-- Reports at the next token. -/
def complain (complaint : Complaint) : Read Unit :=
  modify fun cursor => cursor.report cursor.next complaint

/-- Consumes a token of the kind, or reports the token that stands in its
place and leaves it. -/
def expect (kind : Kind) (complaint : Complaint) : Read (Option Token) := do
  match ← accept kind with
  | some token => return some token
  | none =>
    complain complaint
    return none

def nested (room : Nat) (body : (inner : Nat) → inner < room → Read (Option α)) :
    Read (Option α) :=
  match room with
  | 0 => do
    complain .tooMuchNesting
    return none
  | inner + 1 => body inner (Nat.lt_succ_self inner)

end Read

end ScriptTree
