import ScriptTree.Token

/-! Cutting a text into tokens. A text is a row of pieces, each a gap of blanks
and comments followed by the characters of one token, and a last gap before the
end. Every piece is the longest one that starts where the gap ends, and no
character is lost: the gaps and the texts of the pieces spell the source. -/
namespace ScriptTree

inductive Fault where
  | unexpectedCharacter
  | unterminatedString
deriving DecidableEq, Repr

def Fault.message : Fault → String
  | .unexpectedCharacter => "Unexpected character."
  | .unterminatedString => "Unterminated string."

/-- The characters of one token, the gap before them, and the line on which
they end. -/
structure Piece where
  gap : List Char
  text : List Char
  reading : Except Fault Kind
  line : Nat

def Piece.token (piece : Piece) : Token :=
  match piece.reading with
  | .ok kind => ⟨kind, String.ofList piece.text, piece.line⟩
  | .error fault => ⟨.error, fault.message, piece.line⟩

def isWordStart (c : Char) : Bool :=
  c.isAlpha || c == '_'

def isWordPart (c : Char) : Bool :=
  c.isAlphanum || c == '_'

def isBlank (c : Char) : Bool :=
  c == ' ' || c == '\t' || c == '\r' || c == '\n'

def keywords : List (String × Kind) :=
  [("and", .andWord), ("class", .classWord), ("else", .elseWord), ("false", .falseWord),
   ("fun", .funWord), ("for", .forWord), ("if", .ifWord), ("null", .nullWord),
   ("or", .orWord), ("return", .returnWord), ("source", .sourceWord), ("super", .superWord),
   ("this", .thisWord), ("true", .trueWord), ("var", .varWord), ("while", .whileWord)]

/-- A word is an identifier unless the language keeps it for itself. -/
def wordKind (word : String) : Kind :=
  (keywords.lookup word).getD .identifier

def symbolKind? : Char → Option Kind
  | '(' => some .leftParen
  | ')' => some .rightParen
  | '{' => some .leftBrace
  | '}' => some .rightBrace
  | '[' => some .leftBracket
  | ']' => some .rightBracket
  | ',' => some .comma
  | '.' => some .dot
  | '-' => some .minus
  | '+' => some .plus
  | ';' => some .semicolon
  | '/' => some .slash
  | '*' => some .star
  | '!' => some .bang
  | '=' => some .equal
  | '<' => some .less
  | '>' => some .greater
  | _ => none

/-- The kind a symbol has when an equals sign follows it directly. -/
def Kind.beforeEqual? : Kind → Option Kind
  | .bang => some .bangEqual
  | .equal => some .equalEqual
  | .less => some .lessEqual
  | .greater => some .greaterEqual
  | _ => none

/-- The outcome of reading at the front of a text: what was read, its
characters, and the text after them. -/
structure Bite where
  reading : Except Fault Kind
  text : List Char
  rest : List Char

/-- A string runs to the next quote and keeps both; without one it takes the
rest of the text. -/
def biteString (cs : List Char) : Bite :=
  let inside := cs.takeWhile (· != '"')
  match cs.dropWhile (· != '"') with
  | [] => ⟨.error .unterminatedString, '"' :: inside, []⟩
  | quote :: rest => ⟨.ok .string, '"' :: (inside ++ [quote]), rest⟩

/-- Digits, and a fraction only if a digit follows the point. -/
def biteNumber (c : Char) (cs : List Char) : Bite :=
  let whole := c :: cs.takeWhile Char.isDigit
  match cs.dropWhile Char.isDigit with
  | '.' :: d :: rest =>
    if d.isDigit then
      ⟨.ok .number, whole ++ '.' :: d :: rest.takeWhile Char.isDigit, rest.dropWhile Char.isDigit⟩
    else ⟨.ok .number, whole, '.' :: d :: rest⟩
  | rest => ⟨.ok .number, whole, rest⟩

def biteWord (c : Char) (cs : List Char) : Bite :=
  let word := c :: cs.takeWhile isWordPart
  ⟨.ok (wordKind (String.ofList word)), word, cs.dropWhile isWordPart⟩

def biteSymbol (c : Char) (cs : List Char) : Bite :=
  match symbolKind? c with
  | none => ⟨.error .unexpectedCharacter, [c], cs⟩
  | some kind =>
    match kind.beforeEqual?, cs with
    | some longer, '=' :: rest => ⟨.ok longer, [c, '='], rest⟩
    | _, _ => ⟨.ok kind, [c], cs⟩

/-- The longest token at the front of a text that starts with `c`. -/
def bite (c : Char) (cs : List Char) : Bite :=
  if c == '"' then biteString cs
  else if c.isDigit then biteNumber c cs
  else if isWordStart c then biteWord c cs
  else biteSymbol c cs

/-- Splits the gap off the front of a text: blanks and comments, a comment
ending just before the line break. What was already read of the gap comes in
backwards. -/
def splitGap (inComment : Bool) (read : List Char) : List Char → List Char × List Char
  | [] => (read.reverse, [])
  | c :: cs =>
    if inComment then splitGap (c != '\n') (c :: read) cs
    else if isBlank c then splitGap false (c :: read) cs
    else if c == '/' && cs.head? == some '/' then splitGap true (c :: read) cs
    else (read.reverse, c :: cs)

theorem splitGap_append (inComment : Bool) (read cs : List Char) :
    (splitGap inComment read cs).1 ++ (splitGap inComment read cs).2 = read.reverse ++ cs := by
  fun_induction splitGap inComment read cs <;> simp_all

theorem splitGap_length_le (inComment : Bool) (read cs : List Char) :
    (splitGap inComment read cs).2.length ≤ cs.length := by
  fun_induction splitGap inComment read cs <;> simp_all <;> omega

theorem biteString_append (cs : List Char) :
    (biteString cs).text ++ (biteString cs).rest = '"' :: cs := by
  have h := List.takeWhile_append_dropWhile (p := (· != '"')) (l := cs)
  unfold biteString
  split
  next none => simp_all
  next quote rest some =>
    rw [some] at h
    simp [h]

theorem biteNumber_append (c : Char) (cs : List Char) :
    (biteNumber c cs).text ++ (biteNumber c cs).rest = c :: cs := by
  have h := List.takeWhile_append_dropWhile (p := Char.isDigit) (l := cs)
  unfold biteNumber
  split
  next d rest point =>
    rw [point] at h
    split <;> simp [h, List.takeWhile_append_dropWhile]
  next => simp [h]

theorem biteWord_append (c : Char) (cs : List Char) :
    (biteWord c cs).text ++ (biteWord c cs).rest = c :: cs := by
  simp [biteWord, List.takeWhile_append_dropWhile]

theorem biteSymbol_append (c : Char) (cs : List Char) :
    (biteSymbol c cs).text ++ (biteSymbol c cs).rest = c :: cs := by
  unfold biteSymbol
  split
  next => rfl
  next kind _ => split <;> simp

theorem bite_append (c : Char) (cs : List Char) :
    (bite c cs).text ++ (bite c cs).rest = c :: cs := by
  unfold bite
  split
  next quote => simp_all [biteString_append]
  next =>
    split
    · exact biteNumber_append c cs
    · split
      · exact biteWord_append c cs
      · exact biteSymbol_append c cs

theorem bite_text_ne_nil (c : Char) (cs : List Char) : (bite c cs).text ≠ [] := by
  unfold bite biteString biteNumber biteWord biteSymbol
  repeat' split
  all_goals simp

theorem bite_rest_length_le (c : Char) (cs : List Char) :
    (bite c cs).rest.length ≤ cs.length := by
  have same := congrArg List.length (bite_append c cs)
  have some := List.length_pos_iff.mpr (bite_text_ne_nil c cs)
  simp only [List.length_append, List.length_cons] at same
  omega

/-- A text in pieces, the gap after the last of them, and the line on which the
text ends. -/
structure Scan where
  pieces : List Piece
  tail : List Char
  lastLine : Nat

/-- Scans the rest of a text from a line on; the pieces before it come in
backwards. -/
def scanFrom (line : Nat) (done : List Piece) (source : List Char) : Scan :=
  match _ : splitGap false [] source with
  | (gap, []) => ⟨done.reverse, gap, line + gap.count '\n'⟩
  | (gap, c :: cs) =>
    let bitten := bite c cs
    let ending := line + gap.count '\n' + bitten.text.count '\n'
    scanFrom ending (⟨gap, bitten.text, bitten.reading, ending⟩ :: done) bitten.rest
termination_by source.length
decreasing_by
  have shorter := splitGap_length_le false [] source
  have taken := bite_rest_length_le c cs
  simp only [*, List.length_cons] at shorter
  omega

def scan (source : String) : Scan :=
  scanFrom 1 [] source.toList

def tokenize (source : String) : Tokens :=
  let scanned := scan source
  ⟨scanned.pieces.map Piece.token, ⟨.endOfInput, "", scanned.lastLine⟩⟩

end ScriptTree
