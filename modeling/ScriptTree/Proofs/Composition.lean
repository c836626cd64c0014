import ScriptTree.Proofs.Relabelling
import ScriptTree.Proofs.Validity

/-! A text below a valid one. Where a valid text ends the reader stands as it stood at
the start, but for the lines and the number of tokens it has passed, and neither shows
in what it reads. So the text below is read as it is on its own, mistakes included. -/
namespace ScriptTree

def Diagnostic.down (lines : Nat) (diagnostic : Diagnostic) : Diagnostic :=
  { diagnostic with line := diagnostic.line + lines }

theorem Diagnostic.ofToken_down (lines : Nat) (token : Token) (message : String) :
    ofToken (token.down lines) message = (ofToken token message).down lines := by
  unfold ofToken
  rw [Token.down_kind]
  split <;> rfl

/-- The cursor that stands at the same place of the text some lines further down, with
other tokens in front. -/
def Cursor.below (lines passed : Nat) (cursor : Cursor) : Cursor where
  unread := cursor.unread.map (Token.down lines)
  stop := cursor.stop.down lines
  consumed := cursor.consumed + passed
  panicking := cursor.panicking
  hadError := cursor.hadError
  reported := cursor.reported.map (Diagnostic.down lines)

theorem relabelling_down (lines : Nat) :
    Relabelling (Token.down lines) (Diagnostic.down lines) where
  kind _ := rfl
  lexeme _ := rfl
  told := Diagnostic.ofToken_down lines

section

variable {front back : String} {limits : Limits}

theorem terminated_of_parse (valid : (parse front limits).hadError = false) :
    Terminated (tokenize front).body := by
  obtain ⟨stmts, script, -, -⟩ := script_of_parse valid
  rintro token member ⟨error, -⟩
  exact script.kind_ne_error token member error

theorem readTokens_append (valid : (parse front limits).hadError = false)
    (next : ∀ token ∈ (tokenize back).body.head?, token.kind ≠ .elseWord) :
    readTokens limits (tokenize (front ++ "\n" ++ back)) =
      Read.sequence (StmtForm.declaration.rule limits.maxDepth) (fun _ => false)
        (parse front limits).statements
        ((Cursor.start (tokenize back)).below (linesOf front) (tokenize front).body.length) := by
  obtain ⟨stmts, script, nearest, enough⟩ := script_of_parse valid
  have next' : ∀ token ∈ ((tokenize back).body.map (Token.down (linesOf front))).head?,
      token.kind ≠ .elseWord := by
    intro token found
    rw [List.head?_map, Option.mem_def, Option.map_eq_some_iff] at found
    obtain ⟨token, found, rfl⟩ := found
    exact next token found
  have joined := tokenize_append back (terminated_of_parse valid)
  calc
    readTokens limits (tokenize (front ++ "\n" ++ back)) =
        Read.sequence (StmtForm.declaration.rule limits.maxDepth) (fun _ => false) (.ofList stmts)
          ((Cursor.start (tokenize (front ++ "\n" ++ back))).past (tokenize front).body
            ((tokenize back).body.map (Token.down (linesOf front)))) :=
      script.passes nearest enough .empty rfl (by rw [joined]; rfl) next'
    _ = _ := by
      rw [joined, (parse_of_script script nearest enough).2]
      simp only [Cursor.past, Cursor.below, Cursor.start, List.map_nil]

theorem readTokens_below (lines passed : Nat) (back : String) (limits : Limits) :
    Read.sequence (StmtForm.declaration.rule limits.maxDepth) (fun _ => false) .empty
        ((Cursor.start (tokenize back)).below lines passed) =
      ((readTokens limits (tokenize back)).1.map (Stmt.down lines),
        (readTokens limits (tokenize back)).2.below lines passed) :=
  (relabelling_down lines).program limits.maxDepth passed (.start (tokenize back))

/-- A text below a valid one, with a line break between them, is read as it is on its own:
its statements follow those of the valid text, and its mistakes are the only ones. Only
an `else` would be taken for a part of what stands above it. -/
theorem parse_below (front back : String) (limits : Limits)
    (valid : (parse front limits).hadError = false)
    (next : ∀ token ∈ (tokenize back).body.head?, token.kind ≠ .elseWord) :
    let whole := parse (front ++ "\n" ++ back) limits
    let alone := parse back limits
    whole.statements.toList = (parse front limits).statements.toList ++
        alone.statements.toList.map (Stmt.down (linesOf front)) ∧
      whole.diagnostics = alone.diagnostics.map (Diagnostic.down (linesOf front)) ∧
      whole.hadError = alone.hadError := by
  have further := readTokens_append valid next
  have below := readTokens_below (linesOf front) (tokenize front).body.length back limits
  -- The same run of the loop, once behind the valid text and once from nothing.
  obtain ⟨added, after, adds⟩ := Read.sequence_adds
    (StmtForm.onward_rule .declaration limits.maxDepth) (fun _ => false)
    ((Cursor.start (tokenize back)).below (linesOf front) (tokenize front).body.length)
  obtain ⟨behind, ends⟩ := adds (parse front limits).statements
  obtain ⟨first, ends'⟩ := adds .empty
  rw [← further] at behind ends
  rw [below] at first ends'
  rw [Slots.toList_empty, List.nil_append, Slots.toList_map] at first
  have same : (readTokens limits (tokenize (front ++ "\n" ++ back))).2 =
      (readTokens limits (tokenize back)).2.below (linesOf front) (tokenize front).body.length :=
    ends.trans ends'.symm
  refine ⟨behind.trans (congrArg _ first.symm), ?_, ?_⟩
  · change (readTokens limits (tokenize (front ++ "\n" ++ back))).2.reported.reverse = _
    rw [same]
    exact List.map_reverse.symm
  · change (readTokens limits (tokenize (front ++ "\n" ++ back))).2.hadError = _
    rw [same]
    rfl

/-- A comment ends where the next text starts, and an `if` without an `else` is as good an
end as any, also above a mistake. -/
theorem parse_below_open_branch :
    (parse "if (a) b; // c" ⟨256⟩).hadError = false ∧
    (∀ token ∈ (tokenize "1 +; x;").body.head?, token.kind ≠ .elseWord) ∧
    (parse ("if (a) b; // c" ++ "\n" ++ "1 +; x;") ⟨256⟩).statements.toList =
      (parse "if (a) b; // c" ⟨256⟩).statements.toList ++
        (parse "1 +; x;" ⟨256⟩).statements.toList.map (Stmt.down (linesOf "if (a) b; // c")) ∧
    (parse ("if (a) b; // c" ++ "\n" ++ "1 +; x;") ⟨256⟩).diagnostics =
      (parse "1 +; x;" ⟨256⟩).diagnostics.map (Diagnostic.down (linesOf "if (a) b; // c")) ∧
    (parse ("if (a) b; // c" ++ "\n" ++ "1 +; x;") ⟨256⟩).hadError =
      (parse "1 +; x;" ⟨256⟩).hadError := by
  have valid : (parse "if (a) b; // c" ⟨256⟩).hadError = false := by decide +kernel
  have next : ∀ token ∈ (tokenize "1 +; x;").body.head?, token.kind ≠ .elseWord := by
    decide +kernel
  exact ⟨valid, next, parse_below "if (a) b; // c" "1 +; x;" ⟨256⟩ valid next⟩

end

end ScriptTree
