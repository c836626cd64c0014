import ScriptTree.Proofs.BlameOrder
import ScriptTree.Proofs.SourceLines
import ScriptTree.Viewer.Frame

/-! The lines on which a source has errors. A diagnostic is on the line of the token that it
blames. Two tokens may close on a line that the pane does not have, because it leaves out an
empty one at the end: the end of input, and a string without end. -/
namespace ScriptTree

def Token.EndsText (token : Token) : Prop :=
  token.kind = .endOfInput ∨
    token.kind = .error ∧ token.lexeme = Fault.unterminatedString.message

/-- The diagnostic is about the end of the text: it comes too early, or within a string. -/
def Diagnostic.AtTextEnd (diagnostic : Diagnostic) : Prop :=
  diagnostic.site = .atEnd ∨ diagnostic.message = Fault.unterminatedString.message

theorem Token.Stands.after_eq_nil {token : Token} {raw after : List Char}
    (stands : token.Stands raw after) (ends : token.EndsText) : after = [] := by
  cases stands with
  | lexeme regular ongoing =>
    rcases ends with stop | ⟨fault, -⟩
    · exact absurd stop ongoing
    · exact absurd fault regular
  | unexpected =>
    rcases ends with stop | ⟨-, unterminated⟩
    · cases stop
    · exact absurd unterminated (by simp [Fault.message])
  | unterminated | stop => rfl

theorem tokenize_line_last {source : String} {token : Token}
    (member : token ∈ (tokenize source).toList) (ends : token.EndsText) :
    token.line = 1 + source.toList.count '\n' := by
  obtain ⟨front, raw, after, whole, stands, counted⟩ := exists_stands member
  rw [counted, ← whole, stands.after_eq_nil ends, List.append_nil]

theorem Complaint.message_ne_unterminated (complaint : Complaint) :
    complaint.message ≠ Fault.unterminatedString.message := by
  cases complaint <;> decide

theorem Diagnostic.atTextEnd_ofToken (token : Token) (complaint : Complaint) :
    (Diagnostic.ofToken token complaint.message).AtTextEnd ↔ token.EndsText := by
  have other := complaint.message_ne_unterminated
  unfold Diagnostic.ofToken AtTextEnd Token.EndsText
  split <;> simp_all

theorem parse_empty (limits : Limits) : (parse "" limits).diagnostics = [] := by
  have none : (Cursor.start (tokenize "")).unread = [] := by
    rw [tokenize_eq]
    exact tokensFrom_of_blank rfl
  have read : readTokens limits (tokenize "") = (.empty, .start (tokenize "")) := by
    rw [readTokens, Read.program_eq, Read.sequence, none]
    rfl
  rw [parse, read]
  rfl

theorem mem_addMessage {line other : Nat} {message : String} {entries : List (Nat × List String)} :
    other ∈ (addMessage line message entries).map Prod.fst ↔
      other = line ∨ other ∈ entries.map Prod.fst := by
  fun_induction addMessage line message entries with
  | case1 | case2 => simp
  | case3 => simp_all
  | case4 first messages rest _ _ ih => simp [ih, or_left_comm]

theorem addMessage_sorted {line : Nat} {message : String} {entries : List (Nat × List String)}
    (sorted : (entries.map Prod.fst).Pairwise (· < ·)) :
    ((addMessage line message entries).map Prod.fst).Pairwise (· < ·) := by
  fun_induction addMessage line message entries with
  | case1 => simp
  | case2 first messages rest before =>
    rw [List.map_cons] at sorted
    refine List.pairwise_cons.mpr ⟨List.forall_mem_cons.mpr ⟨before, fun other found => ?_⟩, sorted⟩
    exact before.trans (List.rel_of_pairwise_cons sorted found)
  | case3 => exact sorted
  | case4 first messages rest before other ih =>
    obtain ⟨above, sorted⟩ := List.pairwise_cons.mp sorted
    refine List.pairwise_cons.mpr ⟨fun next found => ?_, ih sorted⟩
    obtain rfl | found := mem_addMessage.mp found
    · exact Nat.lt_of_le_of_ne (Nat.not_lt.mp before) (Ne.symm other)
    · exact above next found

theorem errorLines_sorted (diagnostics : List Diagnostic) :
    ((errorLines diagnostics).map Prod.fst).Pairwise (· < ·) := by
  unfold errorLines
  suffices ∀ entries : List (Nat × List String), (entries.map Prod.fst).Pairwise (· < ·) →
      ((diagnostics.foldl (fun lines d => addMessage d.line d.message lines) entries).map
        Prod.fst).Pairwise (· < ·) from this [] .nil
  induction diagnostics with
  | nil => exact fun _ sorted => sorted
  | cons diagnostic rest ih => exact fun _ sorted => ih _ (addMessage_sorted sorted)

theorem mem_errorLines {line : Nat} {diagnostics : List Diagnostic} :
    line ∈ (errorLines diagnostics).map Prod.fst ↔ line ∈ diagnostics.map Diagnostic.line := by
  unfold errorLines
  suffices ∀ entries : List (Nat × List String),
      line ∈ (diagnostics.foldl (fun lines d => addMessage d.line d.message lines) entries).map
        Prod.fst ↔ line ∈ entries.map Prod.fst ∨ line ∈ diagnostics.map Diagnostic.line by
    simpa using this []
  induction diagnostics with
  | nil => simp
  | cons diagnostic rest ih =>
    intro entries
    rw [List.foldl_cons, ih, mem_addMessage, List.map_cons, List.mem_cons, or_assoc, or_left_comm]

/-- The pane has a row for the line, and the row is marked as one with an error. -/
def SourcePane.Marks (pane : SourcePane) (line : Nat) : Prop :=
  line ∈ pane.marked ∧ ∃ text, (text, line) ∈ pane.lines.zipIdx 1

theorem SourcePane.marks_iff {pane : SourcePane} {line : Nat} :
    pane.Marks line ↔ line ∈ pane.marked ∧ 1 ≤ line ∧ line ≤ pane.lines.length := by
  simp only [Marks, List.mk_mem_zipIdx_iff_le_and_getElem?_sub, exists_and_left,
    ← Option.isSome_iff_exists, isSome_getElem?]
  refine and_congr_right fun _ => and_congr_right fun some => ?_
  omega

theorem openLines_cases {text : List Char} (solid : text ≠ []) :
    text.getLast? = some '\n' ∧ openLines text = 0 ∨
      text.getLast? ≠ some '\n' ∧ openLines text = 1 := by
  obtain ⟨c, last⟩ := Option.ne_none_iff_exists'.mp (mt List.getLast?_eq_none_iff.mp solid)
  by_cases ends : c = '\n' <;> simp [openLines, last, ends]

section

variable {source : String} {limits : Limits} {diagnostic : Diagnostic}

theorem source_ne_nil (member : diagnostic ∈ (parse source limits).diagnostics) :
    source.toList ≠ [] := by
  intro none
  rw [String.toList_eq_nil_iff.mp none, parse_empty] at member
  cases member

theorem diagnostic_line_le (member : diagnostic ∈ (parse source limits).diagnostics)
    (inner : ¬ diagnostic.AtTextEnd) :
    1 ≤ diagnostic.line ∧ diagnostic.line ≤ (lines source).length := by
  obtain ⟨place, token, complaint, found, rfl⟩ := parse_diagnostic_blamed member
  rw [Diagnostic.atTextEnd_ofToken] at inner
  rw [Diagnostic.ofToken_line]
  obtain inside | last := List.mem_append.mp (List.mem_of_getElem? found)
  · exact tokenize_line_le inside fun fault => inner (.inr fault)
  · rw [List.mem_singleton.mp last] at inner
    exact absurd (.inl rfl) inner

theorem diagnostic_line_last (member : diagnostic ∈ (parse source limits).diagnostics)
    (ends : diagnostic.AtTextEnd) :
    1 ≤ diagnostic.line ∧
      diagnostic.line + openLines source.toList = (lines source).length + 1 := by
  obtain ⟨place, token, complaint, found, rfl⟩ := parse_diagnostic_blamed member
  rw [Diagnostic.atTextEnd_ofToken] at ends
  have last := tokenize_line_last (List.mem_of_getElem? found) ends
  have total := length_lines source
  rw [Diagnostic.ofToken_line]
  omega

/-- A diagnostic is on one of the lines of the source, and the pane marks that line, unless
the source ends with a line break and the diagnostic is about its end: then it is on the empty
line behind the last. -/
theorem diagnostic_marked_iff (member : diagnostic ∈ (parse source limits).diagnostics) :
    let pane := (Viewer.fresh source (parse source limits)).sourcePane
    let beyond := source.toList.getLast? = some '\n' ∧ diagnostic.AtTextEnd
    1 ≤ diagnostic.line ∧ (diagnostic.line ≤ (lines source).length ↔ ¬ beyond) ∧
      (pane.Marks diagnostic.line ↔ ¬ beyond) ∧
      (beyond → diagnostic.line = (lines source).length + 1) := by
  intro pane beyond
  have marked : diagnostic.line ∈ pane.marked := mem_errorLines.mpr (List.mem_map_of_mem member)
  have total : pane.lines.length = (lines source).length := rfl
  rw [SourcePane.marks_iff, and_iff_right marked, total]
  by_cases ends : diagnostic.AtTextEnd
  · obtain ⟨first, last⟩ := diagnostic_line_last member ends
    obtain ⟨broken, shut⟩ | ⟨unbroken, within⟩ := openLines_cases (source_ne_nil member)
    · have here : beyond := ⟨broken, ends⟩
      simp only [here, not_true, iff_false, forall_const]
      omega
    · have here : ¬ beyond := fun there => unbroken there.1
      simp only [here, not_false_eq_true, iff_true, false_imp_iff, and_true]
      omega
  · obtain ⟨first, within⟩ := diagnostic_line_le member ends
    have here : ¬ beyond := fun there => ends there.2
    simp only [here, not_false_eq_true, iff_true, false_imp_iff, and_true]
    exact ⟨first, within, first, within⟩

end

/-- The string that is opened on the second line takes the line break behind it, too. -/
theorem diagnostic_marked_open_string :
    let source := "1 1;\n\"s\n"
    let diagnostic : Diagnostic := ⟨3, .lexical, "Unterminated string."⟩
    diagnostic ∈ (parse source ⟨256⟩).diagnostics ∧ source.toList.getLast? = some '\n' ∧
      diagnostic.AtTextEnd ∧ diagnostic.line = (lines source).length + 1 ∧
      ¬ (Viewer.fresh source (parse source ⟨256⟩)).sourcePane.Marks diagnostic.line := by
  intro source diagnostic
  have member : diagnostic ∈ (parse source ⟨256⟩).diagnostics := by decide +kernel
  have broken : source.toList.getLast? = some '\n' := by decide +kernel
  have ends : diagnostic.AtTextEnd := .inr rfl
  obtain ⟨-, -, marks, beyond⟩ := diagnostic_marked_iff member
  exact ⟨member, broken, ends, beyond ⟨broken, ends⟩, fun shown => marks.mp shown ⟨broken, ends⟩⟩

/-- The semicolon is missing on the second line, but the source has only one. -/
theorem error_behind_last_line :
    let source := "x\n"
    ∃ diagnostic ∈ (parse source ⟨256⟩).diagnostics, (lines source).length < diagnostic.line ∧
      ¬ (Viewer.fresh source (parse source ⟨256⟩)).sourcePane.Marks diagnostic.line := by
  intro source
  refine ⟨⟨2, .atEnd, "Expect ';' after expression."⟩, by decide +kernel, by decide +kernel, ?_⟩
  rw [SourcePane.marks_iff]
  decide +kernel

end ScriptTree
