import ScriptTree.Proofs.Cutting
import ScriptTree.Text.Lines

/-! The lines of a source. The scanner counts line breaks, and a pane splits the source into
lines, which leaves out an empty one at the end. Every token but a string without end closes
on a line that the pane has. -/
namespace ScriptTree

/-- One if the text stops within a line, and none if it has just ended one. -/
def openLines (text : List Char) : Nat :=
  match text.getLast? with
  | none => 0
  | some c => if c = '\n' then 0 else 1

theorem linesFrom_length (done : List (List Char)) {current : List Char} (cs : List Char)
    (unbroken : '\n' ∉ current) :
    (linesFrom done current cs).length =
      done.length + cs.count '\n' + openLines (current.reverse ++ cs) := by
  induction cs generalizing done current with
  | nil =>
    cases current with
    | nil => simp [linesFrom, openLines]
    | cons c current =>
      have other : c ≠ '\n' := fun same => unbroken (same ▸ List.mem_cons_self)
      simp [linesFrom, openLines, other]
  | cons c cs ih =>
    rw [linesFrom]
    split
    next ends =>
      subst ends
      have closed : openLines (current.reverse ++ '\n' :: cs) = openLines cs := by
        cases cs <;> simp [openLines, List.getLast?_append, List.getLast?_cons]
      rw [ih (endLine current :: done) (by simp), closed, List.count_cons_self, List.length_cons,
        List.reverse_nil, List.nil_append]
      omega
    next goes =>
      rw [ih done (by simpa using ⟨Ne.symm goes, unbroken⟩), List.count_cons_of_ne goes]
      simp

theorem length_lines (text : String) :
    (lines text).length = text.toList.count '\n' + openLines text.toList := by
  rw [lines, List.length_map, linesFrom_length [] text.toList (by simp)]
  simp

theorem line_le_length_lines {text : String} {front : List Char} {c : Char}
    (begins : front <+: text.toList) (last : front.getLast? = some c) (solid : c ≠ '\n') :
    1 + front.count '\n' ≤ (lines text).length := by
  obtain ⟨back, whole⟩ := begins
  rw [length_lines, ← whole, List.count_append]
  by_cases more : '\n' ∈ back
  · have further := List.count_pos_iff.mpr more
    omega
  · -- Nothing ends the line, so it is open where the text stops.
    have stays : openLines (front ++ back) = 1 := by
      unfold openLines
      rw [List.getLast?_append, last]
      cases ends : back.getLast? with
      | none => simp [solid]
      | some d =>
        have other : d ≠ '\n' := fun same => more (same ▸ List.mem_of_getLast? ends)
        simp [other]
    omega

theorem unbroken_of_parts {text : List Char} (parts : ∀ c ∈ text, isWordPart c = true) :
    '\n' ∉ text := fun member => absurd (parts _ member) (by decide)

theorem unbroken_of_digits {text : List Char} (digits : ∀ c ∈ text, c.isDigit = true) :
    '\n' ∉ text := unbroken_of_parts fun c member => isWordPart_of_isDigit (digits c member)

/-- Only a string goes on from one line to another, and it ends with its quote. -/
theorem Lexeme.unbroken_or {kind : Kind} {text : List Char} (spells : Lexeme kind text) :
    '\n' ∉ text ∨ kind = .string ∧ text.getLast? = some '"' := by
  cases spells with
  | symbol listed =>
    have all : ∀ entry ∈ symbols, '\n' ∉ entry.1.toList := by decide
    exact .inl (all _ listed)
  | keyword listed =>
    have all : ∀ entry ∈ keywords, '\n' ∉ entry.1.toList := by decide
    exact .inl (all _ listed)
  | @name c cs start parts =>
    have first : c ≠ '\n' := by
      rintro rfl
      exact absurd start (by decide)
    exact .inl (List.not_mem_cons_of_ne_of_not_mem first.symm (unbroken_of_parts parts))
  | whole digits => exact .inl (unbroken_of_digits digits)
  | fraction digits decimals =>
    have before := unbroken_of_digits digits
    have behind := unbroken_of_digits decimals
    rw [← List.cons_append, List.mem_append, not_or]
    exact .inl ⟨before, List.not_mem_cons_of_ne_of_not_mem (by decide) behind⟩
  | string => exact .inr ⟨rfl, by simp [List.getLast?_cons]⟩

theorem getLast?_bite {c : Char} {cs : List Char} (solid : isBlank c = false)
    (ended : (bite c cs).reading ≠ .error .unterminatedString) :
    ∃ d, (bite c cs).text.getLast? = some d ∧ d ≠ '\n' := by
  obtain ⟨kind, read, spells⟩ | ⟨-, read, -⟩ | ⟨-, read, text⟩ := bite_cases c cs
  · obtain unbroken | ⟨-, quote⟩ := spells.unbroken_or
    · obtain ⟨d, last⟩ := Option.ne_none_iff_exists'.mp
        (mt List.getLast?_eq_none_iff.mp (bite_text_ne_nil c cs))
      refine ⟨d, last, ?_⟩
      rintro rfl
      exact unbroken (List.mem_of_getLast? last)
    · exact ⟨_, quote, by decide⟩
  · exact absurd read ended
  · rw [text]
    refine ⟨c, rfl, ?_⟩
    rintro rfl
    exact absurd solid (by decide)

theorem Placed.getLast?_raw {last : Prop} {stretch : Stretch} {after : List Char} {token : Token}
    (placed : Placed last stretch after token) (inner : ¬ last)
    (ended : ¬ (token.kind = .error ∧ token.lexeme = Fault.unterminatedString.message)) :
    ∃ c, stretch.raw.getLast? = some c ∧ c ≠ '\n' := by
  obtain ⟨outer, -⟩ | ⟨-, c, cs, raw, rest, read⟩ := placed.read
  · exact absurd outer inner
  · have bare := placed.bare
    rw [raw, rest, bite_append, bare_cons] at bare
    rw [raw]
    refine getLast?_bite bare.1 fun fault => ended ?_
    rw [read, Bite.token, fault]
    exact ⟨rfl, rfl⟩

theorem tokenize_line_le {source : String} {token : Token} (member : token ∈ (tokenize source).body)
    (ended : ¬ (token.kind = .error ∧ token.lexeme = Fault.unterminatedString.message)) :
    1 ≤ token.line ∧ token.line ≤ (lines source).length := by
  obtain ⟨parts, whole, cut⟩ := exists_cut_tokenize source
  obtain ⟨i, bound, found⟩ := List.getElem_of_mem member
  have length : parts.length = (tokenize source).body.length + 1 := by
    rw [cut.length_eq, Tokens.toList, List.length_append]
    rfl
  have part : parts[i]? = some parts[i] := List.getElem?_eq_getElem (by omega)
  have found : (tokenize source).toList[i]? = some token := by
    rw [Tokens.toList, List.getElem?_append_left bound, List.getElem?_eq_getElem bound, found]
  obtain ⟨placed, counted⟩ := cut.placed part found
  obtain ⟨c, last, solid⟩ := placed.getLast?_raw (by omega) ended
  have begins : spelled (parts.take (i + 1)) <+: source.toList := by
    rw [← whole, ← List.take_append_drop (i + 1) parts, spelled_append]
    simp
  have closes : (spelled (parts.take (i + 1))).getLast? = some c := by
    rw [List.take_add_one, part, spelled_append]
    simp [spelled, Stretch.text, List.getLast?_append, last]
  have inside := line_le_length_lines begins closes solid
  omega

end ScriptTree
