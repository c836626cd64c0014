import ScriptTree.Proofs.Respelling

/-! The tokens that a text starts with. Which text stands behind a keyword, or behind the gap
after it, makes no difference to them unless it goes on with the keyword, so the parenthesis
that follows the keyword can be taken out of the text. -/
namespace ScriptTree

theorem splitGap_again {inComment : Bool} {source : List Char}
    (closed : (splitGap inComment [] source).2 ≠ []) (after : List Char) :
    splitGap inComment [] ((splitGap inComment [] source).1 ++ after) =
      ((splitGap inComment [] source).1 ++ (splitGap false [] after).1,
        (splitGap false [] after).2) := by
  -- By induction on the text, in a comment and out of it: what follows has ended the last comment.
  induction source generalizing inComment with
  | nil => exact absurd rfl closed
  | cons d ds ih =>
    cases inComment with
    | true =>
      rw [splitGap_comment] at closed ⊢
      rw [List.cons_append, splitGap_comment, ih closed]
      rfl
    | false =>
      by_cases blank : isBlank d = true
      · rw [splitGap_blank blank] at closed ⊢
        rw [List.cons_append, splitGap_blank blank, ih closed]
        rfl
      by_cases slashes : d = '/' ∧ ds.head? = some '/'
      · rw [splitGap_slash slashes] at closed ⊢
        -- The second slash belongs to the comment, so it is still there.
        have second : ((splitGap true [] ds).1 ++ after).head? = some '/' := by
          obtain ⟨es, rfl⟩ := List.head?_eq_some_iff.mp slashes.2
          rw [splitGap_comment]
          rfl
        rw [List.cons_append, splitGap_slash ⟨slashes.1, second⟩, ih closed]
        rfl
      · rw [splitGap_bare (bare_cons.mpr ⟨by simpa using blank, slashes⟩)]
        rfl

theorem tokensFrom_of_gap {source : List Char} (closed : (splitGap false [] source).2 ≠ [])
    (line : Nat) (after : List Char) :
    tokensFrom line ((splitGap false [] source).1 ++ after) =
      tokensFrom (line + (splitGap false [] source).1.count '\n') after := by
  have again := splitGap_again closed after
  refine tokensFrom_congr (by rw [again]) ?_
  rw [again, List.count_append, Nat.add_assoc]

theorem Gap.ends_word {gap before after : List Char} (blank : Gap gap before)
    (ends : ∀ c ∈ after.head?, isWordPart c = false) :
    ∀ c ∈ (gap ++ after).head?, isWordPart c = false := by
  cases blank with
  | none => exact ends
  | blank blank =>
    rintro _ ⟨⟩
    rcases blank with rfl | rfl | rfl | rfl <;> decide
  | comment =>
    rintro _ ⟨⟩
    decide

theorem tokensFrom_of_keyword {word : String} {kind : Kind} {rest : List Char}
    (listed : (word, kind) ∈ keywords) (ends : ∀ c ∈ rest.head?, isWordPart c = false)
    (line : Nat) :
    tokensFrom line (word.toList ++ rest) = ⟨kind, word, line + word.toList.count '\n'⟩ ::
      tokensFrom (line + word.toList.count '\n') rest := by
  obtain ⟨c, cs, spelled, start, parts⟩ := word_of_mem listed
  rw [spelled, List.cons_append, tokensFrom_of_word start parts ends, ← spelled,
    String.ofList_toList, wordKind_of_mem listed]

theorem tokensFrom_cons {line : Nat} {source : List Char} {token : Token} {rest : List Token}
    (first : tokensFrom line source = token :: rest) (faultless : token.kind ≠ .error) :
    ∃ after, (splitGap false [] source).2 = token.lexeme.toList ++ after ∧
      Lexeme token.kind token.lexeme.toList ∧
      token.line = line + (splitGap false [] source).1.count '\n' + token.lexeme.toList.count '\n' ∧
      rest = tokensFrom token.line after := by
  cases found : (splitGap false [] source).2 with
  | nil => simp [tokensFrom_of_blank found] at first
  | cons c cs =>
    rw [tokensFrom_of_token found rfl] at first
    obtain ⟨rfl, rfl⟩ := List.cons.inj first
    rw [Bite.token_line]
    obtain ⟨kind, read, spells⟩ | ⟨-, read, -⟩ | ⟨-, read, -⟩ := bite_cases c cs
    · simp only [Bite.token, read, String.toList_ofList]
      exact ⟨_, (bite_append c cs).symm, spells, trivial, rfl⟩
    · exact absurd (by simp only [Bite.token, read]) faultless
    · exact absurd (by simp only [Bite.token, read]) faultless

theorem Lexeme.eq_of_mem {spelling : String} {kind : Kind} {text : List Char}
    (spells : Lexeme kind text) (listed : (spelling, kind) ∈ symbols ++ keywords) :
    text = spelling.toList := by
  have single : ∀ entry ∈ symbols ++ keywords, ∀ other ∈ symbols ++ keywords,
      other.2 = entry.2 → other.1 = entry.1 := by decide +kernel
  have fixed : ∀ entry ∈ symbols ++ keywords,
      entry.2 ≠ .identifier ∧ entry.2 ≠ .number ∧ entry.2 ≠ .string := by decide +kernel
  cases spells with
  | symbol listed' =>
    exact congrArg String.toList (single _ listed _ (List.mem_append_left _ listed') rfl)
  | keyword listed' =>
    exact congrArg String.toList (single _ listed _ (List.mem_append_right _ listed') rfl)
  | name => exact absurd rfl (fixed _ listed).1
  | whole | fraction => exact absurd rfl (fixed _ listed).2.1
  | string => exact absurd rfl (fixed _ listed).2.2

theorem exists_keyword {line : Nat} {source : List Char} {spelling : String} {word : Token}
    {rest : List Token} (first : tokensFrom line source = word :: rest)
    (listed : (spelling, word.kind) ∈ keywords) :
    word.lexeme = spelling ∧ ∃ front back, source = front ++ back ∧
      rest = tokensFrom word.line back ∧
      ∀ after, (∀ c ∈ after.head?, isWordPart c = false) →
        tokensFrom line (front ++ after) = word :: tokensFrom word.line after := by
  have regular : ∀ entry ∈ keywords, entry.2 ≠ .error := by decide
  obtain ⟨back, found, spells, counted, others⟩ := tokensFrom_cons first (regular _ listed)
  have closed : (splitGap false [] source).2 ≠ [] := by
    rw [found]
    exact fun none => spells.ne_nil (List.append_eq_nil_iff.mp none).1
  have whole := splitGap_append false [] source
  have same : word.lexeme = spelling :=
    String.toList_inj.mp (spells.eq_of_mem (List.mem_append_right _ listed))
  subst same
  rw [found, List.reverse_nil, List.nil_append, ← List.append_assoc] at whole
  refine ⟨rfl, _, back, whole.symm, others, fun after ends => ?_⟩
  rw [List.append_assoc, tokensFrom_of_gap closed, tokensFrom_of_keyword listed ends, ← counted]

/-- In a text that starts with a keyword and a parenthesis the parenthesis can be found, and
what does not go on with the keyword may stand in its place. -/
theorem exists_parenthesis {line : Nat} {source : List Char} {spelling : String}
    {word opening : Token} {rest : List Token}
    (first : tokensFrom line source = word :: opening :: rest)
    (listed : (spelling, word.kind) ∈ keywords) (opened : opening.kind = .leftParen) :
    word.lexeme = spelling ∧ opening.lexeme = "(" ∧ ∃ front back, source = front ++ '(' :: back ∧
      rest = tokensFrom opening.line back ∧
      ∀ after, (∀ c ∈ after.head?, isWordPart c = false) →
        tokensFrom line (front ++ after) = word :: tokensFrom opening.line after := by
  obtain ⟨spelled, front, behind, split, others, instead⟩ := exists_keyword first listed
  obtain ⟨back, found, spells, counted, others'⟩ := tokensFrom_cons others.symm (by simp [opened])
  rw [opened] at spells
  have bracket : opening.lexeme.toList = "(".toList := spells.eq_of_mem (by decide)
  have closed : (splitGap false [] behind).2 ≠ [] := by simp [found, bracket]
  have whole := splitGap_append false [] behind
  have blank := (gap_of_splitGap behind).1
  rw [found, bracket, List.reverse_nil, List.nil_append] at whole
  have below : opening.line = word.line + (splitGap false [] behind).1.count '\n' := by
    rw [counted, bracket]
    rfl
  refine ⟨spelled, String.toList_inj.mp bracket, front ++ (splitGap false [] behind).1, back, ?_,
    others', fun after ends => ?_⟩
  · rw [List.append_assoc, split]
    exact congrArg (front ++ ·) whole.symm
  · rw [List.append_assoc, instead _ (blank.ends_word ends), tokensFrom_of_gap closed, below]

/-- The tokens of a text with a blank in the place of the parenthesis behind its first word. -/
theorem tokenize_without_parenthesis {source spelling : String} {word opening : Token}
    {rest : List Token} (body : (tokenize source).body = word :: opening :: rest)
    (listed : (spelling, word.kind) ∈ keywords) (opened : opening.kind = .leftParen) :
    word.lexeme = spelling ∧ ∃ front back : String, source = front ++ "(" ++ back ∧
      (tokenize front).body = [word] ∧ (tokenize (front ++ "(")).body = [word, opening] ∧
      tokenize (front ++ " " ++ back) = ⟨word :: rest, (tokenize source).stop⟩ := by
  rw [tokenize_eq] at body
  obtain ⟨spelled, bracket, front, back, split, others, instead⟩ :=
    exists_parenthesis body listed opened
  have ended (line : Nat) : tokensFrom line [] = [] := tokensFrom_of_blank rfl
  have parenthesis : tokensFrom opening.line ['('] = [opening] := by
    have bare : Bare ['('] := bare_cons.mpr ⟨by decide, by simp⟩
    have bitten : bite '(' [] = ⟨.ok .leftParen, ['('], []⟩ := rfl
    have single : opening = ⟨.leftParen, "(", opening.line⟩ := by rw [← opened, ← bracket]
    rw [tokensFrom_of_bare bare bitten, ended, single]
    rfl
  have chars (middle : String) : (String.ofList front ++ middle ++ String.ofList back).toList =
      front ++ (middle.toList ++ back) := by
    simp [String.toList_append]
  refine ⟨spelled, String.ofList front, String.ofList back, ?_, ?_, ?_, ?_⟩
  · rw [← String.toList_inj, chars, split]
    rfl
  · have none := instead [] (by simp)
    rw [List.append_nil, ended] at none
    rw [tokenize_ofList_body, none]
  · have kept := instead ['('] (by rintro _ ⟨⟩; decide)
    rw [parenthesis] at kept
    rw [tokenize_eq, String.toList_append, String.toList_ofList]
    exact kept
  · have blank := instead (' ' :: back) (by rintro _ ⟨⟩; decide)
    rw [tokensFrom_blank, ← others] at blank
    rw [tokenize_eq, tokenize_eq source, chars, split]
    simpa using blank

end ScriptTree
