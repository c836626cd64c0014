import ScriptTree.Proofs.Cutting
import ScriptTree.Proofs.Layout

/-! Writing tokens down again. A blank behind a lexeme ends it whatever comes next, so a text
of the same lexemes with single blanks between them has the same tokens on other lines. -/
namespace ScriptTree

def respelled (tokens : List Token) : String :=
  String.intercalate " " (tokens.map Token.lexeme)

/-- What follows does not go on with the lexeme in front of it. -/
def StartsBlank (text : List Char) : Prop :=
  ∀ c ∈ text.head?, isBlank c = true

theorem startsBlank_cons {c : Char} (blank : isBlank c = true) (cs : List Char) :
    StartsBlank (c :: cs) := by
  rintro _ ⟨⟩
  exact blank

theorem Lexeme.bite_eq {kind : Kind} {c : Char} {cs rest : List Char}
    (spells : Lexeme kind (c :: cs)) (blank : StartsBlank rest) :
    bite c (cs ++ rest) = ⟨.ok kind, c :: cs, rest⟩ := by
  obtain ⟨found, more, read, taken, same, solid⟩ := spells.takes rest
  have whole := bite_append c (cs ++ rest)
  rw [taken, List.append_assoc, ← List.cons_append] at whole
  have behind : more ++ (bite c (cs ++ rest)).rest = rest := List.append_cancel_left whole
  -- Anything more would begin with the first character that follows.
  have none : more = [] := by
    cases more with
    | nil => rfl
    | cons d more =>
      have first : isBlank d = true := blank d (by rw [← behind]; rfl)
      rw [solid d rfl] at first
      exact absurd first Bool.false_ne_true
  subst none
  rw [same rfl] at read
  rw [List.append_nil] at taken
  calc
    bite c (cs ++ rest) = ⟨(bite c (cs ++ rest)).reading, (bite c (cs ++ rest)).text,
        (bite c (cs ++ rest)).rest⟩ := rfl
    _ = ⟨.ok kind, c :: cs, rest⟩ := by rw [read, taken, ← List.nil_append (bite _ _).rest, behind]

theorem Lexeme.bare {kind : Kind} {c : Char} {cs rest : List Char}
    (spells : Lexeme kind (c :: cs)) (blank : StartsBlank rest) : Bare (c :: (cs ++ rest)) := by
  have bitten := spells.bite_eq blank
  refine bare_cons.mpr ⟨?_, ?_⟩
  · rw [← Bool.not_eq_true]
    intro first
    have fault : (bite c (cs ++ rest)).reading = .error .unexpectedCharacter := by
      simp only [isBlank, Bool.or_eq_true, beq_iff_eq] at first
      rcases first with ((rfl | rfl) | rfl) | rfl <;> rfl
    rw [bitten] at fault
    cases fault
  · rintro ⟨rfl, second⟩
    -- A slash is a lexeme of its own, so the second one would have to follow it.
    have single : (bite '/' (cs ++ rest)).text = ['/'] := rfl
    rw [bitten] at single
    obtain rfl := (List.cons.inj single).2
    exact absurd (blank '/' second) (by decide)

theorem tokensFrom_of_bare {kind : Kind} {c : Char} {cs text rest : List Char}
    (bare : Bare (c :: cs)) (bitten : bite c cs = ⟨.ok kind, text, rest⟩) (line : Nat) :
    tokensFrom line (c :: cs) = ⟨kind, String.ofList text, line + text.count '\n'⟩ ::
      tokensFrom (line + text.count '\n') rest := by
  have gap := splitGap_bare bare
  have found : (splitGap false [] (c :: cs)).2 = c :: cs := by rw [gap]
  rw [tokensFrom_of_token found rfl, gap, bitten]
  rfl

theorem tokensFrom_of_lexeme {kind : Kind} {text rest : List Char} (spells : Lexeme kind text)
    (blank : StartsBlank rest) (line : Nat) :
    tokensFrom line (text ++ rest) = ⟨kind, String.ofList text, line + text.count '\n'⟩ ::
      tokensFrom (line + text.count '\n') rest := by
  obtain ⟨c, cs, rfl⟩ := List.exists_cons_of_ne_nil spells.ne_nil
  exact tokensFrom_of_bare (spells.bare blank) (spells.bite_eq blank) line

theorem tokensFrom_blank (line : Nat) (text : List Char) :
    tokensFrom line (' ' :: text) = tokensFrom line text := by
  have gap := @splitGap_blank ' ' rfl text
  exact tokensFrom_congr (by rw [gap]) (by rw [gap]; simp)

/-- Behind the first lexeme the text goes on with a blank or ends, and what is read there are
the tokens of the others. -/
theorem respelled_cons (token : Token) (rest : List Token) :
    ∃ behind, (respelled (token :: rest)).toList = token.lexeme.toList ++ behind ∧
      StartsBlank behind ∧
      ∀ line, tokensFrom line behind = tokensFrom line (respelled rest).toList := by
  cases rest with
  | nil => exact ⟨[], by simp [respelled], nofun, fun _ => rfl⟩
  | cons next rest =>
    refine ⟨' ' :: (respelled (next :: rest)).toList, ?_, ?_, fun line => tokensFrom_blank line _⟩
    · simp [respelled, String.intercalate_cons_cons]
    · exact startsBlank_cons rfl _

theorem spelling_respelled {tokens : List Token}
    (spelled : ∀ token ∈ tokens, Lexeme token.kind token.lexeme.toList) (line : Nat) :
    (tokensFrom line (respelled tokens).toList).map Token.spelling =
      tokens.map Token.spelling := by
  induction tokens generalizing line with
  | nil => rw [tokensFrom_of_blank rfl, List.map_nil]
  | cons token rest ih =>
    obtain ⟨first, others⟩ := List.forall_mem_cons.mp spelled
    obtain ⟨behind, text, blank, same⟩ := respelled_cons token rest
    rw [text, tokensFrom_of_lexeme first blank, List.map_cons, same, ih others, List.map_cons]
    simp [Token.spelling]

theorem isWordPart_of_isWordStart {c : Char} (start : isWordStart c = true) :
    isWordPart c = true := by
  simp only [isWordStart, Bool.or_eq_true] at start
  simp only [isWordPart, Char.isAlphanum, Bool.or_eq_true]
  exact start.imp_left .inl

theorem bite_word {c : Char} {cs rest : List Char} (start : isWordStart c = true)
    (parts : ∀ d ∈ cs, isWordPart d = true) (ends : ∀ d ∈ rest.head?, isWordPart d = false) :
    bite c (cs ++ rest) = ⟨.ok (wordKind (String.ofList (c :: cs))), c :: cs, rest⟩ := by
  have stop : rest.takeWhile isWordPart = [] ∧ rest.dropWhile isWordPart = rest := by
    cases rest with
    | nil => exact ⟨rfl, rfl⟩
    | cons d rest => simp [ends d rfl]
  rw [bite_of_isWordStart start, biteWord, List.takeWhile_append_of_pos parts,
    List.dropWhile_append_of_pos parts, stop.1, stop.2, List.append_nil]

theorem tokensFrom_of_word {c : Char} {cs rest : List Char} (start : isWordStart c = true)
    (parts : ∀ d ∈ cs, isWordPart d = true) (ends : ∀ d ∈ rest.head?, isWordPart d = false)
    (line : Nat) :
    tokensFrom line (c :: (cs ++ rest)) =
      ⟨wordKind (String.ofList (c :: cs)), String.ofList (c :: cs),
        line + (c :: cs).count '\n'⟩ :: tokensFrom (line + (c :: cs).count '\n') rest := by
  have bare : Bare (c :: (cs ++ rest)) := by
    refine bare_cons.mpr ⟨isBlank_of_isWordPart (isWordPart_of_isWordStart start), ?_⟩
    rintro ⟨rfl, -⟩
    exact absurd start (by decide)
  exact tokensFrom_of_bare bare (bite_word start parts ends) line

theorem tokensFrom_message (fault : Fault) {rest : List Char} (blank : StartsBlank rest)
    (line : Nat) :
    ∃ front ending, tokensFrom line (fault.message.toList ++ rest) =
      front ++ tokensFrom ending rest ∧ ∀ token ∈ front, token.kind ≠ .error := by
  -- Both messages are two words and a point.
  obtain ⟨word, c, cs, text, first, start, parts⟩ : ∃ word c cs,
      fault.message.toList = word ++ ' ' :: c :: (cs ++ ['.']) ∧
        Lexeme (wordKind (String.ofList word)) word ∧ isWordStart c = true ∧
        ∀ d ∈ cs, isWordPart d = true := by
    cases fault with
    | unexpectedCharacter =>
      have begins : Lexeme _ ('U' :: "nexpected".toList) :=
        .word (by decide) (List.all_eq_true.mp (by decide))
      exact ⟨_, 'c', "haracter".toList, by decide, begins, by decide,
        List.all_eq_true.mp (by decide)⟩
    | unterminatedString =>
      have begins : Lexeme _ ('U' :: "nterminated".toList) :=
        .word (by decide) (List.all_eq_true.mp (by decide))
      exact ⟨_, 's', "tring".toList, by decide, begins, by decide,
        List.all_eq_true.mp (by decide)⟩
  have second : Lexeme (wordKind (String.ofList (c :: cs))) (c :: cs) := .word start parts
  have point : Lexeme .dot ['.'] := .of_mem_symbols (by decide)
  have ends : ∀ d ∈ ('.' :: rest).head?, isWordPart d = false := by
    rintro _ ⟨⟩
    decide
  have shape : fault.message.toList ++ rest = word ++ ' ' :: c :: (cs ++ '.' :: rest) := by
    simp [text]
  have behind := tokensFrom_of_lexeme point blank
  rw [List.singleton_append] at behind
  rw [shape, tokensFrom_of_lexeme first (startsBlank_cons rfl _), tokensFrom_blank,
    tokensFrom_of_word start parts ends, behind]
  refine ⟨[_, _, _], _, rfl, ?_⟩
  exact List.forall_mem_cons.mpr ⟨first.kind_ne.1, List.forall_mem_cons.mpr
    ⟨second.kind_ne.1, List.forall_mem_singleton.mpr point.kind_ne.1⟩⟩

theorem respelled_faultless {tokens : List Token}
    (spelled : ∀ token ∈ tokens, Lexeme token.kind token.lexeme.toList ∨
      ∃ fault : Fault, token.lexeme = fault.message) (line : Nat) :
    ∀ token ∈ tokensFrom line (respelled tokens).toList, token.kind ≠ .error := by
  induction tokens generalizing line with
  | nil =>
    rw [tokensFrom_of_blank rfl]
    exact nofun
  | cons token rest ih =>
    obtain ⟨first, others⟩ := List.forall_mem_cons.mp spelled
    obtain ⟨behind, text, blank, same⟩ := respelled_cons token rest
    rw [text]
    obtain spells | ⟨fault, message⟩ := first
    · rw [tokensFrom_of_lexeme spells blank, same]
      exact List.forall_mem_cons.mpr ⟨spells.kind_ne.1, ih others _⟩
    · obtain ⟨front, ending, read, faultless⟩ := tokensFrom_message fault blank line
      rw [message, read, same]
      exact List.forall_mem_append.mpr ⟨faultless, ih others _⟩

theorem Cut.bitten {line : Nat} {parts : List Stretch} {tokens : List Token}
    (cut : Cut line parts tokens) :
    ∀ token ∈ tokens.dropLast, ∃ c cs, token = (bite c cs).token token.line := by
  induction cut with
  | stop => simp
  | @step _ ending _ cs c _ tokens _ _ _ _ cut ih =>
    have more : tokens ≠ [] := by cases cut <;> simp
    rw [List.dropLast_cons_of_ne_nil more]
    exact List.forall_mem_cons.mpr ⟨⟨c, cs, by rw [Bite.token_line]⟩, ih⟩

theorem lexeme_or_fault {source : String} {token : Token}
    (member : token ∈ (tokenize source).body) :
    Lexeme token.kind token.lexeme.toList ∨
      token.kind = .error ∧ ∃ fault : Fault, token.lexeme = fault.message := by
  obtain ⟨parts, -, cut⟩ := exists_cut_tokenize source
  have front : token ∈ (tokenize source).toList.dropLast := by simpa [Tokens.toList] using member
  obtain ⟨c, cs, bitten⟩ := cut.bitten token front
  rw [bitten]
  obtain ⟨kind, read, spells⟩ | ⟨-, read, -⟩ | ⟨-, read, -⟩ := bite_cases c cs
  · simp only [Bite.token, read, String.toList_ofList]
    exact .inl spells
  · simp only [Bite.token, read]
    exact .inr ⟨trivial, _, rfl⟩
  · simp only [Bite.token, read]
    exact .inr ⟨trivial, _, rfl⟩

/-- The lexemes of a text, written down in their order with a blank between them, are read as
tokens of the same kinds and lexemes up to the end of input exactly if the text has no faults.
Where it has some, their messages are read in their place. -/
theorem tokenize_respelled_iff (source : String) :
    (tokenize (respelled (tokenize source).body)).toList.map Token.spelling =
        (tokenize source).toList.map Token.spelling ↔
      ∀ token ∈ (tokenize source).toList, token.kind ≠ .error := by
  constructor
  · intro same token member fault
    have spelled : token.spelling ∈
        (tokenize (respelled (tokenize source).body)).toList.map Token.spelling :=
      same ▸ List.mem_map_of_mem member
    obtain ⟨other, found, alike⟩ := List.mem_map.mp spelled
    have kind : other.kind = .error := (congrArg Prod.fst alike).trans fault
    rw [tokenize_eq, Tokens.toList, List.mem_append, List.mem_singleton] at found
    obtain found | rfl := found
    · refine respelled_faultless (fun token member => ?_) 1 other found kind
      exact (lexeme_or_fault member).imp_right And.right
    · cases kind
  · intro faultless
    have spelled : ∀ token ∈ (tokenize source).body, Lexeme token.kind token.lexeme.toList :=
      fun token member => (lexeme_or_fault member).resolve_right fun fault =>
        faultless token (List.mem_append_left _ member) fault.1
    have body := spelling_respelled spelled 1
    rw [tokenize_eq, Tokens.toList, Tokens.toList, List.map_append, List.map_append, body]
    rfl

/-- Signs that would be taken together, and a string that would be taken apart. -/
example : (tokenize (respelled (tokenize "a= =b/ /c 7 .5\"x // \ny\"z").body)).body.map Token.lexeme =
    ["a", "=", "=", "b", "/", "/", "c", "7", ".", "5", "\"x // \ny\"", "z"] := by decide +kernel

end ScriptTree
