import Mathlib.Data.List.TakeWhile
import ScriptTree.Token.Scan

/-! What the tokens of the language look like, said without a scanner: the spellings of
the symbols and keywords, names, numbers and strings. A bite takes the longest spelling at
the front of a text, and finds fault exactly where there is none. -/
namespace ScriptTree

def symbols : List (String × Kind) :=
  [("(", .leftParen), (")", .rightParen), ("\x7b", .leftBrace), ("\x7d", .rightBrace),
   ("[", .leftBracket), ("]", .rightBracket), (",", .comma), (".", .dot), ("-", .minus),
   ("+", .plus), (";", .semicolon), ("/", .slash), ("*", .star),
   ("!", .bang), ("!=", .bangEqual), ("=", .equal), ("==", .equalEqual),
   (">", .greater), (">=", .greaterEqual), ("<", .less), ("<=", .lessEqual)]

/-- `Lexeme kind text`: the characters spell a token of the kind. -/
inductive Lexeme : Kind → List Char → Prop where
  | symbol {spelling : String} {kind : Kind} :
      (spelling, kind) ∈ symbols → Lexeme kind spelling.toList
  | keyword {spelling : String} {kind : Kind} :
      (spelling, kind) ∈ keywords → Lexeme kind spelling.toList
  | name {c : Char} {cs : List Char} :
      isWordStart c = true → (∀ d ∈ cs, isWordPart d = true) →
      (∀ entry ∈ keywords, entry.1.toList ≠ c :: cs) → Lexeme .identifier (c :: cs)
  | whole {c : Char} {cs : List Char} :
      (∀ digit ∈ c :: cs, digit.isDigit = true) → Lexeme .number (c :: cs)
  | fraction {c d : Char} {cs ds : List Char} :
      (∀ digit ∈ c :: cs, digit.isDigit = true) → (∀ digit ∈ d :: ds, digit.isDigit = true) →
      Lexeme .number (c :: (cs ++ '.' :: d :: ds))
  | string {inside : List Char} : '"' ∉ inside → Lexeme .string ('"' :: (inside ++ ['"']))

theorem wordKind_of_mem {word : String} {kind : Kind} (listed : (word, kind) ∈ keywords) :
    wordKind word = kind := by
  have all : ∀ entry ∈ keywords, wordKind entry.1 = entry.2 := by decide
  exact all _ listed

theorem wordKind_of_not_mem {word : String} (unlisted : ∀ entry ∈ keywords, entry.1 ≠ word) :
    wordKind word = .identifier := by
  have none : keywords.lookup word = none :=
    List.lookup_eq_none_iff.mpr fun entry listed => by simpa using (unlisted entry listed).symm
  rw [wordKind, none]
  rfl

theorem word_of_mem {word : String} {kind : Kind} (listed : (word, kind) ∈ keywords) :
    ∃ c cs, word.toList = c :: cs ∧ isWordStart c = true ∧ ∀ d ∈ cs, isWordPart d = true := by
  have all : ∀ entry ∈ keywords, entry.1.toList.head?.any isWordStart = true ∧
      entry.1.toList.tail.all isWordPart = true := by decide
  obtain ⟨start, parts⟩ := all _ listed
  cases spelled : word.toList with
  | nil => simp [spelled] at start
  | cons c cs => exact ⟨c, cs, rfl, by simpa [spelled] using start, by simpa [spelled] using parts⟩

theorem Lexeme.word {c : Char} {cs : List Char} (start : isWordStart c = true)
    (parts : ∀ d ∈ cs, isWordPart d = true) :
    Lexeme (wordKind (String.ofList (c :: cs))) (c :: cs) := by
  by_cases listed : ∃ entry ∈ keywords, entry.1.toList = c :: cs
  · obtain ⟨⟨word, kind⟩, listed, spelled⟩ := listed
    have same : String.ofList (c :: cs) = word := by rw [← spelled, String.ofList_toList]
    rw [same, wordKind_of_mem listed, ← spelled]
    exact .keyword listed
  · have unlisted : ∀ entry ∈ keywords, entry.1.toList ≠ c :: cs := fun entry member spelled =>
      listed ⟨entry, member, spelled⟩
    rw [wordKind_of_not_mem fun entry member same => unlisted entry member (by rw [same]; simp)]
    exact .name start parts unlisted

theorem symbol_of_mem {spelling : String} {kind : Kind} (listed : (spelling, kind) ∈ symbols) :
    ∃ c base, symbolKind? c = some base ∧
      (spelling.toList = [c] ∧ base = kind ∨
        spelling.toList = [c, '='] ∧ base.beforeEqual? = some kind) := by
  have all : symbols.all (fun entry => entry.1.toList.head?.any fun c => (symbolKind? c).any fun base =>
      entry.1.toList = [c] && base = entry.2 ||
        entry.1.toList = [c, '='] && base.beforeEqual? = some entry.2) = true := by decide
  obtain ⟨c, -, found⟩ := (Option.any_eq_true _ _).mp (List.all_eq_true.mp all _ listed)
  obtain ⟨base, found, shape⟩ := (Option.any_eq_true _ _).mp found
  exact ⟨c, base, found, by simpa using shape⟩

theorem Lexeme.of_mem_symbols {kind : Kind} {text : List Char}
    (listed : (String.ofList text, kind) ∈ symbols) : Lexeme kind text := by
  rw [← String.toList_ofList (l := text)]
  exact .symbol listed

theorem Lexeme.of_symbolKind? {c : Char} {base : Kind} (found : symbolKind? c = some base) :
    Lexeme base [c] := by
  unfold symbolKind? at found
  split at found <;> cases found <;> exact .of_mem_symbols (by decide)

theorem Lexeme.of_beforeEqual? {c : Char} {base kind : Kind} (found : symbolKind? c = some base)
    (pair : base.beforeEqual? = some kind) : Lexeme kind [c, '='] := by
  unfold symbolKind? at found
  split at found <;> cases found <;> cases pair <;> exact .of_mem_symbols (by decide)

theorem bite_of_isDigit {c : Char} (digit : c.isDigit = true) (cs : List Char) :
    bite c cs = biteNumber c cs := by
  have quote : c ≠ '"' := by rintro rfl; exact absurd digit (by decide)
  simp [bite, quote, digit]

theorem not_isDigit_of_isWordStart {c : Char} (start : isWordStart c = true) :
    c.isDigit = false := by
  rw [← Bool.not_eq_true]
  intro digit
  delta isWordStart Char.isAlpha Char.isUpper Char.isLower at start
  delta Char.isDigit at digit
  simp only [Bool.or_eq_true, Bool.and_eq_true, decide_eq_true_eq, beq_iff_eq] at start digit
  rcases start with (⟨low, -⟩ | ⟨low, -⟩) | rfl
  · exact absurd (UInt32.le_trans low digit.2) (by decide)
  · exact absurd (UInt32.le_trans low digit.2) (by decide)
  · exact absurd digit.2 (by decide)

theorem bite_of_isWordStart {c : Char} (start : isWordStart c = true) (cs : List Char) :
    bite c cs = biteWord c cs := by
  have quote : c ≠ '"' := by rintro rfl; exact absurd start (by decide)
  simp [bite, quote, not_isDigit_of_isWordStart start, start]

theorem bite_of_symbolKind? {c : Char} {base : Kind} (found : symbolKind? c = some base)
    (cs : List Char) : bite c cs = biteSymbol c cs := by
  have other : c ≠ '"' ∧ c.isDigit = false ∧ isWordStart c = false := by
    unfold symbolKind? at found
    split at found <;> cases found <;> decide
  simp [bite, other]

theorem isBlank_of_isWordPart {c : Char} (part : isWordPart c = true) : isBlank c = false := by
  rw [← Bool.not_eq_true]
  intro blank
  simp only [isBlank, Bool.or_eq_true, beq_iff_eq] at blank
  rcases blank with ((rfl | rfl) | rfl) | rfl <;> exact absurd part (by decide)

theorem isWordPart_of_isDigit {c : Char} (digit : c.isDigit = true) : isWordPart c = true := by
  simp [isWordPart, Char.isAlphanum, digit]

/-- A bite that takes a lexeme, and more behind it only if no blank follows. The kind is that of
the lexeme if nothing more was taken. -/
def Bite.Takes (bite : Bite) (kind : Kind) (lexeme : List Char) : Prop :=
  ∃ found more, bite.reading = .ok found ∧ bite.text = lexeme ++ more ∧
    (more = [] → found = kind) ∧ ∀ d ∈ more.head?, isBlank d = false

theorem head?_takeWhile_not_isBlank {p : Char → Bool} (solid : ∀ c, p c = true → isBlank c = false)
    (tail : List Char) : ∀ d ∈ (tail.takeWhile p).head?, isBlank d = false := by
  intro d front
  rw [List.head?_takeWhile, Option.mem_def, Option.filter_eq_some_iff] at front
  exact solid d front.2

theorem takes_whole {c : Char} {cs : List Char} (digits : ∀ d ∈ cs, d.isDigit = true)
    (tail : List Char) : (biteNumber c (cs ++ tail)).Takes .number (c :: cs) := by
  have solid := head?_takeWhile_not_isBlank
    (fun d digit => isBlank_of_isWordPart (isWordPart_of_isDigit digit)) tail
  unfold biteNumber
  rw [List.takeWhile_append_of_pos digits, List.dropWhile_append_of_pos digits]
  split
  next d rest point =>
    split
    next =>
      refine ⟨_, tail.takeWhile Char.isDigit ++ '.' :: d :: rest.takeWhile Char.isDigit, rfl,
        by simp, fun _ => rfl, ?_⟩
      cases first : tail.takeWhile Char.isDigit with
      | nil => simp [isBlank]
      | cons e more => simpa [first] using solid
    next => exact ⟨_, _, rfl, rfl, fun _ => rfl, solid⟩
  next => exact ⟨_, _, rfl, rfl, fun _ => rfl, solid⟩

theorem takes_fraction {c d : Char} {cs ds : List Char} (digits : ∀ d ∈ cs, d.isDigit = true)
    (decimals : ∀ digit ∈ d :: ds, digit.isDigit = true) (tail : List Char) :
    (biteNumber c (cs ++ '.' :: d :: ds ++ tail)).Takes .number (c :: (cs ++ '.' :: d :: ds)) := by
  obtain ⟨first, decimals⟩ := List.forall_mem_cons.mp decimals
  have solid := head?_takeWhile_not_isBlank
    (fun d digit => isBlank_of_isWordPart (isWordPart_of_isDigit digit)) tail
  unfold biteNumber
  rw [List.append_assoc, List.takeWhile_append_of_pos digits, List.dropWhile_append_of_pos digits,
    List.cons_append, List.takeWhile_cons_of_neg (by decide), List.dropWhile_cons_of_neg (by decide)]
  simp only [List.cons_append, first, if_pos, List.takeWhile_append_of_pos decimals]
  exact ⟨_, _, rfl, by simp, fun _ => rfl, solid⟩

theorem takes_word {c : Char} {cs : List Char} (parts : ∀ d ∈ cs, isWordPart d = true)
    (tail : List Char) :
    (biteWord c (cs ++ tail)).Takes (wordKind (String.ofList (c :: cs))) (c :: cs) := by
  unfold biteWord
  rw [List.takeWhile_append_of_pos parts]
  refine ⟨_, tail.takeWhile isWordPart, rfl, rfl, fun none => ?_, ?_⟩
  · rw [none, List.append_nil]
  · exact head?_takeWhile_not_isBlank (fun _ => isBlank_of_isWordPart) tail

theorem takes_string {inside : List Char} (unquoted : '"' ∉ inside) (tail : List Char) :
    (biteString (inside ++ ['"'] ++ tail)).Takes .string ('"' :: (inside ++ ['"'])) := by
  have other : ∀ d ∈ inside, (d != '"') = true := by
    intro d member
    simp only [bne_iff_ne]
    rintro rfl
    exact unquoted member
  unfold biteString
  rw [List.append_assoc, List.takeWhile_append_of_pos other, List.dropWhile_append_of_pos other]
  simp only [List.cons_append, List.nil_append, bne_self_eq_false, Bool.false_eq_true,
    not_false_eq_true, List.takeWhile_cons_of_neg, List.dropWhile_cons_of_neg]
  exact ⟨_, [], rfl, by simp, fun _ => rfl, by simp⟩

theorem takes_symbol {c : Char} {base : Kind} (found : symbolKind? c = some base)
    (tail : List Char) : (biteSymbol c tail).Takes base [c] := by
  unfold biteSymbol
  simp only [found]
  split
  · exact ⟨_, ['='], rfl, rfl, by simp, by simp [isBlank]⟩
  · exact ⟨_, [], rfl, rfl, fun _ => rfl, by simp⟩

theorem takes_pair {c : Char} {base kind : Kind} (found : symbolKind? c = some base)
    (pair : base.beforeEqual? = some kind) (tail : List Char) :
    (biteSymbol c ('=' :: tail)).Takes kind [c, '='] := by
  unfold biteSymbol
  simp only [found, pair]
  exact ⟨_, [], rfl, rfl, fun _ => rfl, by simp⟩

/-- Whatever stands behind a lexeme, the bite takes all of it. -/
theorem Lexeme.takes {kind : Kind} {c : Char} {cs : List Char} (spells : Lexeme kind (c :: cs))
    (tail : List Char) : (bite c (cs ++ tail)).Takes kind (c :: cs) := by
  generalize text : c :: cs = lexeme at spells
  cases spells with
  | symbol listed =>
    obtain ⟨d, base, found, ⟨spelled, rfl⟩ | ⟨spelled, pair⟩⟩ := symbol_of_mem listed
    · rw [spelled] at text ⊢
      cases text
      rw [bite_of_symbolKind? found]
      exact takes_symbol found tail
    · rw [spelled] at text ⊢
      cases text
      rw [bite_of_symbolKind? found]
      exact takes_pair found pair tail
  | keyword listed =>
    obtain ⟨d, ds, spelled, start, parts⟩ := word_of_mem listed
    rw [spelled] at text ⊢
    cases text
    have same := wordKind_of_mem listed
    rw [← String.toList_ofList (l := c :: cs), String.toList_inj] at spelled
    rw [bite_of_isWordStart start, ← same, spelled]
    exact takes_word parts tail
  | name start parts unlisted =>
    cases text
    have free : wordKind (String.ofList (c :: cs)) = .identifier :=
      wordKind_of_not_mem fun entry member same =>
        unlisted entry member (by rw [same, String.toList_ofList])
    rw [bite_of_isWordStart start, ← free]
    exact takes_word parts tail
  | whole digits =>
    cases text
    obtain ⟨first, digits⟩ := List.forall_mem_cons.mp digits
    rw [bite_of_isDigit first]
    exact takes_whole digits tail
  | fraction digits decimals =>
    cases text
    obtain ⟨first, digits⟩ := List.forall_mem_cons.mp digits
    rw [bite_of_isDigit first]
    exact takes_fraction digits decimals tail
  | string unquoted =>
    cases text
    exact takes_string unquoted tail

/-- The bite is a token, spelled as its kind asks. -/
def Bite.Spells (bite : Bite) : Prop :=
  ∃ kind, bite.reading = .ok kind ∧ Lexeme kind bite.text

theorem spells_number {c : Char} (digit : c.isDigit = true) (cs : List Char) :
    (biteNumber c cs).Spells := by
  have digits (d : Char) (ds : List Char) (first : d.isDigit = true) :
      ∀ digit ∈ d :: ds.takeWhile Char.isDigit, digit.isDigit = true :=
    List.forall_mem_cons.mpr ⟨first, fun _ => List.mem_takeWhile_imp⟩
  unfold biteNumber
  split
  next d rest point =>
    split
    next decimal => exact ⟨_, rfl, .fraction (digits c cs digit) (digits d rest decimal)⟩
    next => exact ⟨_, rfl, .whole (digits c cs digit)⟩
  next => exact ⟨_, rfl, .whole (digits c cs digit)⟩

theorem spells_word {c : Char} (start : isWordStart c = true) (cs : List Char) :
    (biteWord c cs).Spells :=
  ⟨_, rfl, .word start fun _ => List.mem_takeWhile_imp⟩

theorem spells_string_or (cs : List Char) :
    (biteString cs).Spells ∨
      (biteString cs).reading = .error .unterminatedString ∧ (biteString cs).rest = [] := by
  unfold biteString
  split
  next => exact .inr ⟨rfl, rfl⟩
  next quote rest closed =>
    have unquoted : '"' ∉ cs.takeWhile (· != '"') := fun member => by
      simpa using List.mem_takeWhile_imp member
    have quote : quote = '"' := by simpa [closed] using List.head?_dropWhile_not (· != '"') cs
    subst quote
    exact .inl ⟨_, rfl, .string unquoted⟩

theorem spells_symbol_or (c : Char) (cs : List Char) :
    (biteSymbol c cs).Spells ∨
      (biteSymbol c cs).reading = .error .unexpectedCharacter ∧ (biteSymbol c cs).text = [c] := by
  unfold biteSymbol
  split
  next => exact .inr ⟨rfl, rfl⟩
  next kind found =>
    split
    next longer rest pair => exact .inl ⟨_, rfl, .of_beforeEqual? found pair⟩
    next => exact .inl ⟨_, rfl, .of_symbolKind? found⟩

theorem bite_cases (c : Char) (cs : List Char) :
    (bite c cs).Spells ∨
      (c = '"' ∧ (bite c cs).reading = .error .unterminatedString ∧ (bite c cs).rest = []) ∨
      (c ≠ '"' ∧ (bite c cs).reading = .error .unexpectedCharacter ∧ (bite c cs).text = [c]) := by
  unfold bite
  split
  next quote =>
    have quote : c = '"' := by simpa using quote
    exact (spells_string_or cs).imp_right fun fault => .inl ⟨quote, fault⟩
  next quote =>
    have other : c ≠ '"' := by simpa using quote
    split
    next digit => exact .inl (spells_number digit cs)
    next =>
      split
      next start => exact .inl (spells_word start cs)
      next => exact (spells_symbol_or c cs).imp_right fun fault => .inr ⟨other, fault⟩

theorem Lexeme.ne_nil {kind : Kind} {text : List Char} (spells : Lexeme kind text) : text ≠ [] := by
  cases spells with
  | symbol listed =>
    obtain ⟨c, base, -, ⟨spelled, -⟩ | ⟨spelled, -⟩⟩ := symbol_of_mem listed <;> simp [spelled]
  | keyword listed =>
    obtain ⟨c, cs, spelled, -⟩ := word_of_mem listed
    simp [spelled]
  | _ => simp

theorem Lexeme.kind_ne {kind : Kind} {text : List Char} (spells : Lexeme kind text) :
    kind ≠ .error ∧ kind ≠ .endOfInput := by
  have symbols : ∀ entry ∈ symbols, entry.2 ≠ .error ∧ entry.2 ≠ .endOfInput := by decide
  have keywords : ∀ entry ∈ keywords, entry.2 ≠ .error ∧ entry.2 ≠ .endOfInput := by decide
  cases spells with
  | symbol listed => exact symbols _ listed
  | keyword listed => exact keywords _ listed
  | _ => decide

end ScriptTree
