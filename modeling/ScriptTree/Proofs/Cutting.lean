import ScriptTree.Proofs.BlameOrder
import ScriptTree.Proofs.Lexeme

/-! How a text is cut. Gaps and tokens take turns until the text ends, no character is lost
or used twice, and every token is the longest that could be read where its gap ends. -/
namespace ScriptTree

/-- `Gap gap after`: blanks and comments, with the text `after` behind them. A comment runs
to just before a line break, or to the end of the text. -/
inductive Gap : List Char → List Char → Prop where
  | none {after : List Char} : Gap [] after
  | blank {c : Char} {gap after : List Char} :
      c = ' ' ∨ c = '\t' ∨ c = '\r' ∨ c = '\n' → Gap gap after → Gap (c :: gap) after
  | comment {words gap after : List Char} :
      '\n' ∉ words → (∀ c ∈ (gap ++ after).head?, c = '\n') → Gap gap after →
      Gap ('/' :: '/' :: (words ++ gap)) after

def Bare (text : List Char) : Prop :=
  (∀ c ∈ text.head?, isBlank c = false) ∧ ¬ ['/', '/'] <+: text

theorem bare_cons {c : Char} {cs : List Char} :
    Bare (c :: cs) ↔ isBlank c = false ∧ ¬ (c = '/' ∧ cs.head? = some '/') := by
  have slashes : ['/', '/'] <+: c :: cs ↔ c = '/' ∧ cs.head? = some '/' := by
    cases cs <;> simp [List.cons_prefix_cons, eq_comm]
  rw [Bare, slashes]
  simp

theorem splitGap_blank {c : Char} (blank : isBlank c = true) (cs : List Char) :
    splitGap false [] (c :: cs) = (c :: (splitGap false [] cs).1, (splitGap false [] cs).2) := by
  rw [splitGap, if_neg Bool.false_ne_true, if_pos blank, splitGap_read]
  rfl

theorem splitGap_slash {c : Char} {cs : List Char} (slashes : c = '/' ∧ cs.head? = some '/') :
    splitGap false [] (c :: cs) = (c :: (splitGap true [] cs).1, (splitGap true [] cs).2) := by
  obtain ⟨rfl, second⟩ := slashes
  rw [splitGap, if_neg Bool.false_ne_true, if_neg (by decide), if_pos (by simp [second]),
    splitGap_read]
  rfl

theorem splitGap_comment (c : Char) (cs : List Char) :
    splitGap true [] (c :: cs) =
      (c :: (splitGap (c != '\n') [] cs).1, (splitGap (c != '\n') [] cs).2) := by
  rw [splitGap, if_pos rfl, splitGap_read]
  rfl

theorem splitGap_bare {source : List Char} (bare : Bare source) :
    splitGap false [] source = ([], source) := by
  cases source with
  | nil => rfl
  | cons c cs =>
    obtain ⟨solid, noSlashes⟩ := bare_cons.mp bare
    rw [splitGap, if_neg Bool.false_ne_true, if_neg (by simp [solid]),
      if_neg (by simpa using noSlashes)]
    rfl

/-- What is left of a comment: the rest of its line, and the gap behind it. -/
def InComment (gap after : List Char) : Prop :=
  ∃ words further, gap = words ++ further ∧ '\n' ∉ words ∧
    (∀ c ∈ (further ++ after).head?, c = '\n') ∧ Gap further after

theorem InComment.opened {gap after : List Char} (inside : InComment ('/' :: gap) after) :
    Gap ('/' :: '/' :: gap) after := by
  obtain ⟨words, further, split, line, ends, rest⟩ := inside
  cases words with
  | nil =>
    rw [List.nil_append] at split
    subst split
    exact absurd (ends '/' rfl) (by decide)
  | cons slash words =>
    obtain ⟨rfl, rfl⟩ := List.cons.inj split
    exact .comment (fun member => line (List.mem_cons_of_mem _ member)) ends rest

theorem gap_of_splitGap (source : List Char) :
    Gap (splitGap false [] source).1 (splitGap false [] source).2 ∧
      InComment (splitGap true [] source).1 (splitGap true [] source).2 := by
  induction source with
  | nil => exact ⟨.none, [], [], rfl, by simp, by simp [splitGap], .none⟩
  | cons c cs ih =>
    obtain ⟨outside, inside⟩ := ih
    constructor
    · by_cases blank : isBlank c = true
      · rw [splitGap_blank blank]
        refine .blank ?_ outside
        simpa only [isBlank, Bool.or_eq_true, beq_iff_eq, or_assoc] using blank
      by_cases slashes : c = '/' ∧ cs.head? = some '/'
      · rw [splitGap_slash slashes]
        obtain ⟨rfl, second⟩ := slashes
        obtain ⟨ds, rfl⟩ := List.head?_eq_some_iff.mp second
        rw [splitGap_comment] at inside ⊢
        exact inside.opened
      · rw [splitGap_bare (bare_cons.mpr ⟨by simpa using blank, slashes⟩)]
        exact .none
    · rw [splitGap_comment]
      by_cases ends : c = '\n'
      · subst ends
        exact ⟨[], _, rfl, by simp, by simp, .blank (by decide) outside⟩
      · obtain ⟨words, further, split, line, stops, rest⟩ := inside
        have goes : (c != '\n') = true := by simpa using ends
        rw [goes, split]
        refine ⟨c :: words, further, rfl, ?_, stops, rest⟩
        simpa using ⟨Ne.symm ends, line⟩

theorem bare_of_splitGap (inComment : Bool) (read source : List Char) :
    Bare (splitGap inComment read source).2 := by
  fun_induction splitGap inComment read source with
  | case1 => exact ⟨by simp, by simp⟩
  | case2 | case3 | case4 => assumption
  | case5 inComment read c cs _ solid noSlashes =>
    exact bare_cons.mpr ⟨by simpa using solid, by simpa using noSlashes⟩

structure Stretch where
  gap : List Char
  raw : List Char

def Stretch.text (stretch : Stretch) : List Char :=
  stretch.gap ++ stretch.raw

def spelled (parts : List Stretch) : List Char :=
  parts.flatMap Stretch.text

theorem spelled_append (front back : List Stretch) :
    spelled (front ++ back) = spelled front ++ spelled back :=
  List.flatMap_append

/-- `Cut line parts tokens`: a text that starts on the line is cut bite by bite, and a last
gap belongs to the end of input. -/
inductive Cut : Nat → List Stretch → List Token → Prop where
  | stop {line : Nat} {gap : List Char} :
      Gap gap [] → Cut line [⟨gap, []⟩] [⟨.endOfInput, "", line + gap.count '\n'⟩]
  | step {line ending : Nat} {gap cs : List Char} {c : Char} {parts : List Stretch}
      {tokens : List Token} :
      Gap gap (c :: cs) → Bare (c :: cs) → spelled parts = (bite c cs).rest →
      ending = line + gap.count '\n' + (bite c cs).text.count '\n' → Cut ending parts tokens →
      Cut line (⟨gap, (bite c cs).text⟩ :: parts) ((bite c cs).token ending :: tokens)

theorem exists_cut (line : Nat) (source : List Char) :
    ∃ parts, spelled parts = source ∧ Cut line parts
      (tokensFrom line source ++ [⟨.endOfInput, "", line + source.count '\n'⟩]) := by
  induction length : source.length using Nat.strongRecOn generalizing line source with
  | ind length ih =>
    subst length
    have whole := splitGap_append false [] source
    have gap := (gap_of_splitGap source).1
    rw [List.reverse_nil, List.nil_append] at whole
    cases found : (splitGap false [] source).2 with
    | nil =>
      rw [found, List.append_nil] at whole
      rw [found, whole] at gap
      rw [tokensFrom_of_blank found]
      exact ⟨[⟨source, []⟩], by simp [spelled, Stretch.text], .stop gap⟩
    | cons c cs =>
      have shorter := splitGap_length_le false [] source
      have taken := bite_rest_length_le c cs
      have bitten := bite_append c cs
      have bare := bare_of_splitGap false [] source
      rw [found] at whole gap bare
      rw [found, List.length_cons] at shorter
      rw [tokensFrom_of_token found rfl]
      obtain ⟨parts, rest, cut⟩ := ih _ (by omega) (line + (splitGap false [] source).1.count '\n' +
        (bite c cs).text.count '\n') (bite c cs).rest rfl
      refine ⟨⟨(splitGap false [] source).1, (bite c cs).text⟩ :: parts, ?_, ?_⟩
      · calc
          spelled (⟨(splitGap false [] source).1, (bite c cs).text⟩ :: parts) =
              (splitGap false [] source).1 ++ ((bite c cs).text ++ spelled parts) := by
            simp [spelled, Stretch.text]
          _ = source := by rw [rest, bitten, whole]
      · have lines : source.count '\n' = (splitGap false [] source).1.count '\n' +
            ((bite c cs).text.count '\n' + (bite c cs).rest.count '\n') := by
          rw [← List.count_append, bitten, ← List.count_append, whole]
        rw [List.cons_append, lines, ← Nat.add_assoc, ← Nat.add_assoc]
        exact .step gap bare rest rfl cut

theorem exists_cut_tokenize (source : String) :
    ∃ parts, spelled parts = source.toList ∧ Cut 1 parts (tokenize source).toList := by
  rw [tokenize_eq]
  exact exists_cut 1 source.toList

theorem Cut.length_eq {line : Nat} {parts : List Stretch} {tokens : List Token}
    (cut : Cut line parts tokens) : parts.length = tokens.length := by
  induction cut with
  | stop => rfl
  | step _ _ _ _ _ ih => rw [List.length_cons, List.length_cons, ih]

/-- What stands at a place of a text: the end of input behind the last gap, or a bite. -/
structure Placed (last : Prop) (stretch : Stretch) (after : List Char) (token : Token) : Prop where
  gap : Gap stretch.gap (stretch.raw ++ after)
  bare : Bare (stretch.raw ++ after)
  read : last ∧ stretch.raw = [] ∧ after = [] ∧ token = ⟨.endOfInput, "", token.line⟩ ∨
    ¬ last ∧ ∃ c cs, stretch.raw = (bite c cs).text ∧ after = (bite c cs).rest ∧
      token = (bite c cs).token token.line

theorem Cut.placed {line : Nat} {parts : List Stretch} {tokens : List Token}
    (cut : Cut line parts tokens) {i : Nat} {stretch : Stretch} {token : Token}
    (part : parts[i]? = some stretch) (found : tokens[i]? = some token) :
    Placed (i + 1 = parts.length) stretch (spelled (parts.drop (i + 1))) token ∧
      token.line = line + (spelled (parts.take (i + 1))).count '\n' := by
  induction cut generalizing i with
  | stop gap =>
    cases i with
    | zero =>
      cases part
      cases found
      refine ⟨⟨gap, ⟨by simp [spelled], by simp [spelled]⟩, .inl ⟨rfl, rfl, rfl, rfl⟩⟩, ?_⟩
      simp [spelled, Stretch.text]
    | succ i => simp at part
  | @step line ending gap cs c parts tokens blank bare rest counted cut ih =>
    cases i with
    | zero =>
      cases part
      cases found
      have more : ¬ 0 + 1 = (⟨gap, (bite c cs).text⟩ :: parts : List Stretch).length := by
        cases cut <;> simp
      have ahead : (bite c cs).text ++ spelled parts = c :: cs := by rw [rest, bite_append]
      refine ⟨⟨ahead ▸ blank, ahead ▸ bare, .inr ⟨more, c, cs, rfl, rest, ?_⟩⟩, ?_⟩
      · rw [Bite.token_line]
      · rw [Bite.token_line, counted]
        simp [spelled, Stretch.text, Nat.add_assoc]
    | succ i =>
      obtain ⟨placed, counted'⟩ := ih part found
      refine ⟨⟨placed.gap, placed.bare, by simpa using placed.read⟩, ?_⟩
      rw [counted', counted]
      simp [spelled, Stretch.text, Nat.add_assoc]

/-- The token stands for the characters, with the text `after` behind them. -/
inductive Token.Stands : Token → List Char → List Char → Prop where
  | lexeme {kind : Kind} {raw after : List Char} {line : Nat} :
      kind ≠ .error → kind ≠ .endOfInput → raw ≠ [] → Stands ⟨kind, String.ofList raw, line⟩ raw after
  | unexpected {c : Char} {after : List Char} {line : Nat} :
      Stands ⟨.error, "Unexpected character.", line⟩ [c] after
  | unterminated {raw : List Char} {line : Nat} :
      raw ≠ [] → Stands ⟨.error, "Unterminated string.", line⟩ raw []
  | stop {line : Nat} : Stands ⟨.endOfInput, "", line⟩ [] []

theorem stands_bite (c : Char) (cs : List Char) (line : Nat) :
    ((bite c cs).token line).Stands (bite c cs).text (bite c cs).rest ∧
      ((bite c cs).token line).kind ≠ .endOfInput := by
  obtain ⟨kind, read, spells⟩ | ⟨-, read, rest⟩ | ⟨-, read, text⟩ := bite_cases c cs
  · obtain ⟨regular, ongoing⟩ := spells.kind_ne
    simp only [Bite.token, read]
    exact ⟨.lexeme regular ongoing spells.ne_nil, ongoing⟩
  · simp only [Bite.token, read, rest]
    exact ⟨.unterminated (bite_text_ne_nil c cs), by decide⟩
  · simp only [Bite.token, read, text]
    exact ⟨.unexpected, by decide⟩

theorem Placed.stands {last : Prop} {stretch : Stretch} {after : List Char} {token : Token}
    (placed : Placed last stretch after token) :
    token.Stands stretch.raw after ∧ (token.kind = .endOfInput ↔ last) := by
  obtain ⟨last, raw, rest, stop⟩ | ⟨ongoing, c, cs, raw, rest, read⟩ := placed.read
  · rw [stop, raw, rest]
    exact ⟨.stop, by simp [last]⟩
  · obtain ⟨stands, further⟩ := stands_bite c cs token.line
    rw [read, raw, rest]
    exact ⟨stands, iff_of_false further ongoing⟩

theorem Cut.lexeme {line : Nat} {parts : List Stretch} {tokens : List Token}
    (cut : Cut line parts tokens) : ∀ token ∈ tokens, token.kind ≠ .error →
      token.kind ≠ .endOfInput → Lexeme token.kind token.lexeme.toList := by
  induction cut with
  | stop => simp
  | @step _ ending _ cs c _ _ _ _ _ _ _ ih =>
    refine List.forall_mem_cons.mpr ⟨fun regular _ => ?_, ih⟩
    obtain ⟨kind, read, spells⟩ | ⟨-, read, -⟩ | ⟨-, read, -⟩ := bite_cases c cs
    · simpa only [Bite.token, read, String.toList_ofList] using spells
    · exact absurd (by simp only [Bite.token, read]) regular
    · exact absurd (by simp only [Bite.token, read]) regular

theorem exists_stands {source : String} {token : Token} (member : token ∈ (tokenize source).toList) :
    ∃ front raw after, front ++ raw ++ after = source.toList ∧ token.Stands raw after ∧
      token.line = 1 + (front ++ raw).count '\n' := by
  obtain ⟨parts, whole, cut⟩ := exists_cut_tokenize source
  obtain ⟨i, bound, found⟩ := List.getElem_of_mem member
  have inside : i < parts.length := cut.length_eq ▸ bound
  have part : parts[i]? = some parts[i] := List.getElem?_eq_getElem inside
  obtain ⟨placed, counted⟩ := cut.placed part (List.getElem?_eq_some_iff.mpr ⟨bound, found⟩)
  have here : spelled (parts.take (i + 1)) =
      spelled (parts.take i) ++ parts[i].gap ++ parts[i].raw := by
    rw [List.take_add_one, part, spelled_append]
    simp [spelled, Stretch.text]
  refine ⟨_, _, _, ?_, placed.stands.1, counted.trans (by rw [here])⟩
  rw [← here, ← spelled_append, List.take_append_drop, whole]

/-- No character is lost, and the lines are counted right. Every text is its gaps and the
characters of its tokens in turns; the end of input comes last and nowhere else. -/
theorem tokenize_lossless (source : String) :
    ∃ parts : List Stretch, spelled parts = source.toList ∧
      parts.length = (tokenize source).toList.length ∧
      (∀ i stretch token, parts[i]? = some stretch → (tokenize source).toList[i]? = some token →
        Gap stretch.gap (stretch.raw ++ spelled (parts.drop (i + 1))) ∧
        token.Stands stretch.raw (spelled (parts.drop (i + 1))) ∧
        (token.kind = .endOfInput ↔ i + 1 = parts.length) ∧
        token.line = 1 + (spelled (parts.take (i + 1))).count '\n') ∧
      (tokenize source).toList.Pairwise fun token below => token.line ≤ below.line := by
  obtain ⟨parts, whole, cut⟩ := exists_cut_tokenize source
  refine ⟨parts, whole, cut.length_eq, fun i stretch token part found => ?_, tokenize_lines source⟩
  obtain ⟨placed, counted⟩ := cut.placed part found
  exact ⟨placed.gap, placed.stands.1, placed.stands.2, counted⟩

example : (tokenize "1.2.3 7.x == orchid//!").body.map Token.lexeme =
    ["1.2", ".", "3", "7", ".", "x", "==", "orchid"] := by decide +kernel

end ScriptTree
