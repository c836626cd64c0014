import ScriptTree.Token.Scan

/-! Texts one below the other. A line break ends every token but a string that
has no end, so the tokens of two texts with a line break between them are the
tokens of the first and then those of the second, counted from a later line. -/
namespace ScriptTree

theorem takeWhile_append_stop {p : Char → Bool} {stop : Char} (stops : p stop = false)
    (front back : List Char) : (front ++ stop :: back).takeWhile p = front.takeWhile p := by
  rw [List.takeWhile_append, List.takeWhile_cons, stops]
  split
  next all =>
    rw [(List.takeWhile_prefix p).eq_of_length all]
    exact List.append_nil front
  next => rfl

theorem dropWhile_append_stop {p : Char → Bool} {stop : Char} (stops : p stop = false)
    (front back : List Char) :
    (front ++ stop :: back).dropWhile p = front.dropWhile p ++ stop :: back := by
  rw [List.dropWhile_append, List.dropWhile_cons, stops]
  split
  next none =>
    rw [List.isEmpty_iff.mp none]
    rfl
  next => rfl

def Bite.before (bite : Bite) (more : List Char) : Bite :=
  { bite with rest := bite.rest ++ more }

theorem biteString_before {cs : List Char} (back : List Char)
    (ended : (biteString cs).reading ≠ .error .unterminatedString) :
    biteString (cs ++ back) = (biteString cs).before back := by
  unfold biteString at *
  have whole := List.takeWhile_append_dropWhile (p := (· != '"')) (l := cs)
  cases closing : cs.dropWhile (· != '"') with
  | nil => simp [closing] at ended
  | cons quote rest =>
    have inside : cs.takeWhile (· != '"') ≠ cs := by
      intro same
      rw [same, closing] at whole
      simp at whole
    have shorter : (cs.takeWhile (· != '"')).length ≠ cs.length := fun same =>
      inside ((List.takeWhile_prefix _).eq_of_length same)
    rw [List.takeWhile_append, if_neg shorter, List.dropWhile_append, closing]
    rfl

theorem biteNumber_before (c : Char) (cs back : List Char) :
    biteNumber c (cs ++ '\n' :: back) = (biteNumber c cs).before ('\n' :: back) := by
  unfold biteNumber
  rw [takeWhile_append_stop (by decide), dropWhile_append_stop (by decide)]
  rcases cs.dropWhile Char.isDigit with _ | ⟨point, _ | ⟨d, rest⟩⟩
  · rfl
  · by_cases dot : point = '.'
    · subst dot
      rfl
    · simp [dot, Bite.before]
  · by_cases dot : point = '.'
    · subst dot
      simp only [List.cons_append]
      split
      · rw [takeWhile_append_stop (by decide), dropWhile_append_stop (by decide)]
        rfl
      · rfl
    · simp [dot, Bite.before]

theorem biteWord_before (c : Char) (cs back : List Char) :
    biteWord c (cs ++ '\n' :: back) = (biteWord c cs).before ('\n' :: back) := by
  unfold biteWord Bite.before
  rw [takeWhile_append_stop (by decide), dropWhile_append_stop (by decide)]

theorem biteSymbol_before (c : Char) (cs back : List Char) :
    biteSymbol c (cs ++ '\n' :: back) = (biteSymbol c cs).before ('\n' :: back) := by
  unfold biteSymbol
  cases symbolKind? c with
  | none => rfl
  | some kind =>
    cases longer : kind.beforeEqual? with
    | none => simp [longer, Bite.before]
    | some kind' =>
      cases cs with
      | nil => simp [longer, Bite.before]
      | cons d cs =>
        by_cases equal : d = '='
        · subst equal
          simp [longer, Bite.before]
        · simp [longer, equal, Bite.before]

theorem bite_before {c : Char} {cs : List Char} (back : List Char)
    (ended : (bite c cs).reading ≠ .error .unterminatedString) :
    bite c (cs ++ '\n' :: back) = (bite c cs).before ('\n' :: back) := by
  unfold bite at *
  split
  next quote =>
    rw [if_pos quote] at ended
    exact biteString_before _ ended
  next =>
    split
    · exact biteNumber_before c cs back
    · split
      · exact biteWord_before c cs back
      · exact biteSymbol_before c cs back

theorem splitGap_read (inComment : Bool) (read cs : List Char) :
    splitGap inComment read cs =
      (read.reverse ++ (splitGap inComment [] cs).1, (splitGap inComment [] cs).2) := by
  have further (inComment : Bool) (read more cs : List Char) :
      splitGap inComment (read ++ more) cs =
        (more.reverse ++ (splitGap inComment read cs).1, (splitGap inComment read cs).2) := by
    fun_induction splitGap inComment read cs <;> simp_all [splitGap]
  exact further inComment [] read cs

theorem head?_before_break (cs back : List Char) :
    ((cs ++ '\n' :: back).head? == some '/') = (cs.head? == some '/') := by
  cases cs <;> rfl

theorem splitGap_before {inComment : Bool} {read cs rest : List Char} {c : Char} (back : List Char)
    (token : (splitGap inComment read cs).2 = c :: rest) :
    splitGap inComment read (cs ++ '\n' :: back) =
      ((splitGap inComment read cs).1, c :: (rest ++ '\n' :: back)) := by
  fun_induction splitGap inComment read cs with
  | case1 => simp at token
  | case2 read d cs ih =>
    rw [List.cons_append, splitGap, if_pos rfl]
    exact ih token
  | case3 inComment read d cs noComment blank ih =>
    rw [List.cons_append, splitGap, if_neg noComment, if_pos blank]
    exact ih token
  | case4 inComment read d cs noComment noBlank slashes ih =>
    rw [List.cons_append, splitGap, if_neg noComment, if_neg noBlank, head?_before_break,
      if_pos slashes]
    exact ih token
  | case5 inComment read d cs noComment noBlank noSlashes =>
    obtain ⟨rfl, rfl⟩ := List.cons.inj token
    rw [List.cons_append, splitGap, if_neg noComment, if_neg noBlank, head?_before_break,
      if_neg noSlashes]

/-- A gap that runs to the end goes on behind the line break, also if it ends in
a comment. -/
theorem splitGap_over {inComment : Bool} {read cs : List Char} (back : List Char)
    (blank : (splitGap inComment read cs).2 = []) :
    splitGap inComment read (cs ++ '\n' :: back) =
      splitGap false ('\n' :: (cs.reverse ++ read)) back := by
  fun_induction splitGap inComment read cs with
  | case1 inComment read =>
    cases inComment with
    | true => simp [splitGap]
    | false => simp [splitGap, isBlank]
  | case2 read d cs ih =>
    rw [List.cons_append, splitGap, if_pos rfl, ih blank]
    simp
  | case3 inComment read d cs noComment space ih =>
    rw [List.cons_append, splitGap, if_neg noComment, if_pos space, ih blank]
    simp
  | case4 inComment read d cs noComment noSpace slashes ih =>
    rw [List.cons_append, splitGap, if_neg noComment, if_neg noSpace, head?_before_break,
      if_pos slashes, ih blank]
    simp
  | case5 => simp at blank

theorem splitGap_break {front : List Char} (back : List Char)
    (blank : (splitGap false [] front).2 = []) :
    splitGap false [] (front ++ '\n' :: back) =
      (front ++ '\n' :: (splitGap false [] back).1, (splitGap false [] back).2) := by
  rw [splitGap_over back blank, splitGap_read]
  simp

/-- The tokens of a text that starts on a line. -/
def tokensFrom (line : Nat) (source : List Char) : List Token :=
  (scanFrom line [] source).pieces.map Piece.token

def Bite.token (bite : Bite) (line : Nat) : Token :=
  match bite.reading with
  | .ok kind => ⟨kind, String.ofList bite.text, line⟩
  | .error fault => ⟨.error, fault.message, line⟩

theorem tokensFrom_of_blank {line : Nat} {source : List Char}
    (blank : (splitGap false [] source).2 = []) : tokensFrom line source = [] := by
  unfold tokensFrom
  rw [scanFrom]
  split
  · rfl
  next found => simp [found] at blank

theorem scanFrom_pieces (line : Nat) (done : List Piece) (source : List Char) :
    (scanFrom line done source).pieces = done.reverse ++ (scanFrom line [] source).pieces := by
  induction length : source.length using Nat.strongRecOn generalizing line done source with
  | ind length ih =>
    subst length
    rw [scanFrom, scanFrom]
    split
    · simp
    next gap c cs found =>
      have shorter := splitGap_length_le false [] source
      have taken := bite_rest_length_le c cs
      rw [found, List.length_cons] at shorter
      rw [ih _ (by omega) _ _ _ rfl, ih _ (by omega) _ [_] _ rfl]
      simp

theorem tokensFrom_of_token {line : Nat} {source cs : List Char} {c : Char}
    (token : (splitGap false [] source).2 = c :: cs) {ending : Nat}
    (counted : ending = line + (splitGap false [] source).1.count '\n' +
      (bite c cs).text.count '\n') :
    tokensFrom line source = (bite c cs).token ending :: tokensFrom ending (bite c cs).rest := by
  unfold tokensFrom
  rw [scanFrom]
  split
  next gap found => simp [found] at token
  next gap d ds found =>
    rw [found] at token counted
    obtain ⟨rfl, rfl⟩ := List.cons.inj token
    rw [scanFrom_pieces, counted]
    rfl

theorem scanFrom_lastLine (line : Nat) (done : List Piece) (source : List Char) :
    (scanFrom line done source).lastLine = line + source.count '\n' := by
  induction length : source.length using Nat.strongRecOn generalizing line done source with
  | ind length ih =>
    subst length
    have whole := splitGap_append false [] source
    rw [scanFrom]
    split
    next gap found =>
      rw [found] at whole
      simpa using congrArg (fun cs => line + cs.count '\n') whole
    next gap c cs found =>
      have shorter := splitGap_length_le false [] source
      have taken := bite_rest_length_le c cs
      have bitten := bite_append c cs
      simp only [found, List.length_cons] at shorter
      simp only [found, List.reverse_nil, List.nil_append] at whole
      rw [ih _ (by omega) _ _ _ rfl, ← whole, ← bitten, List.count_append, List.count_append]
      omega

def Terminated (tokens : List Token) : Prop :=
  ∀ token ∈ tokens, ¬ (token.kind = .error ∧ token.lexeme = Fault.unterminatedString.message)

theorem tokensFrom_congr {line line' : Nat} {source source' : List Char}
    (same : (splitGap false [] source).2 = (splitGap false [] source').2)
    (counted : line + (splitGap false [] source).1.count '\n' =
      line' + (splitGap false [] source').1.count '\n') :
    tokensFrom line source = tokensFrom line' source' := by
  cases found : (splitGap false [] source).2 with
  | nil => rw [tokensFrom_of_blank found, tokensFrom_of_blank (same ▸ found)]
  | cons c cs =>
    have found' : (splitGap false [] source').2 = c :: cs := same ▸ found
    rw [tokensFrom_of_token found rfl, tokensFrom_of_token found' rfl, counted]

/-- The tokens of a text and of another one below it. -/
theorem tokensFrom_append (line : Nat) (front back : List Char)
    (ended : Terminated (tokensFrom line front)) :
    tokensFrom line (front ++ '\n' :: back) =
      tokensFrom line front ++ tokensFrom (line + front.count '\n' + 1) back := by
  induction length : front.length using Nat.strongRecOn generalizing line front with
  | ind length ih =>
    subst length
    have whole := splitGap_append false [] front
    rw [List.reverse_nil, List.nil_append] at whole
    cases found : (splitGap false [] front).2 with
    | nil =>
      have behind := splitGap_break back found
      rw [tokensFrom_of_blank found, List.nil_append]
      apply tokensFrom_congr
      · rw [behind]
      · rw [behind, List.count_append, List.count_cons_self]
        omega
    | cons c cs =>
      have shorter := splitGap_length_le false [] front
      have taken := bite_rest_length_le c cs
      have bitten := bite_append c cs
      rw [found, List.length_cons] at shorter
      rw [found] at whole
      rw [tokensFrom_of_token found rfl] at ended ⊢
      have fine : (bite c cs).reading ≠ .error .unterminatedString := by
        intro unended
        exact ended _ List.mem_cons_self (by simp [Bite.token, unended])
      have further := splitGap_before back found
      have next : (splitGap false [] (front ++ '\n' :: back)).2 = c :: (cs ++ '\n' :: back) := by
        rw [further]
      have lines : front.count '\n' = (splitGap false [] front).1.count '\n' +
          ((bite c cs).text.count '\n' + (bite c cs).rest.count '\n') := by
        rw [← List.count_append, bitten, ← List.count_append, whole]
      rw [tokensFrom_of_token next rfl, further, bite_before back fine]
      simp only [Bite.before, Bite.token, List.cons_append, List.cons.injEq, true_and]
      rw [ih _ (by omega) _ _ (fun token member => ended token (List.mem_cons_of_mem _ member)) rfl,
        lines]
      simp only [Nat.add_assoc]

def Token.down (lines : Nat) (token : Token) : Token :=
  { token with line := token.line + lines }

theorem tokensFrom_down (line lines : Nat) (source : List Char) :
    tokensFrom (line + lines) source = (tokensFrom line source).map (Token.down lines) := by
  induction length : source.length using Nat.strongRecOn generalizing line source with
  | ind length ih =>
    subst length
    cases found : (splitGap false [] source).2 with
    | nil => rw [tokensFrom_of_blank found, tokensFrom_of_blank found, List.map_nil]
    | cons c cs =>
      have shorter := splitGap_length_le false [] source
      have taken := bite_rest_length_le c cs
      rw [found, List.length_cons] at shorter
      have counted : line + lines + (splitGap false [] source).1.count '\n' +
          (bite c cs).text.count '\n' =
          line + (splitGap false [] source).1.count '\n' + (bite c cs).text.count '\n' + lines := by
        omega
      rw [tokensFrom_of_token found rfl, tokensFrom_of_token found rfl, counted, List.map_cons,
        ih _ (by omega) _ _ rfl]
      congr 1
      unfold Bite.token
      split <;> rfl

theorem tokenize_eq (source : String) :
    tokenize source = ⟨tokensFrom 1 source.toList,
      ⟨.endOfInput, "", 1 + source.toList.count '\n'⟩⟩ := by
  rw [← scanFrom_lastLine 1 []]
  rfl

theorem tokenize_ofList_body (source : List Char) :
    (tokenize (String.ofList source)).body = tokensFrom 1 source := by
  rw [tokenize_eq, String.toList_ofList]

/-- The number of lines by which a text moves what stands below it. -/
def linesOf (source : String) : Nat :=
  source.toList.count '\n' + 1

/-- The tokens of two texts, one below the other. -/
theorem tokenize_append {front : String} (back : String)
    (ended : Terminated (tokenize front).body) :
    tokenize (front ++ "\n" ++ back) =
      ⟨(tokenize front).body ++ (tokenize back).body.map (Token.down (linesOf front)),
        (tokenize back).stop.down (linesOf front)⟩ := by
  have chars : (front ++ "\n" ++ back).toList = front.toList ++ '\n' :: back.toList := by
    simp [String.toList_append]
  rw [tokenize_eq] at ended
  rw [tokenize_eq, tokenize_eq front, tokenize_eq back, chars, tokensFrom_append _ _ _ ended,
    ← tokensFrom_down, List.count_append, List.count_cons_self]
  simp only [Token.down, linesOf, Tokens.mk.injEq, Token.mk.injEq, true_and]
  constructor
  · rw [Nat.add_assoc]
  · omega

end ScriptTree
