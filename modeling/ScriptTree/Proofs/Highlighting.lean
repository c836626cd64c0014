import Mathlib.Data.List.TakeWhile
import ScriptTree.Viewer.Highlight

/-! What colouring makes of a line. The fragments spell the line, and each of them shows by its
characters why it has its tint: a string has quotes at its ends and nowhere else, and a comment
is the last of them. It makes no difference whether a word is taken at once or grows with every
character until something else is met. -/
namespace ScriptTree

def fragments (cs : List Char) : List Fragment :=
  fragmentsFrom [] cs

theorem highlight_eq (line : String) : highlight line = fragments line.toList := rfl

theorem fragmentsFrom_eq (done : List Fragment) (cs : List Char) :
    fragmentsFrom done cs = done.reverse ++ fragments cs := by
  have further (done more : List Fragment) :
      fragmentsFrom (done ++ more) cs = more.reverse ++ fragmentsFrom done cs := by
    fun_induction fragmentsFrom done cs with
    | case1 done => simp [fragmentsFrom]
    | case2 done c cs ih => rw [fragmentsFrom, ← ih]; rfl
  exact further [] done

@[simp] theorem fragments_nil : fragments [] = [] := by
  rw [fragments, fragmentsFrom]
  rfl

theorem fragments_cons (c : Char) (cs : List Char) :
    fragments (c :: cs) = (fragment c cs).1 :: fragments (fragment c cs).2 := by
  rw [fragments, fragmentsFrom, fragmentsFrom_eq]
  rfl

theorem fragments_induction {motive : List Char → List Fragment → Prop} (nil : motive [] [])
    (cons : ∀ c cs, motive (fragment c cs).2 (fragments (fragment c cs).2) →
      motive (c :: cs) ((fragment c cs).1 :: fragments (fragment c cs).2))
    (cs : List Char) : motive cs (fragments cs) := by
  induction length : cs.length using Nat.strongRecOn generalizing cs with
  | ind length ih =>
    subst length
    cases cs with
    | nil => rwa [fragments_nil]
    | cons c cs =>
      have shorter := fragment_rest_length_le c cs
      rw [fragments_cons]
      exact cons c cs (ih _ (by rw [List.length_cons]; omega) _ rfl)

/-- A quote at the front and none behind it, unless it is the last character. -/
def Quoted (text : List Char) : Prop :=
  ∃ inside closing, text = '"' :: (inside ++ closing) ∧ '"' ∉ inside ∧
    (closing = [] ∨ closing = ['"'])

theorem wordTint_ne (word : List Char) : wordTint word ≠ .string ∧ wordTint word ≠ .comment := by
  unfold wordTint
  split
  all_goals first | decide | (split <;> decide)

theorem symbolTint_ne (c : Char) : symbolTint c ≠ .string ∧ symbolTint c ≠ .comment := by
  unfold symbolTint
  split <;> decide

theorem fragment_cases (c : Char) (cs : List Char) :
    (fragment c cs).1.tint = .comment ∧ ['/', '/'] <+: (fragment c cs).1.text ∧
        (fragment c cs).2 = [] ∨
      (fragment c cs).1.tint = .string ∧ Quoted (fragment c cs).1.text ∨
      (fragment c cs).1.tint ≠ .string ∧ (fragment c cs).1.tint ≠ .comment := by
  unfold fragment
  split
  next slashes =>
    simp only [Bool.and_eq_true, beq_iff_eq] at slashes
    obtain ⟨rfl, second⟩ := slashes
    obtain ⟨ds, rfl⟩ := List.head?_eq_some_iff.mp second
    exact .inl ⟨rfl, ⟨ds, rfl⟩, rfl⟩
  next =>
    split
    next quote =>
      have unquoted : '"' ∉ cs.takeWhile (· != '"') := fun member => by
        simpa using List.mem_takeWhile_imp member
      rw [beq_iff_eq] at quote
      subst quote
      refine .inr (.inl ?_)
      simp only
      split
      next => exact ⟨rfl, _, [], by simp, unquoted, .inl rfl⟩
      next closing rest closed =>
        have closing : closing = '"' := by
          simpa [closed] using List.head?_dropWhile_not (· != '"') cs
        subst closing
        exact ⟨rfl, _, ['"'], rfl, unquoted, .inr rfl⟩
    next =>
      split
      · exact .inr (.inr (wordTint_ne _))
      · exact .inr (.inr (symbolTint_ne c))

theorem flatMap_fragments (cs : List Char) : (fragments cs).flatMap Fragment.text = cs := by
  induction cs using fragments_induction with
  | nil => rfl
  | cons c cs ih => rw [List.flatMap_cons, ih, fragment_append]

theorem fragments_ne_nil (cs : List Char) : ∀ found ∈ fragments cs, found.text ≠ [] := by
  induction cs using fragments_induction with
  | nil => exact nofun
  | cons c cs ih => exact List.forall_mem_cons.mpr ⟨fragment_text_ne_nil c cs, ih⟩

theorem fragments_quoted (cs : List Char) :
    ∀ found ∈ fragments cs, found.tint = .string → Quoted found.text := by
  induction cs using fragments_induction with
  | nil => exact nofun
  | cons c cs ih =>
    refine List.forall_mem_cons.mpr ⟨fun string => ?_, ih⟩
    obtain ⟨comment, -⟩ | ⟨-, quoted⟩ | ⟨other, -⟩ := fragment_cases c cs
    · rw [comment] at string
      contradiction
    · exact quoted
    · contradiction

theorem fragments_comment (cs : List Char) {i : Nat} {found : Fragment}
    (here : (fragments cs)[i]? = some found) (comment : found.tint = .comment) :
    i + 1 = (fragments cs).length ∧ ['/', '/'] <+: found.text := by
  induction cs using fragments_induction generalizing i with
  | nil => simp at here
  | cons c cs ih =>
    cases i with
    | zero =>
      obtain rfl := Option.some.inj here
      obtain ⟨-, slashes, rest⟩ | ⟨string, -⟩ | ⟨-, other⟩ := fragment_cases c cs
      · exact ⟨by rw [rest, fragments_nil, List.length_singleton], slashes⟩
      · rw [string] at comment
        contradiction
      · contradiction
    | succ i =>
      obtain ⟨last, slashes⟩ := ih here
      exact ⟨by rw [List.length_cons, last], slashes⟩

def wordFragment (word : List Char) : List Fragment :=
  if word = [] then [] else [⟨word, wordTint word⟩]

/-- The fragments of a line when a word grows character by character, and is pending until
something is met that is no part of it. -/
def growing (word : List Char) : List Char → List Fragment
  | [] => wordFragment word
  | c :: cs =>
    if isWordLike c then growing (word ++ [c]) cs
    else wordFragment word ++ (fragment c cs).1 :: growing [] (fragment c cs).2
termination_by cs => cs.length
decreasing_by
  · exact Nat.lt_succ_self _
  · have shorter := fragment_rest_length_le c cs
    simp only [List.length_cons]
    omega

theorem fragment_of_isWordLike {c : Char} (part : isWordLike c = true) (cs : List Char) :
    fragment c cs = (⟨c :: cs.takeWhile isWordLike, wordTint (c :: cs.takeWhile isWordLike)⟩,
      cs.dropWhile isWordLike) := by
  have slash : c ≠ '/' := by
    rintro rfl
    exact absurd part (by decide +kernel)
  have quote : c ≠ '"' := by
    rintro rfl
    exact absurd part (by decide +kernel)
  simp [fragment, part, slash, quote]

theorem fragments_eq_word (cs : List Char) :
    fragments cs = wordFragment (cs.takeWhile isWordLike) ++ fragments (cs.dropWhile isWordLike) := by
  cases cs with
  | nil => simp [wordFragment]
  | cons c cs =>
    by_cases part : isWordLike c = true
    · rw [fragments_cons, fragment_of_isWordLike part, List.takeWhile_cons_of_pos part,
        List.dropWhile_cons_of_pos part]
      simp [wordFragment]
    · rw [List.takeWhile_cons_of_neg part, List.dropWhile_cons_of_neg part]
      simp [wordFragment]

theorem growing_eq (word cs : List Char) :
    growing word cs =
      wordFragment (word ++ cs.takeWhile isWordLike) ++ fragments (cs.dropWhile isWordLike) := by
  fun_induction growing word cs with
  | case1 word => simp
  | case2 word c cs part ih =>
    rw [ih, List.takeWhile_cons_of_pos part, List.dropWhile_cons_of_pos part, List.append_assoc,
      List.singleton_append]
  | case3 word c cs other ih =>
    rw [ih, List.takeWhile_cons_of_neg other, List.dropWhile_cons_of_neg other, List.append_nil,
      fragments_cons, List.nil_append, ← fragments_eq_word]

/-- Colouring a line changes nothing in it, whether a word is taken at once or grows: the
fragments spell the line and none of them is empty. A string starts with a quote and has no
other one but at its end; a comment starts with two slashes and ends the line. -/
theorem highlight_spells (line : String) :
    highlight line = growing [] line.toList ∧
      (highlight line).flatMap Fragment.text = line.toList ∧
      (∀ found ∈ highlight line, found.text ≠ []) ∧
      (∀ found ∈ highlight line, found.tint = .string → Quoted found.text) ∧
      ∀ (i : Nat) (found : Fragment), (highlight line)[i]? = some found → found.tint = .comment →
        i + 1 = (highlight line).length ∧ ['/', '/'] <+: found.text := by
  have grown : growing [] line.toList = highlight line := by
    rw [growing_eq, List.nil_append, ← fragments_eq_word, highlight_eq]
  exact ⟨grown.symm, flatMap_fragments _, fragments_ne_nil _, fragments_quoted _,
    fun _ _ => fragments_comment _⟩

/-- A word in front of a string with slashes in it, and a comment with a quote in it. -/
theorem highlight_spells_comment :
    (highlight "ü.1\"//\"//\"").flatMap Fragment.text = "ü.1\"//\"//\"".toList ∧
      ⟨['"', '/', '/', '"'], .string⟩ ∈ highlight "ü.1\"//\"//\"" ∧
      Quoted ['"', '/', '/', '"'] ∧
      (highlight "ü.1\"//\"//\"")[2]? = some ⟨['/', '/', '"'], .comment⟩ ∧
      2 + 1 = (highlight "ü.1\"//\"//\"").length ∧ ['/', '/'] <+: ['/', '/', '"'] := by
  obtain ⟨-, spelled, -, quoted, comment⟩ := highlight_spells "ü.1\"//\"//\""
  have string : ⟨['"', '/', '/', '"'], .string⟩ ∈ highlight "ü.1\"//\"//\"" := by decide +kernel
  have last : (highlight "ü.1\"//\"//\"")[2]? = some ⟨['/', '/', '"'], .comment⟩ := by
    decide +kernel
  exact ⟨spelled, string, quoted _ string rfl, last, comment 2 _ last rfl⟩

end ScriptTree
