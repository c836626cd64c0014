import Mathlib.Data.List.Basic

/-! Texts in prefix form, a head and its parts in parentheses, and their unique
readability. Strings may hold blanks, parentheses and whatever else is not a quote, and
still a form ends where it has to. -/
namespace ScriptTree

inductive PrefixForm where
  | leaf (word : String)
  | node (head : String) (parts : List PrefixForm)

namespace PrefixForm

mutual

def chars : PrefixForm → List Char
  | leaf word => word.toList
  | node head parts => '(' :: (head.toList ++ (charsAll parts ++ [')']))

def charsAll : List PrefixForm → List Char
  | [] => []
  | part :: rest => ' ' :: (part.chars ++ charsAll rest)

end

attribute [simp] chars charsAll

end PrefixForm

def isPlain (c : Char) : Bool :=
  c != ' ' && c != '(' && c != ')' && c != '"'

/-- What may stand for a leaf or a head: something in quotes, or no blank, parenthesis or
quote at all. -/
inductive Word : List Char → Prop where
  | bare {c : Char} {cs : List Char} : (∀ d ∈ c :: cs, isPlain d = true) → Word (c :: cs)
  | quoted {inside : List Char} : '"' ∉ inside → Word ('"' :: (inside ++ ['"']))

/-- Where a word may end. -/
def EndsWord (text : List Char) : Prop :=
  ∀ c ∈ text.head?, c = ' ' ∨ c = ')'

theorem endsWord_nil : EndsWord [] := nofun

theorem Word.exists_cons {word : List Char} (isWord : Word word) :
    ∃ c cs, word = c :: cs ∧ c ≠ '(' := by
  cases isWord with
  | @bare c cs plain =>
    refine ⟨c, cs, rfl, ?_⟩
    rintro rfl
    exact absurd (plain _ List.mem_cons_self) (by decide)
  | quoted => exact ⟨_, _, rfl, by decide⟩

theorem append_inj_of_stops {p : Char → Bool} {front front' rest rest' : List Char}
    (all : ∀ c ∈ front, p c = true) (all' : ∀ c ∈ front', p c = true)
    (stops : ∀ c ∈ rest.head?, p c = false) (stops' : ∀ c ∈ rest'.head?, p c = false)
    (same : front ++ rest = front' ++ rest') : front = front' ∧ rest = rest' := by
  have taken {front rest : List Char} (all : ∀ c ∈ front, p c = true)
      (stops : ∀ c ∈ rest.head?, p c = false) : (front ++ rest).takeWhile p = front := by
    rw [List.takeWhile_append_of_pos all]
    cases rest with
    | nil => exact List.append_nil front
    | cons c rest => rw [List.takeWhile_cons_of_neg (by simp [stops c rfl]), List.append_nil]
  have fronts : front = front' := by rw [← taken all stops, same, taken all' stops']
  subst fronts
  exact ⟨rfl, List.append_cancel_left same⟩

theorem Word.append_inj {word word' rest rest' : List Char} (isWord : Word word)
    (isWord' : Word word') (ends : EndsWord rest) (ends' : EndsWord rest')
    (same : word ++ rest = word' ++ rest') : word = word' ∧ rest = rest' := by
  have stops {rest : List Char} (ends : EndsWord rest) : ∀ c ∈ rest.head?, isPlain c = false := by
    intro c first
    rcases ends c first with rfl | rfl <;> rfl
  cases isWord with
  | bare plain =>
    cases isWord' with
    | bare plain' => exact append_inj_of_stops plain plain' (stops ends) (stops ends') same
    | quoted =>
      obtain ⟨rfl, -⟩ := List.cons.inj same
      exact absurd (plain _ List.mem_cons_self) (by decide)
  | @quoted inside unquoted =>
    cases isWord' with
    | bare plain' =>
      obtain ⟨rfl, -⟩ := List.cons.inj same
      exact absurd (plain' _ List.mem_cons_self) (by decide)
    | @quoted inside' unquoted' =>
      -- What is in the quotes may hold blanks and parentheses, so it is the quote that ends it.
      have other {inside : List Char} (unquoted : '"' ∉ inside) :
          ∀ c ∈ inside, (c != '"') = true := by
        rintro c member
        simpa using ne_of_mem_of_not_mem member unquoted
      simp only [List.cons_append, List.append_assoc, List.nil_append, List.cons.injEq,
        true_and] at same
      obtain ⟨rfl, tails⟩ := append_inj_of_stops (other unquoted) (other unquoted') (by simp)
        (by simp) same
      exact ⟨rfl, (List.cons.inj tails).2⟩

namespace PrefixForm

inductive OfWords : PrefixForm → Prop where
  | leaf {word : String} : Word word.toList → OfWords (.leaf word)
  | node {head : String} {parts : List PrefixForm} :
      Word head.toList → (∀ part ∈ parts, OfWords part) → OfWords (.node head parts)

theorem endsWord_charsAll (parts : List PrefixForm) (rest : List Char) :
    EndsWord (charsAll parts ++ ')' :: rest) := by
  cases parts <;> simp [EndsWord]

theorem chars_leaf_append_ne {word head : String} {parts : List PrefixForm}
    {rest rest' : List Char} (isWord : Word word.toList) :
    (leaf word).chars ++ rest ≠ (node head parts).chars ++ rest' := by
  obtain ⟨c, cs, spelled, other⟩ := isWord.exists_cons
  rw [chars, chars, spelled]
  exact fun same => other (List.cons.inj same).1

mutual

theorem chars_append_inj : ∀ {form form' : PrefixForm} {rest rest' : List Char}, form.OfWords →
    form'.OfWords → EndsWord rest → EndsWord rest' → form.chars ++ rest = form'.chars ++ rest' →
    form = form' ∧ rest = rest'
  | .leaf word, .leaf word', rest, rest', .leaf isWord, .leaf isWord', ends, ends', same => by
    obtain ⟨spelled, tails⟩ := isWord.append_inj isWord' ends ends' same
    exact ⟨congrArg leaf (String.toList_inj.mp spelled), tails⟩
  | .node head parts, .node head' parts', rest, rest', .node isWord plain, .node isWord' plain',
    ends, ends', same => by
    simp only [chars, List.cons_append, List.append_assoc, List.nil_append, List.cons.injEq,
      true_and] at same
    obtain ⟨spelled, behind⟩ := isWord.append_inj isWord' (endsWord_charsAll parts rest)
      (endsWord_charsAll parts' rest') same
    obtain ⟨others, tails⟩ := charsAll_append_inj plain plain' behind
    exact ⟨by rw [String.toList_inj.mp spelled, others], tails⟩
  | .leaf _, .node _ _, _, _, .leaf isWord, _, _, _, same =>
    absurd same (chars_leaf_append_ne isWord)
  | .node _ _, .leaf _, _, _, _, .leaf isWord, _, _, same =>
    absurd same.symm (chars_leaf_append_ne isWord)

theorem charsAll_append_inj : ∀ {parts parts' : List PrefixForm} {rest rest' : List Char},
    (∀ part ∈ parts, part.OfWords) → (∀ part ∈ parts', part.OfWords) →
    charsAll parts ++ ')' :: rest = charsAll parts' ++ ')' :: rest' →
    parts = parts' ∧ rest = rest'
  | [], [], rest, rest', _, _, same => ⟨rfl, (List.cons.inj same).2⟩
  | [], _ :: _, rest, rest', _, _, same => by simp at same
  | _ :: _, [], rest, rest', _, _, same => by simp at same
  | part :: parts, part' :: parts', rest, rest', plain, plain', same => by
    simp only [charsAll, List.cons_append, List.append_assoc, List.cons.injEq, true_and] at same
    obtain ⟨first, plain⟩ := List.forall_mem_cons.mp plain
    obtain ⟨first', plain'⟩ := List.forall_mem_cons.mp plain'
    obtain ⟨alike, behind⟩ := chars_append_inj first first' (endsWord_charsAll parts rest)
      (endsWord_charsAll parts' rest') same
    obtain ⟨others, tails⟩ := charsAll_append_inj plain plain' behind
    exact ⟨by rw [alike, others], tails⟩

end

theorem chars_inj {form form' : PrefixForm} (plain : form.OfWords) (plain' : form'.OfWords)
    (same : form.chars = form'.chars) : form = form' := by
  have alike : form.chars ++ [] = form'.chars ++ [] := by rw [same]
  exact (chars_append_inj plain plain' endsWord_nil endsWord_nil alike).1

end PrefixForm

end ScriptTree
