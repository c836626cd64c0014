import ScriptTree.Text.Alphanumeric
import ScriptTree.Token.Scan
import ScriptTree.Viewer.Palette

/-! Colouring one line of a script. The line is cut into fragments that spell
it: words, strings, single symbols, and a comment that takes the rest. A line
is coloured by itself, so a string that runs over several lines is not seen. -/
namespace ScriptTree

inductive Tint where
  | keyword
  | literal
  | string
  | comment
  | bracket
  | plain
deriving DecidableEq, Repr

def Tint.style : Tint → Style
  | .keyword => { fg := some Palette.keyword, bold := true }
  | .literal | .string => { fg := some Palette.literal }
  | .comment => { fg := some Palette.muted }
  | .bracket => { fg := some Palette.bracket }
  | .plain => { fg := some Palette.text }

structure Fragment where
  text : List Char
  tint : Tint
deriving DecidableEq, Repr

/-- A point is part of a word, so that a number stays whole. -/
def isWordLike (c : Char) : Bool :=
  isAlphanumeric c || c == '_' || c == '.'

def wordTint (word : List Char) : Tint :=
  match wordKind (String.ofList word) with
  | .trueWord | .falseWord | .nullWord => .literal
  | .identifier => if (word.head?.map Char.isDigit).getD false then .literal else .plain
  | _ => .keyword

def symbolTint : Char → Tint
  | '{' | '}' | '(' | ')' | '[' | ']' => .bracket
  | _ => .plain

/-- The fragment at the front of a line that starts with `c`, and what follows
it. A string ends at the next quote or with the line. -/
def fragment (c : Char) (cs : List Char) : Fragment × List Char :=
  if c == '/' && cs.head? == some '/' then (⟨c :: cs, .comment⟩, [])
  else if c == '"' then
    let inside := cs.takeWhile (· != '"')
    match cs.dropWhile (· != '"') with
    | [] => (⟨c :: inside, .string⟩, [])
    | quote :: rest => (⟨c :: (inside ++ [quote]), .string⟩, rest)
  else if isWordLike c then
    let word := c :: cs.takeWhile isWordLike
    (⟨word, wordTint word⟩, cs.dropWhile isWordLike)
  else (⟨[c], symbolTint c⟩, cs)

theorem fragment_append (c : Char) (cs : List Char) :
    (fragment c cs).1.text ++ (fragment c cs).2 = c :: cs := by
  unfold fragment
  split
  next => simp
  next =>
    split
    next =>
      have h := List.takeWhile_append_dropWhile (p := (· != '"')) (l := cs)
      simp only
      split
      next none => simp_all
      next quote rest some =>
        rw [some] at h
        simp [h]
    next =>
      split
      next => simp [List.takeWhile_append_dropWhile]
      next => simp

theorem fragment_text_ne_nil (c : Char) (cs : List Char) : (fragment c cs).1.text ≠ [] := by
  unfold fragment
  simp only
  repeat' split
  all_goals simp

theorem fragment_rest_length_le (c : Char) (cs : List Char) :
    (fragment c cs).2.length ≤ cs.length := by
  have same := congrArg List.length (fragment_append c cs)
  have some := List.length_pos_iff.mpr (fragment_text_ne_nil c cs)
  simp only [List.length_append, List.length_cons] at same
  omega

/-- The fragments found so far come backwards. -/
def fragmentsFrom (done : List Fragment) : List Char → List Fragment
  | [] => done.reverse
  | c :: cs => fragmentsFrom ((fragment c cs).1 :: done) (fragment c cs).2
termination_by cs => cs.length
decreasing_by
  have shorter := fragment_rest_length_le c cs
  simp only [List.length_cons]
  omega

def highlight (line : String) : List Fragment :=
  fragmentsFrom [] line.toList

end ScriptTree
