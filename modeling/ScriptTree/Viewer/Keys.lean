import ScriptTree.Viewer.State

/-! The keys that a terminal sends as characters. -/
namespace ScriptTree

def Key.ofSequence? : Char → Option Key
  | 'A' => some .up
  | 'B' => some .down
  | 'C' => some .right
  | 'D' => some .left
  | 'H' => some .home
  | 'F' => some .last
  | 'Z' => some .backTab
  | _ => none

/-- An escape that begins no sequence stands for itself. -/
def Key.ofChars : List Char → List Key
  | [] => []
  | '\t' :: rest => .tab :: ofChars rest
  | '\x1b' :: '[' :: c :: rest =>
    match Key.ofSequence? c with
    | some key => key :: ofChars rest
    | none => ofChars rest
  | '\x1b' :: rest => .escape :: ofChars rest
  | c :: rest => .char c :: ofChars rest

end ScriptTree
