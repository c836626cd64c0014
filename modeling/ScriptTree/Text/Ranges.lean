/-! Membership in a table of ranges of numbers, both ends included. -/
namespace ScriptTree

def inRanges (ranges : List (Nat × Nat)) (n : Nat) : Bool :=
  ranges.any fun (first, last) => decide (first ≤ n ∧ n ≤ last)

end ScriptTree
