import ScriptTree.Tree.Stmt

/-! Two statements are equal when they have the same shape and the same tokens,
lines included, and whether they are is decided by walking both. -/
namespace ScriptTree

namespace Stmt

mutual

def same : Stmt → Stmt → Bool
  | block ⟨⟨xs⟩, m⟩, block ⟨⟨ys⟩, n⟩ => m == n && sameAll xs ys
  | expr x, expr y => x == y
  | branch c x none, branch d y none => c == d && x.same y
  | branch c x (some z), branch d y (some w) => c == d && x.same y && z.same w
  | whileLoop c x, whileLoop d y => c == d && x.same y
  | forLoop a b c d, forLoop e f g h => a.same e && b.same f && c.same g && d.same h
  | declare x none, declare y none => x == y
  | declare x (some a), declare y (some b) => x == y && a.same b
  | _, _ => false

def sameAll : List Stmt → List Stmt → Bool
  | [], [] => true
  | x :: xs, y :: ys => x.same y && sameAll xs ys
  | _, _ => false

end

mutual

theorem same_iff : (x y : Stmt) → (x.same y = true ↔ x = y)
  | block ⟨⟨xs⟩, m⟩, y => by
    cases y with
    | block body => obtain ⟨⟨ys⟩, n⟩ := body; simp [same, sameAll_iff xs ys, and_comm]
    | _ => simp [same]
  | expr x, y => by cases y <;> simp [same]
  | branch c x none, y => by
    cases y with
    | branch d y no => cases no <;> simp [same, same_iff x y]
    | _ => simp [same]
  | branch c x (some z), y => by
    cases y with
    | branch d y no =>
      cases no with
      | none => simp [same]
      | some w => simp [same, same_iff x y, same_iff z w, and_assoc]
    | _ => simp [same]
  | whileLoop c x, y => by
    cases y with
    | whileLoop d y => simp [same, same_iff x y]
    | _ => simp [same]
  | forLoop a b c d, y => by
    cases y with
    | forLoop e f g h =>
      simp [same, same_iff a e, same_iff b f, same_iff c g, same_iff d h, and_assoc]
    | _ => simp [same]
  | declare x none, y => by
    cases y with
    | declare y init => cases init <;> simp [same]
    | _ => simp [same]
  | declare x (some a), y => by
    cases y with
    | declare y init =>
      cases init with
      | none => simp [same]
      | some b => simp [same, same_iff a b]
    | _ => simp [same]

theorem sameAll_iff : (xs ys : List Stmt) → (sameAll xs ys = true ↔ xs = ys)
  | [], ys => by cases ys <;> simp [sameAll]
  | x :: xs, ys => by
    cases ys with
    | nil => simp [sameAll]
    | cons y ys => simp [sameAll, same_iff x y, sameAll_iff xs ys]

end

instance : DecidableEq Stmt := fun x y => decidable_of_iff _ (same_iff x y)

end Stmt

end ScriptTree
