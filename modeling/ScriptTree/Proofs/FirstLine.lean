import ScriptTree.Proofs.BlameOrder
import ScriptTree.Proofs.Height
import ScriptTree.Proofs.SourceOrder

/-! The line of an expression. It is looked up on the way down to the left and nowhere else,
and that finds the first operator or name of the expression. The tokens of a text stand on
its lines from the top down, so no other one stands on a line above. -/
namespace ScriptTree

def Mark.token? : Mark → Option Token
  | .token kept => some kept
  | .literal .. => none

def Expr.tokens (expr : Expr) : List Token :=
  expr.marks.filterMap Mark.token?

/-- The way down to the left ends at the first token. -/
theorem Expr.line?_eq_head? (expr : Expr) : expr.line? = (expr.tokens.map Token.line).head? := by
  induction expr with
  | binary operator left right ihLeft =>
    simp only [tokens, marks, line?, ihLeft, List.filterMap_append, List.map_append,
      List.head?_append]
    rfl
  | unary | literal | name | assign => rfl
  | grouping inner ih => exact ih

theorem Expr.marks_sublist {expr part : Expr} (member : part ∈ expr.parts) :
    part.marks.Sublist expr.marks := by
  induction expr with
  | binary operator left right ihLeft ihRight =>
    simp only [parts, List.mem_cons, List.mem_append] at member
    rcases member with rfl | member | member
    · exact List.Sublist.refl _
    · exact List.sublist_append_of_sublist_left (ihLeft member)
    · exact List.sublist_append_of_sublist_right ((ihRight member).cons _)
  | unary operator inner ih | assign target inner ih =>
    rcases List.mem_cons.mp member with rfl | member
    · exact List.Sublist.refl _
    · exact (ih member).cons _
  | grouping inner ih =>
    rcases List.mem_cons.mp member with rfl | member
    · exact List.Sublist.refl _
    · exact ih member
  | literal | name =>
    rw [List.mem_singleton.mp member]

theorem wholeMarks_sublist {value : Option Expr} {part : Expr}
    (member : part ∈ value.toList.flatMap Expr.parts) : part.marks.Sublist (wholeMarks value) := by
  cases value with
  | none => simp at member
  | some expr =>
    simp only [wholeMarks, Option.toList_some, List.flatMap_singleton] at member ⊢
    exact Expr.marks_sublist member

namespace Stmt

open List (sublist_append_of_sublist_left sublist_append_of_sublist_right)

mutual

theorem marks_sublist {part : Expr} : ∀ stmt : Stmt, part ∈ stmt.exprs →
    part.marks.Sublist stmt.marks
  | block ⟨⟨body⟩, _⟩, member => marksAll_sublist body member
  | expr _, member => wholeMarks_sublist member
  | branch _ yes none, member | whileLoop _ yes, member => by
    rcases List.mem_append.mp member with member | member
    · exact sublist_append_of_sublist_left (wholeMarks_sublist member)
    · exact sublist_append_of_sublist_right (marks_sublist yes member)
  | branch _ yes (some no), member => by
    simp only [exprs, List.mem_append] at member
    rcases member with member | member | member
    · exact sublist_append_of_sublist_left (wholeMarks_sublist member)
    · exact sublist_append_of_sublist_right
        (sublist_append_of_sublist_left (marks_sublist yes member))
    · exact sublist_append_of_sublist_right
        (sublist_append_of_sublist_right (marks_sublist no member))
  | forLoop init condition increment body, member => by
    simp only [exprs, List.mem_append] at member
    rcases member with member | member | member | member
    · exact sublist_append_of_sublist_left (marks_sublist init member)
    · exact sublist_append_of_sublist_right
        (sublist_append_of_sublist_left (marks_sublist condition member))
    · exact sublist_append_of_sublist_right (sublist_append_of_sublist_right
        (sublist_append_of_sublist_left (marks_sublist increment member)))
    · exact sublist_append_of_sublist_right (sublist_append_of_sublist_right
        (sublist_append_of_sublist_right (marks_sublist body member)))
  | declare _ none, member => absurd member List.not_mem_nil
  | declare _ (some init), member => sublist_append_of_sublist_right (marks_sublist init member)

theorem marksAll_sublist {part : Expr} : ∀ stmts : List Stmt, part ∈ exprsAll stmts →
    part.marks.Sublist (marksAll stmts)
  | [], member => absurd member List.not_mem_nil
  | stmt :: rest, member => by
    rcases List.mem_append.mp member with member | member
    · exact sublist_append_of_sublist_left (marks_sublist stmt member)
    · exact sublist_append_of_sublist_right (marksAll_sublist rest member)

end

end Stmt

theorem Mark.Among.tokens_sublist {tokens : List Token} {marks : List Mark}
    (among : Among tokens marks) : (marks.filterMap Mark.token?).Sublist tokens := by
  obtain ⟨kept, left, inside⟩ := among
  refine List.Sublist.trans ?_ inside
  clear inside
  induction left with
  | nil => exact List.nil_sublist _
  | @cons mark token marks kept first _ ih =>
    cases mark with
    | token other =>
      obtain rfl : other = token := first
      exact ih.cons_cons other
    | literal => exact ih.cons token

theorem tokens_lines {source : String} {limits : Limits} {expr : Expr}
    (member : expr ∈ Stmt.exprsAll (parse source limits).statements.toList) :
    (expr.tokens.map Token.line).Pairwise (· ≤ ·) := by
  have marks := Stmt.marksAll_sublist _ member
  have body : expr.tokens.Sublist (tokenize source).body :=
    (marks.filterMap _).trans (parse_marks_among source limits).tokens_sublist
  rw [List.pairwise_map]
  exact (tokenize_lines source).sublist (List.sublist_append_of_sublist_left body)

/-- Whatever was read, and with whatever errors, the line of an expression is the least of the
lines of its operators and names. It has none exactly if there are none of these. -/
theorem line_eq_least {source : String} {limits : Limits} {expr : Expr}
    (member : expr ∈ Stmt.exprsAll (parse source limits).statements.toList) :
    expr.line? = (expr.tokens.map Token.line).min? := by
  have sorted : (expr.tokens.map Token.line).Pairwise fun line below => min line below = line :=
    (tokens_lines member).imp Nat.min_eq_left
  rw [expr.line?_eq_head?, List.min?_eq_head? sorted]

/-- A sum whose first operand is a literal on the line above, in a text with an error. -/
theorem line_eq_least_below_literal :
    let product := Expr.binary ⟨.star, "*", 2⟩ (.literal .number "2")
      (.unary ⟨.bang, "!", 3⟩ (.name ⟨.identifier, "b", 3⟩))
    let sum := Expr.binary ⟨.plus, "+", 2⟩ (.literal .number "1") (.grouping product)
    sum ∈ Stmt.exprsAll (parse "1\n+ (2 *\n!b) c;" ⟨256⟩).statements.toList ∧
      sum.line? = (sum.tokens.map Token.line).min? := by
  intro product sum
  have member : sum ∈ Stmt.exprsAll (parse "1\n+ (2 *\n!b) c;" ⟨256⟩).statements.toList := by
    decide +kernel
  exact ⟨member, line_eq_least member⟩

end ScriptTree
