import Mathlib.Data.List.Forall2
import Mathlib.Data.List.NodupEquivFin
import ScriptTree.Proofs.Remains
import ScriptTree.Program

/-! The order of a tree is the order of its text. Walked from left to right, the
operators, names and literals of a tree are found among the tokens one behind the
other, also where tokens were dropped. -/
namespace ScriptTree

/-- What a tree shows of its tokens: operators and names as they are, of a literal its
text. -/
inductive Mark where
  | token (token : Token)
  | literal (kind : Literal) (text : String)

/-- The token that left the mark. -/
def Mark.Of (token : Token) : Mark → Prop
  | .token other => other = token
  | .literal .number text => token.kind = .number ∧ text = token.lexeme
  | .literal .string text => token.kind = .string ∧ text = token.lexeme
  | .literal .bool text =>
    token.kind = .falseWord ∧ text = "0" ∨ token.kind = .trueWord ∧ text = "1"
  | .literal .null text => token.kind = .nullWord ∧ text = "NULL"

def Expr.marks : Expr → List Mark
  | binary operator left right => left.marks ++ .token operator :: right.marks
  | unary operator right => .token operator :: right.marks
  | literal kind text => [.literal kind text]
  | name token => [.token token]
  | grouping inner => inner.marks
  | assign target value => .token target :: value.marks

def wholeMarks (value : Option Expr) : List Mark :=
  value.toList.flatMap Expr.marks

def nameMarks (name : Option Token) : List Mark :=
  name.toList.map .token

namespace Stmt

mutual

def marks : Stmt → List Mark
  | block ⟨⟨body⟩, _⟩ => marksAll body
  | expr value => wholeMarks value
  | branch condition yes none => wholeMarks condition ++ yes.marks
  | branch condition yes (some no) => wholeMarks condition ++ (yes.marks ++ no.marks)
  | whileLoop condition body => wholeMarks condition ++ body.marks
  | forLoop init condition increment body =>
    init.marks ++ (condition.marks ++ (increment.marks ++ body.marks))
  | declare name none => nameMarks name
  | declare name (some init) => nameMarks name ++ init.marks

def marksAll : List Stmt → List Mark
  | [] => []
  | stmt :: rest => stmt.marks ++ marksAll rest

end

@[simp] theorem marks_block (body : Slots Stmt) : (block body).marks = marksAll body.toList := rfl

end Stmt

/-- The marks were left by some of the tokens, in their order. -/
def Mark.Among (tokens : List Token) (marks : List Mark) : Prop :=
  ∃ kept, List.Forall₂ (fun mark token => mark.Of token) marks kept ∧ kept.Sublist tokens

namespace Mark

variable {tokens more : List Token} {marks others : List Mark}

theorem Among.nil : Among tokens [] :=
  ⟨[], .nil, List.nil_sublist _⟩

theorem Among.of_sublist (found : Among tokens marks) (sub : tokens.Sublist more) :
    Among more marks := by
  obtain ⟨kept, left, inside⟩ := found
  exact ⟨kept, left, inside.trans sub⟩

theorem Among.append (found : Among tokens marks) (found' : Among more others) :
    Among (tokens ++ more) (marks ++ others) := by
  obtain ⟨kept, left, inside⟩ := found
  obtain ⟨kept', left', inside'⟩ := found'
  exact ⟨kept ++ kept', List.rel_append left left', inside.append inside'⟩

theorem Among.behind (found : Among tokens marks) (token : Token) : Among (token :: tokens) marks :=
  found.of_sublist (List.sublist_cons_self _ _)

theorem Among.cons {token : Token} {mark : Mark} (left : mark.Of token) (found : Among tokens marks) :
    Among (token :: tokens) (mark :: marks) := by
  obtain ⟨kept, left', inside⟩ := found
  exact ⟨token :: kept, .cons left left', inside.cons_cons token⟩

theorem Among.exists_index (found : Among tokens marks) :
    ∃ index : Nat → Nat, StrictMono index ∧ ∀ i mark, marks[i]? = some mark →
      ∃ token, tokens[index i]? = some token ∧ mark.Of token := by
  -- The tokens that left the marks stand at the indices of the marks.
  obtain ⟨kept, left, inside⟩ := found
  obtain ⟨index, same⟩ := List.sublist_iff_exists_orderEmbedding_getElem?_eq.mp inside
  refine ⟨index, index.strictMono, fun i mark here => ?_⟩
  obtain ⟨bound, rfl⟩ := List.getElem?_eq_some_iff.mp here
  have bound' : i < kept.length := left.length_eq ▸ bound
  refine ⟨kept[i], ?_, left.get bound bound'⟩
  rw [← same, List.getElem?_eq_getElem bound']

end Mark

theorem ExprRemains.marks_among {tokens : List Token} {expr : Expr} (remains : ExprRemains tokens expr) :
    Mark.Among tokens expr.marks := by
  induction remains with
  | among _ sub ih => exact ih.of_sublist sub
  | @leaf token expr picked =>
    unfold Read.leaf? at picked
    split at picked <;> cases picked <;> exact .cons (by simp [Mark.Of, *]) .nil
  | binary _ _ _ _ ihLeft ihRight => exact ihLeft.append (.cons rfl ihRight)
  | unary _ _ ih => exact .cons rfl ih
  | grouping _ _ ih => exact ih.behind _
  | assign _ _ _ ihName ihValue => exact ihName.append (ihValue.behind _)

theorem WholeRemains.marks_among {tokens : List Token} {value : Option Expr}
    (remains : WholeRemains tokens value) : Mark.Among tokens (wholeMarks value) := by
  cases value with
  | none => exact .nil
  | some expr => simpa [wholeMarks] using ExprRemains.marks_among remains

theorem nameMarks_among (name : Option Token) : Mark.Among name.toList (nameMarks name) := by
  cases name with
  | none => exact .nil
  | some token => exact .cons rfl .nil

theorem marksAll_among {parts : List (List Token × Stmt)}
    (each : ∀ part ∈ parts, Mark.Among part.1 part.2.marks) :
    Mark.Among (parts.flatMap Prod.fst) (Stmt.marksAll (parts.map Prod.snd)) := by
  induction parts with
  | nil => exact .nil
  | cons part parts ih =>
    obtain ⟨first, others⟩ := List.forall_mem_cons.mp each
    rw [List.flatMap_cons, List.map_cons, Stmt.marksAll]
    exact first.append (ih others)

theorem StmtRemains.marks_among {tokens : List Token} {stmt : Stmt} (remains : StmtRemains tokens stmt) :
    Mark.Among tokens stmt.marks := by
  induction remains with
  | among _ sub ih => exact ih.of_sublist sub
  | expr value => exact value.marks_among
  | declare => exact (nameMarks_among _).behind _
  | declareAs _ _ _ value => exact ((nameMarks_among _).append (value.marks_among.behind _)).behind _
  | forLoop _ _ _ _ _ ihInit ihCondition ihIncrement ihBody =>
    exact (ihInit.append (ihCondition.append (ihIncrement.append ihBody))).behind _
  | whileLoop _ condition _ ih | ifThen _ condition _ ih =>
    exact (condition.marks_among.append ih).behind _
  | ifElse _ condition _ _ _ ihYes ihNo =>
    exact (condition.marks_among.append (ihYes.append (ihNo.behind _))).behind _
  | block _ _ _ ih =>
    rw [Stmt.marks_block, Slots.toList_ofList]
    exact (marksAll_among ih).behind _

theorem parse_marks_among (source : String) (limits : Limits) :
    Mark.Among (tokenize source).body (Stmt.marksAll (parse source limits).statements.toList) := by
  obtain ⟨parts, -, remains, tokens, stmts⟩ :=
    Read.program_remains limits.maxDepth (tokenize source)
  have found := marksAll_among fun part member => (remains part member).marks_among
  rwa [← tokens, ← stmts] at found

/-- Valid or not, the operators, names and literals of a program stand in the order of
the tokens that left them: no token is made up, used twice or moved. -/
theorem parse_marks_in_order (source : String) (limits : Limits) :
    ∃ index : Nat → Nat, StrictMono index ∧
      ∀ i mark, (Stmt.marksAll (parse source limits).statements.toList)[i]? = some mark →
        ∃ token, (tokenize source).body[index i]? = some token ∧ mark.Of token :=
  (parse_marks_among source limits).exists_index

end ScriptTree
