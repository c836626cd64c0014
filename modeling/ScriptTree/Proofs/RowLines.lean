import ScriptTree.Proofs.SourceLines
import ScriptTree.Proofs.SourceOrder

/-! The lines that the rows of an outline carry. A row takes its line from a token that the
tree keeps, and of those every one was read without fault, so the line is one of the source. -/
namespace ScriptTree

def Mark.Faultless : Mark → Prop
  | .token kept => kept.kind ≠ .error
  | .literal .. => True

theorem ExprRemains.faultless {tokens : List Token} {expr : Expr}
    (remains : ExprRemains tokens expr) : ∀ mark ∈ expr.marks, mark.Faultless := by
  induction remains with
  | among _ _ ih => exact ih
  | leaf picked =>
    unfold Read.leaf? at picked
    split at picked <;> cases picked <;> simp_all [Expr.marks, Mark.Faultless]
  | binary _ listed member _ ihLeft ihRight =>
    have none : ∀ operators ∈ binaryTiers, .error ∉ operators := by decide
    have operator := ne_of_mem_of_not_mem member (none _ listed)
    rw [Expr.marks, List.forall_mem_append, List.forall_mem_cons]
    exact ⟨ihLeft, operator, ihRight⟩
  | unary sign _ ih =>
    rw [Expr.marks, List.forall_mem_cons]
    exact ⟨by rcases sign with sign | sign <;> simp [Mark.Faultless, sign], ih⟩
  | grouping _ _ ih => exact ih
  | assign _ _ _ ihName ihValue =>
    rw [Expr.marks, List.forall_mem_cons]
    exact ⟨ihName _ List.mem_cons_self, ihValue⟩

theorem WholeRemains.faultless {tokens : List Token} {value : Option Expr}
    (remains : WholeRemains tokens value) : ∀ mark ∈ wholeMarks value, mark.Faultless := by
  cases value with
  | none => simp [wholeMarks]
  | some expr => simpa [wholeMarks] using ExprRemains.faultless remains

theorem nameMarks_faultless {name : Option Token} (named : ∀ token ∈ name, token.kind = .identifier) :
    ∀ mark ∈ nameMarks name, mark.Faultless := by
  cases name with
  | none => simp [nameMarks]
  | some token => simp [nameMarks, Mark.Faultless, named token rfl]

theorem marksAll_faultless {stmts : List Stmt}
    (each : ∀ stmt ∈ stmts, ∀ mark ∈ stmt.marks, mark.Faultless) :
    ∀ mark ∈ Stmt.marksAll stmts, mark.Faultless := by
  induction stmts with
  | nil => simp [Stmt.marksAll]
  | cons stmt rest ih =>
    obtain ⟨first, others⟩ := List.forall_mem_cons.mp each
    rw [Stmt.marksAll, List.forall_mem_append]
    exact ⟨first, ih others⟩

theorem StmtRemains.faultless {tokens : List Token} {stmt : Stmt}
    (remains : StmtRemains tokens stmt) : ∀ mark ∈ stmt.marks, mark.Faultless := by
  induction remains with
  | among _ _ ih => exact ih
  | expr value => exact value.faultless
  | declare _ named => exact nameMarks_faultless named
  | declareAs _ named _ value =>
    rw [Stmt.marks, List.forall_mem_append]
    exact ⟨nameMarks_faultless named, value.faultless⟩
  | forLoop _ _ _ _ _ ihInit ihCondition ihIncrement ihBody =>
    simp only [Stmt.marks, List.forall_mem_append]
    exact ⟨ihInit, ihCondition, ihIncrement, ihBody⟩
  | whileLoop _ condition _ ih | ifThen _ condition _ ih =>
    rw [Stmt.marks, List.forall_mem_append]
    exact ⟨condition.faultless, ih⟩
  | ifElse _ condition _ _ _ ihYes ihNo =>
    simp only [Stmt.marks, List.forall_mem_append]
    exact ⟨condition.faultless, ihYes, ihNo⟩
  | block _ _ _ ih =>
    rw [Stmt.marks_block, Slots.toList_ofList]
    exact marksAll_faultless (List.forall_mem_map.mpr ih)

theorem faultless_of_mark {source : String} {limits : Limits} {token : Token}
    (mark : .token token ∈ Stmt.marksAll (parse source limits).statements.toList) :
    token ∈ (tokenize source).body ∧ token.kind ≠ .error := by
  constructor
  · obtain ⟨index, -, found⟩ := (parse_marks_among source limits).exists_index
    obtain ⟨i, here⟩ := List.getElem?_of_mem mark
    obtain ⟨kept, place, same⟩ := found i _ here
    rw [show token = kept from same]
    exact List.mem_of_getElem? place
  · obtain ⟨parts, -, remains, -, stmts⟩ :=
      Read.program_remains limits.maxDepth (tokenize source)
    have whole : (parse source limits).statements.toList = parts.map Prod.snd := stmts
    rw [whole] at mark
    exact marksAll_faultless (List.forall_mem_map.mpr fun part member =>
      (remains part member).faultless) _ mark

def MarkedLine (marks : List Mark) (line : Option Nat) : Prop :=
  ∀ number ∈ line, ∃ token, .token token ∈ marks ∧ token.line = number

/-- Every row has its line, if it carries one, from a token among the marks. -/
def MarkedRows (marks : List Mark) (rows : List Row) : Prop :=
  ∀ row ∈ rows, MarkedLine marks row.line

theorem MarkedLine.mono {marks more : List Mark} {line : Option Nat} (marked : MarkedLine marks line)
    (sub : marks ⊆ more) : MarkedLine more line := by
  intro number carried
  obtain ⟨token, mark, same⟩ := marked number carried
  exact ⟨token, sub mark, same⟩

theorem MarkedRows.mono {marks more : List Mark} {rows : List Row} (marked : MarkedRows marks rows)
    (sub : marks ⊆ more) : MarkedRows more rows :=
  fun row member => (marked row member).mono sub

theorem MarkedRows.cons {marks : List Mark} {row : Row} {rows : List Row}
    (first : MarkedLine marks row.line) (others : MarkedRows marks rows) :
    MarkedRows marks (row :: rows) :=
  List.forall_mem_cons.mpr ⟨first, others⟩

theorem MarkedRows.append {marks more : List Mark} {rows others : List Row}
    (first : MarkedRows marks rows) (second : MarkedRows more others) :
    MarkedRows (marks ++ more) (rows ++ others) :=
  List.forall_mem_append.mpr ⟨first.mono (List.subset_append_left _ _),
    second.mono (List.subset_append_right _ _)⟩

theorem markedLine_none (marks : List Mark) : MarkedLine marks none := nofun

theorem markedLine_some {marks : List Mark} {token : Token} (mark : .token token ∈ marks) :
    MarkedLine marks (some token.line) := by
  rintro _ ⟨⟩
  exact ⟨token, mark, rfl⟩

theorem Expr.markedLine (expr : Expr) : MarkedLine expr.marks expr.line? := by
  induction expr with
  | binary operator left right ihLeft =>
    simp only [line?, marks]
    cases first : left.line? with
    | none => exact markedLine_some (by simp)
    | some line =>
      rw [first] at ihLeft
      exact ihLeft.mono (List.subset_append_left _ _)
  | unary | name | assign => exact markedLine_some (by simp [marks])
  | literal => exact markedLine_none _
  | grouping inner ih => exact ih

theorem Expr.markedRows (depth : Nat) (expr : Expr) : MarkedRows expr.marks (expr.outline depth) := by
  induction expr generalizing depth with
  | binary operator left right ihLeft ihRight =>
    have operands := (ihLeft (depth + 1)).append (ihRight (depth + 1))
    exact .cons (markedLine_some (by simp [marks])) (operands.mono (by simp [marks]))
  | unary operator right ih =>
    exact .cons (markedLine_some (by simp [marks])) ((ih _).mono (List.subset_cons_self _ _))
  | literal => exact .cons (markedLine_none _) nofun
  | name => exact .cons (markedLine_some (by simp [marks])) nofun
  | grouping inner ih => exact .cons inner.markedLine (ih _)
  | assign target value ih =>
    exact .cons (markedLine_some (by simp [marks])) ((ih _).mono (List.subset_cons_self _ _))

theorem markedRows_outlineExpr (depth : Nat) (value : Option Expr) :
    MarkedRows (wholeMarks value) (outlineExpr depth value) ∧
      MarkedLine (wholeMarks value) (value.bind Expr.line?) := by
  cases value with
  | none => exact ⟨.cons (markedLine_none _) nofun, markedLine_none _⟩
  | some expr => simpa [wholeMarks, outlineExpr] using ⟨expr.markedRows depth, expr.markedLine⟩

namespace Stmt

mutual

theorem markedRows (depth : Nat) : ∀ stmt : Stmt, MarkedRows stmt.marks (stmt.outline depth)
  | block ⟨⟨body⟩, _⟩ => .cons (markedLine_none _) (markedRowsAll (depth + 1) body)
  | expr value =>
    let ⟨rows, line⟩ := markedRows_outlineExpr (depth + 1) value
    .cons line rows
  | branch condition yes none =>
    let ⟨rows, line⟩ := markedRows_outlineExpr (depth + 1) condition
    .cons (line.mono (List.subset_append_left _ _)) (rows.append (markedRows (depth + 1) yes))
  | branch condition yes (some no) => by
    obtain ⟨rows, line⟩ := markedRows_outlineExpr (depth + 1) condition
    have otherwise : MarkedRows no.marks (⟨depth, "Else", none⟩ :: no.outline (depth + 1)) :=
      .cons (markedLine_none _) (markedRows (depth + 1) no)
    rw [marks, ← List.append_assoc]
    refine .cons ?_ ((rows.append (markedRows (depth + 1) yes)).append otherwise)
    exact line.mono fun _ mark => by simp [mark]
  | whileLoop condition body =>
    let ⟨rows, line⟩ := markedRows_outlineExpr (depth + 1) condition
    .cons (line.mono (List.subset_append_left _ _)) (rows.append (markedRows (depth + 1) body))
  | forLoop init condition increment body => by
    have header := ((markedRows (depth + 1) init).append (markedRows (depth + 1) condition)).append
      (markedRows (depth + 1) increment)
    have whole := header.append (markedRows (depth + 1) body)
    rw [List.append_assoc, List.append_assoc] at whole
    exact .cons (markedLine_none _) whole
  | declare none none => .cons (markedLine_none _) nofun
  | declare (some name) none => .cons (markedLine_some (by simp [marks, nameMarks])) nofun
  | declare none (some init) => .cons (markedLine_none _) (markedRows (depth + 1) init)
  | declare (some name) (some init) =>
    .cons (markedLine_some (by simp [marks, nameMarks]))
      ((markedRows (depth + 1) init).mono (List.subset_append_right _ _))

theorem markedRowsAll (depth : Nat) : ∀ stmts : List Stmt,
    MarkedRows (marksAll stmts) (outlineAll depth stmts)
  | [] => nofun
  | stmt :: rest => (markedRows depth stmt).append (markedRowsAll depth rest)

end

end Stmt

theorem parse_row_line {source : String} {limits : Limits} {row : Row} {line : Nat}
    (member : row ∈ (parse source limits).outline) (carried : row.line = some line) :
    1 ≤ line ∧ line ≤ (lines source).length := by
  obtain ⟨token, mark, rfl⟩ := Stmt.markedRowsAll 0 _ row member line carried
  obtain ⟨found, regular⟩ := faultless_of_mark mark
  exact tokenize_line_le found fun fault => regular fault.1

end ScriptTree
