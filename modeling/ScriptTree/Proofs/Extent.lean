import ScriptTree.Proofs.Remains
import ScriptTree.Session

/-! How much is made of a text. Where a statement is missing a node may stand for no
token at all, but a word that asks for statements asks for four of them at most, so a
tree has at most five nodes for every token. -/
namespace ScriptTree

theorem ExprRemains.nodeCount_le {tokens : List Token} {expr : Expr}
    (remains : ExprRemains tokens expr) : expr.nodeCount ≤ tokens.length := by
  induction remains with
  | among _ sub ih => exact ih.trans sub.length_le
  | @leaf token expr picked =>
    unfold Read.leaf? at picked
    split at picked <;> cases picked <;> exact Nat.le_refl _
  | binary _ _ _ _ ihLeft ihRight =>
    simp only [Expr.nodeCount, List.length_append, List.length_cons]
    omega
  | unary _ _ ih | grouping _ _ ih =>
    simp only [Expr.nodeCount, List.length_cons]
    omega
  | assign _ _ _ ihName ihValue =>
    simp only [Expr.nodeCount, List.length_append, List.length_cons] at ihName ⊢
    omega

theorem WholeRemains.nodeCount_le {tokens : List Token} {value : Option Expr}
    (remains : WholeRemains tokens value) :
    (value.map Expr.nodeCount).getD 0 ≤ tokens.length := by
  cases value with
  | none => exact Nat.zero_le _
  | some expr => exact ExprRemains.nodeCount_le remains

namespace Stmt

@[simp] theorem nodeCount_block (body : Slots Stmt) :
    (block body).nodeCount = 1 + nodeCountAll body.toList := rfl

theorem nodeCountAll_le {parts : List (List Token × Stmt)} (some : ∀ part ∈ parts, part.1 ≠ [])
    (each : ∀ part ∈ parts, part.2.nodeCount ≤ max 1 (5 * part.1.length)) :
    nodeCountAll (parts.map Prod.snd) ≤ 5 * (parts.flatMap Prod.fst).length := by
  induction parts with
  | nil => exact Nat.le_refl _
  | cons part parts ih =>
    obtain ⟨first, others⟩ := List.forall_mem_cons.mp each
    obtain ⟨some, rest⟩ := List.forall_mem_cons.mp some
    have positive := List.length_pos_iff.mpr some
    have further := ih rest others
    rw [List.map_cons, nodeCountAll, List.flatMap_cons, List.length_append]
    omega

end Stmt

theorem StmtRemains.nodeCount_le {tokens : List Token} {stmt : Stmt}
    (remains : StmtRemains tokens stmt) : stmt.nodeCount ≤ max 1 (5 * tokens.length) := by
  induction remains with
  | among _ sub ih =>
    have longer := sub.length_le
    omega
  | expr value =>
    have count := value.nodeCount_le
    simp only [Stmt.nodeCount]
    omega
  | declare =>
    simp only [Stmt.nodeCount]
    omega
  | declareAs _ _ _ value =>
    have count := value.nodeCount_le
    simp only [Stmt.nodeCount, List.length_cons, List.length_append]
    omega
  | forLoop _ _ _ _ _ ihInit ihCondition ihIncrement ihBody =>
    simp only [Stmt.nodeCount, List.length_cons, List.length_append]
    omega
  | whileLoop _ condition _ ih | ifThen _ condition _ ih =>
    have count := condition.nodeCount_le
    simp only [Stmt.nodeCount, List.length_cons, List.length_append]
    omega
  | ifElse _ condition _ _ _ ihYes ihNo =>
    have count := condition.nodeCount_le
    simp only [Stmt.nodeCount, List.length_cons, List.length_append]
    omega
  | block _ some _ ih =>
    have count := Stmt.nodeCountAll_le some ih
    simp only [Stmt.nodeCount_block, Slots.toList_ofList, List.length_cons]
    omega

theorem ScriptRemains.nodeCountAll_le {tokens : List Token} {stmts : List Stmt}
    (remains : ScriptRemains tokens stmts) : Stmt.nodeCountAll stmts ≤ 5 * tokens.length := by
  obtain ⟨parts, some, each, rfl, rfl⟩ := remains
  exact Stmt.nodeCountAll_le some fun part member => (each part member).nodeCount_le

theorem ScriptRemains.length_le {tokens : List Token} {stmts : List Stmt}
    (remains : ScriptRemains tokens stmts) : stmts.length ≤ tokens.length := by
  obtain ⟨parts, some, -, rfl, rfl⟩ := remains
  induction parts with
  | nil => exact Nat.le_refl _
  | cons part parts ih =>
    obtain ⟨first, others⟩ := List.forall_mem_cons.mp some
    have positive := List.length_pos_iff.mpr first
    have further := ih others
    rw [List.map_cons, List.length_cons, List.flatMap_cons, List.length_append]
    omega

/-- Whatever the text, a session reads it to the end of input and is calm there. It
has no more statements than tokens and at most five nodes for every token. -/
theorem Session.parse_reaches_end (session : Session) (source : String) :
    let after := session.parse source
    let count := (tokenize source).body.length
    after.consumed = count ∧ after.next? = some (tokenize source).stop ∧
      after.panicking = false ∧ after.program.statements.size ≤ count ∧
      after.program.nodeCount ≤ 5 * count := by
  intro after count
  obtain ⟨-, consumed, calm⟩ := Read.program_ends session.limits.maxDepth (tokenize source)
  have remains := Read.program_remains session.limits.maxDepth (tokenize source)
  refine ⟨consumed, ?_, calm, remains.length_le, remains.nodeCountAll_le⟩
  have ahead : after.next? = (tokenize source).toList[after.consumed]? := rfl
  rw [ahead, show after.consumed = count from consumed, Tokens.toList,
    List.getElem?_append_right (Nat.le_refl _), Nat.sub_self, List.getElem?_cons_zero]

/-- A lone `for` is a loop of four missing statements. -/
example : (parse "for" {}).nodeCount = 5 := by decide +kernel

end ScriptTree
