import ScriptTree.Proofs.Validity

/-! What the error flag stands for. It is raised exactly if something was reported,
and a tree in which anything is missing was not read without a report: a phrase of the
grammar is complete. -/
namespace ScriptTree

namespace Stmt

@[simp] theorem hasMissing_block (body : Slots Stmt) :
    (block body).hasMissing = anyMissing body.toList := rfl

theorem anyMissing_eq_false_iff {stmts : List Stmt} :
    anyMissing stmts = false ↔ ∀ stmt ∈ stmts, stmt.hasMissing = false := by
  rw [← Bool.not_eq_true, anyMissing_iff]
  simp

end Stmt

theorem StmtPhrase.hasMissing_eq_false {form : StmtForm} {tokens : List Token} {stmt : Stmt}
    (phrase : StmtPhrase form tokens stmt) : stmt.hasMissing = false := by
  induction phrase with
  | declare | declareAs | expr => rfl
  | plain _ ih => exact ih
  | forLoop _ _ _ _ _ _ _ ihInit ihCondition ihIncrement ihBody =>
    simp only [Stmt.hasMissing, ihInit, ihCondition, ihIncrement, ihBody, Bool.or_false]
  | whileLoop _ _ _ _ _ ih | ifThen _ _ _ _ _ ih =>
    simp only [Stmt.hasMissing, ih, Option.isNone_some, Bool.or_false]
  | ifElse _ _ _ _ _ _ _ ihYes ihNo =>
    simp only [Stmt.hasMissing, ihYes, ihNo, Option.isNone_some, Bool.or_false]
  | block _ _ _ ih =>
    rw [Stmt.hasMissing_block, Slots.toList_ofList, Stmt.anyMissing_eq_false_iff, List.forall_mem_map]
    exact ih

theorem Script.anyMissing_eq_false {tokens : List Token} {stmts : List Stmt}
    (script : Script tokens stmts) : Stmt.anyMissing stmts = false := by
  obtain ⟨parts, phrases, -, rfl⟩ := script
  rw [Stmt.anyMissing_eq_false_iff, List.forall_mem_map]
  exact fun part member => (phrases part member).hasMissing_eq_false

theorem parse_raised_iff (source : String) (limits : Limits) :
    (parse source limits).hadError = true ↔ (parse source limits).diagnostics ≠ [] := by
  obtain ⟨reports, added, flag⟩ :=
    (Read.onward_program limits.maxDepth (.start (tokenize source))).told
  have told : (parse source limits).diagnostics = reports.reverse := by
    rw [← List.append_nil reports]
    exact congrArg List.reverse added
  have fresh : (Cursor.start (tokenize source)).hadError ≠ true := Bool.false_ne_true
  rw [told, Ne, List.reverse_eq_nil_iff]
  exact flag.trans (or_iff_right fresh)

/-- The flag is raised exactly if there are diagnostics, and it is raised whenever a
statement has something missing in it. -/
theorem parse_hadError_iff (source : String) (limits : Limits) :
    ((parse source limits).hadError = true ↔ (parse source limits).diagnostics ≠ []) ∧
    ((∃ stmt ∈ (parse source limits).statements.toList, stmt.hasMissing = true) →
      (parse source limits).hadError = true) := by
  constructor
  · exact parse_raised_iff source limits
  · rw [← Stmt.anyMissing_iff]
    intro missing
    -- Without a report the tree is spelled by the tokens, and phrases are complete.
    by_contra valid
    rw [Bool.not_eq_true] at valid
    obtain ⟨stmts, script, nearest, enough⟩ := script_of_parse valid
    rw [(parse_of_script script nearest enough).2, Slots.toList_ofList,
      script.anyMissing_eq_false] at missing
    contradiction

end ScriptTree
