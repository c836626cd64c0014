import ScriptTree.Proofs.DanglingElse
import ScriptTree.Proofs.StatementVerdict
import ScriptTree.Program

/-! Which texts are valid, and what their tree is: a text is read without an
error exactly if its tokens are a script whose tree costs no more than the depth
limit, and then that tree is what is answered. -/
namespace ScriptTree

theorem ExprPhrase.kind_ne_error {form : ExprForm} {tokens : List Token} {expr : Expr}
    (phrase : ExprPhrase form tokens expr) (listed : form.Listed) :
    ∀ token ∈ tokens, token.kind ≠ .error := by
  intro token found same
  have known := phrase.kind_mem listed token found
  rw [same] at known
  revert known
  decide

theorem StmtPhrase.kind_ne_error {form : StmtForm} {tokens : List Token} {stmt : Stmt}
    (phrase : StmtPhrase form tokens stmt) : ∀ token ∈ tokens, token.kind ≠ .error := by
  induction phrase with
  | declare var named closed =>
    simp only [List.forall_mem_cons, var, named, closed]
    decide
  | declareAs var named equal value closed =>
    simp only [List.forall_mem_cons, List.forall_mem_append, var, named, equal, closed]
    exact ⟨by decide, by decide, by decide, value.kind_ne_error trivial, by decide⟩
  | plain _ ih => exact ih
  | expr value closed =>
    rw [List.forall_mem_append, List.forall_mem_singleton, closed]
    exact ⟨value.kind_ne_error trivial, by decide⟩
  | forLoop word opened _ _ _ closed _ ihInit ihCondition ihIncrement ihBody =>
    simp only [List.forall_mem_cons, List.forall_mem_append, word, opened, closed]
    exact ⟨by decide, by decide, ihInit, ihCondition, ihIncrement, by decide, ihBody⟩
  | whileLoop word opened condition closed _ ih | ifThen word opened condition closed _ ih =>
    simp only [List.forall_mem_cons, List.forall_mem_append, word, opened, closed]
    exact ⟨by decide, by decide, condition.kind_ne_error trivial, by decide, ih⟩
  | ifElse word opened condition closed _ otherwise _ ihYes ihNo =>
    simp only [List.forall_mem_cons, List.forall_mem_append, word, opened, closed, otherwise]
    exact ⟨by decide, by decide, condition.kind_ne_error trivial, by decide, ihYes, by decide, ihNo⟩
  | block opened _ closed ih =>
    rw [List.forall_mem_cons, List.forall_mem_append, List.forall_mem_singleton, opened, closed]
    refine ⟨by decide, ?_, by decide⟩
    intro token found
    obtain ⟨part, member, found⟩ := List.mem_flatMap.mp found
    exact ih part member token found

theorem Script.kind_ne_error {tokens : List Token} {stmts : List Stmt}
    (script : Script tokens stmts) : ∀ token ∈ tokens, token.kind ≠ .error := by
  obtain ⟨parts, phrases, rfl, rfl⟩ := script
  intro token found
  obtain ⟨part, member, found⟩ := List.mem_flatMap.mp found
  exact (phrases part member).kind_ne_error token found

section

variable {source : String} {limits : Limits} {stmts : List Stmt}

theorem parse_of_script (script : Script (tokenize source).body stmts)
    (nearest : Stmt.allNearestElse stmts = true) (enough : Stmt.greatestCost stmts ≤ limits.maxDepth) :
    (parse source limits).hadError = false ∧ (parse source limits).statements = .ofList stmts := by
  have accepted := script.reads nearest enough (Cursor.start (tokenize source)) [] rfl
    (List.append_nil _).symm rfl
  have read : readTokens limits (tokenize source) = _ := accepted
  unfold parse
  rw [read]
  exact ⟨rfl, rfl⟩

theorem script_of_parse (valid : (parse source limits).hadError = false) :
    ∃ stmts, Script (tokenize source).body stmts ∧ Stmt.allNearestElse stmts = true ∧
      Stmt.greatestCost stmts ≤ limits.maxDepth := by
  have failed : (Read.program limits.maxDepth (Cursor.start (tokenize source))).2.hadError = false :=
    valid
  cases judged_program limits.maxDepth (tokenize source).body with
  | @accepts tokens slots rest split _ found =>
    obtain ⟨ended, stmts, script, nearest, enough, -⟩ := found
    obtain rfl := List.head?_eq_none_iff.mp ended
    rw [List.append_nil] at split
    exact ⟨stmts, split ▸ script, nearest, enough⟩
  | rejects split rejected =>
    have raised := (rejected _ (Nat.le_refl _) (Cursor.start (tokenize source)) _ rfl split rfl).1
    rw [failed] at raised
    contradiction
  | tooDeep split rejected =>
    have raised := (rejected (Cursor.start (tokenize source)) _ rfl split rfl).1
    rw [failed] at raised
    contradiction

end

/-- A text is valid exactly if its tokens are a script that costs no more than
the limit. Its tree is then the only one in which every `else` belongs to the
nearest `if`, and that tree is answered. -/
theorem parse_valid_iff (source : String) (limits : Limits) :
    ((parse source limits).hadError = false ↔
      ∃ stmts, Script (tokenize source).body stmts ∧ Stmt.allNearestElse stmts = true ∧
        Stmt.greatestCost stmts ≤ limits.maxDepth) ∧
    (∀ stmts, Script (tokenize source).body stmts → Stmt.allNearestElse stmts = true →
      (parse source limits).hadError = false → (parse source limits).statements = .ofList stmts) ∧
    (∀ stmts, Script (tokenize source).body stmts →
      ∃! tree, Script (tokenize source).body tree ∧ Stmt.allNearestElse tree = true) ∧
    ((parse source limits).hadError = false →
      ∀ token ∈ (tokenize source).body, token.kind ≠ .error) := by
  refine ⟨⟨script_of_parse, ?_⟩, ?_, ?_, ?_⟩
  · rintro ⟨stmts, script, nearest, enough⟩
    exact (parse_of_script script nearest enough).1
  · intro stmts script nearest valid
    obtain ⟨others, script', nearest', enough⟩ := script_of_parse valid
    rw [script.unique nearest script' nearest']
    exact (parse_of_script script' nearest' enough).2
  · intro stmts script
    obtain ⟨tree, script', nearest⟩ := script.exists_nearest
    refine ⟨tree, ⟨script', nearest⟩, ?_⟩
    rintro other ⟨script'', nearest'⟩
    exact script''.unique nearest' script' nearest
  · intro valid
    obtain ⟨stmts, script, -, -⟩ := script_of_parse valid
    exact script.kind_ne_error

end ScriptTree
