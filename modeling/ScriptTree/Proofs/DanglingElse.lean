import ScriptTree.Proofs.StatementReading

/-! What the grammar leaves open. A statement that could take an `else` and is
followed by one can be read again so that it does, without a change of tokens;
so every script has a tree in which each `else` belongs to the nearest `if`, and
since the reader answers that tree, there is only one. -/
namespace ScriptTree

theorem StmtPhrase.exists_attach {form : StmtForm} {yeses noes : List Token} {yes no : Stmt}
    {otherwise : Token} (phrase : StmtPhrase form yeses yes) (nearest : yes.nearestElse = true)
    (takes : yes.takesElse = true) (elseWord : otherwise.kind = .elseWord)
    (other : StmtPhrase .statement noes no) (nearest' : no.nearestElse = true) :
    ∃ both, StmtPhrase form (yeses ++ otherwise :: noes) both ∧ both.nearestElse = true := by
  induction phrase with
  | declare | declareAs | expr | block => simp [Stmt.takesElse] at takes
  | plain _ ih =>
    obtain ⟨both, phrase, nearest⟩ := ih nearest takes
    exact ⟨both, .plain phrase, nearest⟩
  | forLoop forWord opened first second third closed _ _ _ _ ih =>
    simp only [Stmt.nearestElse, Bool.and_eq_true] at nearest
    obtain ⟨both, phrase, nearestBoth⟩ := ih nearest.2 takes
    simp only [List.cons_append, List.append_assoc]
    refine ⟨_, .forLoop forWord opened first second third closed phrase, ?_⟩
    simp [Stmt.nearestElse, nearest.1.1.1, nearest.1.1.2, nearest.1.2, nearestBoth]
  | whileLoop whileWord opened condition closed _ ih =>
    obtain ⟨both, phrase, nearestBoth⟩ := ih nearest takes
    simp only [List.cons_append, List.append_assoc]
    exact ⟨_, .whileLoop whileWord opened condition closed phrase, nearestBoth⟩
  | @ifThen _ _ _ _ _ _ inner ifWord opened condition closed phrase ih =>
    simp only [List.cons_append, List.append_assoc]
    by_cases innerTakes : inner.takesElse = true
    · obtain ⟨both, phrase, nearestBoth⟩ := ih nearest innerTakes
      exact ⟨_, .ifThen ifWord opened condition closed phrase, nearestBoth⟩
    · refine ⟨_, .ifElse ifWord opened condition closed phrase elseWord other, ?_⟩
      simp only [Stmt.nearestElse] at nearest
      simp [Stmt.nearestElse, innerTakes, nearest, nearest']
  | ifElse ifWord opened condition closed first elseWord' _ _ ih =>
    simp only [Stmt.nearestElse, Bool.and_eq_true] at nearest
    obtain ⟨both, phrase, nearestBoth⟩ := ih nearest.2 takes
    simp only [List.cons_append, List.append_assoc]
    refine ⟨_, .ifElse ifWord opened condition closed first elseWord' phrase, ?_⟩
    simpa [Stmt.nearestElse, nearestBoth] using nearest.1

theorem exists_nearest_parts {parts : List (List Token × Stmt)}
    (each : ∀ part ∈ parts, ∃ other, StmtPhrase .declaration part.1 other ∧
      other.nearestElse = true) :
    ∃ others : List (List Token × Stmt), (∀ part ∈ others, StmtPhrase .declaration part.1 part.2) ∧
      others.flatMap Prod.fst = parts.flatMap Prod.fst ∧
      Stmt.allNearestElse (others.map Prod.snd) = true := by
  induction parts with
  | nil => exact ⟨[], by simp, rfl, rfl⟩
  | cons part parts ih =>
    obtain ⟨⟨other, phrase, nearest⟩, each⟩ := List.forall_mem_cons.mp each
    obtain ⟨others, phrases, same, all⟩ := ih each
    refine ⟨(part.1, other) :: others, List.forall_mem_cons.mpr ⟨phrase, phrases⟩, by simp [same], ?_⟩
    simp [Stmt.allNearestElse, nearest, all]

theorem StmtPhrase.exists_nearest {form : StmtForm} {tokens : List Token} {stmt : Stmt}
    (phrase : StmtPhrase form tokens stmt) :
    ∃ other, StmtPhrase form tokens other ∧ other.nearestElse = true := by
  induction phrase with
  | declare var named closed => exact ⟨_, .declare var named closed, rfl⟩
  | declareAs var named equal value closed =>
    exact ⟨_, .declareAs var named equal value closed, rfl⟩
  | plain _ ih =>
    obtain ⟨other, phrase, nearest⟩ := ih
    exact ⟨other, .plain phrase, nearest⟩
  | expr value closed => exact ⟨_, .expr value closed, rfl⟩
  | forLoop forWord opened _ _ _ closed _ ihInit ihCondition ihIncrement ihBody =>
    obtain ⟨init, first, nearest₁⟩ := ihInit
    obtain ⟨condition, second, nearest₂⟩ := ihCondition
    obtain ⟨increment, third, nearest₃⟩ := ihIncrement
    obtain ⟨body, fourth, nearest₄⟩ := ihBody
    refine ⟨_, .forLoop forWord opened first second third closed fourth, ?_⟩
    simp [Stmt.nearestElse, nearest₁, nearest₂, nearest₃, nearest₄]
  | whileLoop whileWord opened condition closed _ ih =>
    obtain ⟨body, phrase, nearest⟩ := ih
    exact ⟨_, .whileLoop whileWord opened condition closed phrase, nearest⟩
  | ifThen ifWord opened condition closed _ ih =>
    obtain ⟨yes, phrase, nearest⟩ := ih
    exact ⟨_, .ifThen ifWord opened condition closed phrase, nearest⟩
  | ifElse ifWord opened condition closed _ elseWord _ ihYes ihNo =>
    obtain ⟨yes, phrase, nearest⟩ := ihYes
    obtain ⟨no, other, nearest'⟩ := ihNo
    by_cases takes : yes.takesElse = true
    · obtain ⟨both, attached, nearestBoth⟩ :=
        phrase.exists_attach nearest takes elseWord other nearest'
      exact ⟨_, .ifThen ifWord opened condition closed attached, nearestBoth⟩
    · refine ⟨_, .ifElse ifWord opened condition closed phrase elseWord other, ?_⟩
      simp [Stmt.nearestElse, takes, nearest, nearest']
  | block opened _ closed ih =>
    obtain ⟨others, phrases, same, all⟩ := exists_nearest_parts ih
    refine ⟨.block (.ofList (others.map Prod.snd)), ?_, ?_⟩
    · rw [← same]
      exact .block opened phrases closed
    · rw [Stmt.nearestElse_block, Slots.toList_ofList]
      exact all

theorem Script.exists_nearest {tokens : List Token} {stmts : List Stmt}
    (script : Script tokens stmts) :
    ∃ others, Script tokens others ∧ Stmt.allNearestElse others = true := by
  obtain ⟨parts, phrases, rfl, rfl⟩ := script
  obtain ⟨others, phrases', same, all⟩ :=
    exists_nearest_parts fun part member => (phrases part member).exists_nearest
  exact ⟨_, ⟨others, phrases', same.symm, rfl⟩, all⟩

/-- A script is one tree only, once each `else` belongs to the nearest `if`. -/
theorem Script.unique {tokens : List Token} {stmts others : List Stmt}
    (script : Script tokens stmts) (nearest : Stmt.allNearestElse stmts = true)
    (script' : Script tokens others) (nearest' : Stmt.allNearestElse others = true) :
    stmts = others := by
  let cursor := Cursor.start ⟨tokens, ⟨.endOfInput, "", 1⟩⟩
  have unread : cursor.unread = tokens ++ [] := (List.append_nil tokens).symm
  have first := script.reads nearest (Nat.le_max_left _ (Stmt.greatestCost others)) cursor [] rfl
    unread rfl
  have second := script'.reads nearest' (Nat.le_max_right (Stmt.greatestCost stmts) _) cursor [] rfl
    unread rfl
  have same : Slots.ofList stmts = Slots.ofList others := congrArg Prod.fst (first.symm.trans second)
  rw [← Slots.toList_ofList stmts, same, Slots.toList_ofList]

end ScriptTree
