import Mathlib.Order.Bounds.Defs
import ScriptTree.Proofs.Validity

/-! Where the first report stands. With room for every token, a text that is no
script is blamed at the first token with which no script can go on. -/
namespace ScriptTree

def StartsScript (tokens : List Token) : Prop :=
  ∃ rest stmts, Script (tokens ++ rest) stmts

theorem not_startsScript_of_rejects {room : Nat} {passed rest : List Token} {complaint : Complaint}
    (rejected : ∀ more, room ≤ more →
      (Read.program more).Rejects passed complaint rest.head?)
    {further : List Token} (next : further.head? = rest.head?) (some : further ≠ []) :
    ¬ StartsScript (passed ++ further) := by
  rintro ⟨after, stmts, script⟩
  obtain ⟨tree, script', nearest⟩ := script.exists_nearest
  have ahead : (further ++ after).head? = rest.head? :=
    (List.head?_append_of_ne_nil further some).trans next
  have whole := script'.reads nearest (le_max_right room (Stmt.greatestCost tree))
  rw [List.append_assoc] at whole
  have refused := rejected _ (le_max_left room (Stmt.greatestCost tree))
  rw [← ahead] at refused
  exact whole.not_rejects refused

theorem isGreatest_of_rejects {room : Nat} {body passed rest : List Token} {complaint : Complaint}
    (split : body = passed ++ rest)
    (rejected : ∀ more, room ≤ more → (Read.program more).Rejects passed complaint rest.head?)
    (start : StartsScript passed) :
    IsGreatest {k | k ≤ body.length ∧ StartsScript (body.take k)} passed.length := by
  subst split
  constructor
  · refine ⟨by simp, ?_⟩
    rw [List.take_left]
    exact start
  · rintro k ⟨bound, starts⟩
    by_contra beyond
    obtain ⟨more, rfl⟩ : ∃ more, k = passed.length + (more + 1) :=
      ⟨k - passed.length - 1, by omega⟩
    rw [List.take_length_add_append] at starts
    cases rest with
    | nil =>
      simp only [List.append_nil] at bound
      omega
    | cons token rest =>
      have ahead : ((token :: rest).take (more + 1)).head? = (token :: rest).head? := rfl
      exact not_startsScript_of_rejects rejected ahead (by simp) starts

theorem accepts_or_rejects {room : Nat} {body : List Token} (roomy : body.length + 2 ≤ room) :
    (∃ stmts, Script body stmts ∧ (Read.program room).Accepts body (.ofList stmts) none) ∨
    ∃ passed rest complaint, body = passed ++ rest ∧ StartsScript passed ∧
      ∀ more, room ≤ more → (Read.program more).Rejects passed complaint rest.head? := by
  cases judged_program room body with
  | @accepts passed slots rest split accepted found =>
    obtain ⟨ended, stmts, script, -, -, rfl⟩ := found
    obtain rfl := List.head?_eq_none_iff.mp ended
    rw [List.append_nil] at split
    subst split
    exact .inl ⟨stmts, script, accepted _ (Nat.le_refl _)⟩
  | rejects split rejected start => exact .inr ⟨_, _, _, split, start, rejected⟩
  | @tooDeep passed rest split _ deep =>
    have bound := congrArg List.length split
    rw [List.length_append] at bound
    omega

theorem roomy_body {source : String} {limits : Limits}
    (roomy : (tokenize source).toList.length + 1 ≤ limits.maxDepth) :
    (tokenize source).body.length + 2 ≤ limits.maxDepth := by
  simp only [Tokens.toList, List.length_append, List.length_singleton] at roomy
  omega

theorem exists_script_iff (source : String) (limits : Limits)
    (roomy : (tokenize source).toList.length + 1 ≤ limits.maxDepth) :
    (∃ stmts, Script (tokenize source).body stmts) ↔ (parse source limits).hadError = false := by
  constructor
  · rintro ⟨stmts, script⟩
    rcases accepts_or_rejects (roomy_body roomy) with ⟨_, _, accepted⟩ | ⟨_, rest, _, split, _, rejected⟩
    · have read : readTokens limits (tokenize source) = _ :=
        accepted (Cursor.start (tokenize source)) [] rfl (List.append_nil _).symm rfl
      rw [parse, read]
      rfl
    · obtain ⟨tree, script', nearest⟩ := script.exists_nearest
      have whole := script'.reads nearest (le_max_right limits.maxDepth (Stmt.greatestCost tree))
      rw [split] at whole
      exact absurd (rejected _ (le_max_left limits.maxDepth _)) whole.not_rejects
  · intro valid
    obtain ⟨stmts, script, -, -⟩ := script_of_parse valid
    exact ⟨stmts, script⟩

/-- With a level of room for every token and the end of input, the first
diagnostic of a text that is no script is found at the token behind the longest
prefix of its tokens with which some script starts. -/
theorem first_diagnostic (source : String) (limits : Limits)
    (roomy : (tokenize source).toList.length + 1 ≤ limits.maxDepth)
    (invalid : ¬ ∃ stmts, Script (tokenize source).body stmts) :
    ∃ k token complaint,
      IsGreatest {k | k ≤ (tokenize source).body.length ∧
        StartsScript ((tokenize source).body.take k)} k ∧
      (tokenize source).toList[k]? = some token ∧
      (parse source limits).diagnostics.head? =
        some (Diagnostic.ofToken token (Complaint.message complaint)) := by
  rcases accepts_or_rejects (roomy_body roomy) with
    ⟨stmts, script, _⟩ | ⟨passed, rest, complaint, split, start, rejected⟩
  · exact absurd ⟨stmts, script⟩ invalid
  let cursor := Cursor.start (tokenize source)
  obtain ⟨_, earlier, reported⟩ := rejected _ (Nat.le_refl _) cursor rest rfl split rfl
  refine ⟨passed.length, rest.head?.getD (tokenize source).stop, complaint,
    isGreatest_of_rejects split rejected start, ?_, ?_⟩
  · rw [Tokens.toList, split, List.append_assoc, List.getElem?_append_right (Nat.le_refl _),
      Nat.sub_self]
    cases rest <;> rfl
  · have found : (parse source limits).diagnostics =
        (Read.program limits.maxDepth cursor).2.reported.reverse := rfl
    have fresh : cursor.reported = [] := rfl
    rw [found, ← reported, fresh, List.reverse_append, List.reverse_singleton]
    rfl

/-- The equals sign after a sum is no target's. -/
theorem first_diagnostic_of_assigned_sum :
    (tokenize "a + b = c;").toList.length + 1 ≤ 256 ∧
    (¬ ∃ stmts, Script (tokenize "a + b = c;").body stmts) ∧
    ∃ k token complaint,
      IsGreatest {k | k ≤ (tokenize "a + b = c;").body.length ∧
        StartsScript ((tokenize "a + b = c;").body.take k)} k ∧
      (tokenize "a + b = c;").toList[k]? = some token ∧
      (parse "a + b = c;" ⟨256⟩).diagnostics.head? =
        some (Diagnostic.ofToken token (Complaint.message complaint)) := by
  have roomy : (tokenize "a + b = c;").toList.length + 1 ≤ 256 := by decide +kernel
  have invalid : ¬ ∃ stmts, Script (tokenize "a + b = c;").body stmts := by
    rw [exists_script_iff "a + b = c;" ⟨256⟩ roomy]
    decide +kernel
  exact ⟨roomy, invalid, first_diagnostic "a + b = c;" ⟨256⟩ roomy invalid⟩

end ScriptTree
