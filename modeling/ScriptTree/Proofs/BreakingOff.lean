import ScriptTree.Proofs.Latch
import ScriptTree.Proofs.Recovery

/-! Which tokens break off, as seen from the tokens. They do not if a whole expression stands at
their front. They do if there are none, if they can only be the start of an expression, and if
they end in an equals sign that may not stand there. -/
namespace ScriptTree

open Read

theorem Diagnostic.atEnd_ofToken (token : Token) (message : String) :
    (ofToken token message).site = .atEnd ↔ token.kind = .endOfInput := by
  unfold ofToken
  split <;> simp_all

/-- The end of input is behind all tokens, and it is not blamed before they are passed. -/
structure Cursor.EndLast (cursor : Cursor) : Prop where
  ahead : ∀ token ∈ cursor.unread, token.kind ≠ .endOfInput
  blamed : cursor.unread ≠ [] → ∀ diagnostic ∈ cursor.reported, diagnostic.site ≠ .atEnd

namespace Cursor

variable {cursor after : Cursor}

theorem EndLast.onward (here : cursor.EndLast) (onward : cursor.Onward after)
    (told : ∀ diagnostic ∈ after.reported, diagnostic ∈ cursor.reported ∨
      (cursor.unread ≠ [] → diagnostic.site ≠ .atEnd)) : after.EndLast := by
  obtain ⟨passed, split, -⟩ := onward.passed
  constructor
  · exact fun token found => here.ahead token (split ▸ List.mem_append_right passed found)
  · intro more diagnostic found
    have more' : cursor.unread ≠ [] := by simp [split, more]
    exact (told diagnostic found).elim (here.blamed more' diagnostic) fun apart => apart more'

theorem mem_report {token : Token} {complaint : Complaint} {diagnostic : Diagnostic}
    (found : diagnostic ∈ (cursor.report token complaint).reported) :
    diagnostic ∈ cursor.reported ∨ diagnostic = .ofToken token complaint.message := by
  unfold report at found
  split at found
  · exact .inl found
  · exact (List.mem_cons.mp found).symm

theorem EndLast.advance (here : cursor.EndLast) : cursor.advance.EndLast := by
  refine here.onward (onward_advance cursor) fun diagnostic found => .inl ?_
  unfold Cursor.advance at found
  split at found <;> exact found

theorem EndLast.report (here : cursor.EndLast) {token : Token}
    (apart : cursor.unread ≠ [] → token.kind ≠ .endOfInput) (complaint : Complaint) :
    (cursor.report token complaint).EndLast := by
  refine here.onward (onward_report cursor token complaint) fun diagnostic found => ?_
  refine (mem_report found).imp_right ?_
  rintro rfl more
  exact mt (Diagnostic.atEnd_ofToken _ _).mp (apart more)

theorem invariant_endLast : Invariant EndLast where
  advance here := here.advance
  complain {cursor} here complaint := by
    refine here.report (fun more => ?_) complaint
    obtain ⟨token, rest, ahead⟩ := List.exists_cons_of_ne_nil more
    have next : cursor.next = token := by rw [Cursor.next, ahead, List.headD_cons]
    rw [next]
    exact here.ahead token (ahead ▸ List.mem_cons_self)
  refuse here _ equal := here.advance.report (fun _ same => by rw [equal] at same; contradiction) _
  recover {cursor} here := by
    refine here.onward (onward_recover cursor) fun diagnostic found => .inl ?_
    unfold Cursor.recover at found
    split at found <;> exact found

end Cursor

namespace ExprForm.Viable

variable {front rest : List Token} {room : Nat}

theorem accepts (viable : ExprForm.assignment.Viable (front ++ rest)) (more : rest ≠ [])
    (room : Nat) :
    ∃ enough after expr, room ≤ enough ∧ (rest ++ after).head? = rest.head? ∧
      (expression enough).Accepts (front ++ (rest ++ after)) (some expr) none := by
  obtain ⟨after, expr, phrase⟩ := viable
  rw [List.append_assoc] at phrase
  exact ⟨max room (wholeCost (some expr)), after, expr, le_max_left _ _,
    List.head?_append_of_ne_nil rest more,
    phrase.accepts_expression (le_max_right _ _) fun _ found => by cases found⟩

theorem eq_nil_of_accepts (viable : ExprForm.assignment.Viable (front ++ rest))
    {value : Option Expr}
    (accepted : ∀ more, room ≤ more → (expression more).Accepts front value rest.head?) :
    rest = [] := by
  by_contra more
  obtain ⟨enough, after, expr, bound, ahead, whole⟩ := viable.accepts more room
  have short := accepted enough bound
  rw [← ahead] at short
  exact more (List.append_eq_nil_iff.mp (whole.eq_nil short)).1

theorem eq_nil_of_rejects (viable : ExprForm.assignment.Viable (front ++ rest))
    {complaint : Complaint}
    (rejected : ∀ more, room ≤ more → (expression more).Rejects front complaint rest.head?) :
    rest = [] := by
  by_contra more
  obtain ⟨enough, after, expr, bound, ahead, whole⟩ := viable.accepts more room
  have short := rejected enough bound
  rw [← ahead] at short
  exact whole.not_rejects short

end ExprForm.Viable

section

variable {depth : Nat} {tokens : Tokens}

theorem not_breaksOff_of_phrase {front rest : List Token} {expr : Expr}
    (split : tokens.body = front ++ rest) (phrase : ExprPhrase .assignment front expr)
    (enough : wholeCost (some expr) < depth) (ends : ExprForm.assignment.EndsBefore rest.head?) :
    ¬ BreaksOff depth tokens := by
  rintro ⟨room, rfl, panics, -⟩
  exact (expression_panicking_iff room rfl).mp panics
    ⟨front, rest, expr, split, phrase, Nat.le_of_lt_succ enough, ends⟩

theorem breaksOff_of_empty (empty : tokens.body = []) (positive : 0 < depth) :
    BreaksOff depth tokens := by
  obtain ⟨room, rfl⟩ : ∃ room, depth = room + 1 := ⟨depth - 1, by omega⟩
  have start : (Cursor.start tokens).unread = [] := empty
  refine ⟨room, rfl, (expression_panicking_iff room rfl).mpr ?_, ?_⟩
  · rintro ⟨front, rest, expr, split, phrase, -⟩
    obtain ⟨token, more, rfl, -⟩ := phrase.head
    rw [start] at split
    contradiction
  · have shorter := (onward_expression room (.start tokens)).unread_length_le
    rw [start] at shorter
    exact List.length_eq_zero_iff.mp (Nat.le_zero.mp shorter)

/-- An expression that is not finished, with a level of room for each of its tokens. -/
theorem breaksOff_of_viable (closed : tokens.stop.kind = .endOfInput)
    (roomy : tokens.body.length + 1 < depth) (viable : ExprForm.assignment.Viable tokens.body)
    (unfinished : ∀ expr, ¬ ExprPhrase .assignment tokens.body expr) : BreaksOff depth tokens := by
  obtain ⟨room, rfl⟩ : ∃ room, depth = room + 1 := ⟨depth - 1, by omega⟩
  have fresh : (Cursor.start tokens).EndLast := by
    obtain ⟨rest, expr, phrase⟩ := viable
    refine ⟨fun token found same => ?_, fun _ _ none => by cases none⟩
    have known := phrase.kind_mem trivial token (List.mem_append_left rest found)
    rw [same] at known
    revert known
    decide
  have last : (expression room (.start tokens)).2.EndLast :=
    (Cursor.invariant_endLast.likeness.expression room _ _ ⟨rfl, fresh⟩).2.2
  cases judged_expression room tokens.body with
  | @accepts front value rest split accepted found =>
    rw [split] at viable
    obtain rfl := viable.eq_nil_of_accepts accepted
    obtain ⟨expr, rfl, phrase, -⟩ := found
    rw [split, List.append_nil] at unfinished
    exact absurd phrase (unfinished expr)
  | @rejects front complaint rest split rejected _ =>
    rw [split] at viable
    obtain rfl := viable.eq_nil_of_rejects rejected
    obtain ⟨-, told⟩ := rejected room le_rfl (.start tokens) [] rfl split rfl
    refine ⟨room, rfl, expression_panics_of_told told, ?_⟩
    -- The report is made at the end of input.
    by_contra more
    exact last.blamed more _ (told.subset List.mem_cons_self)
      ((Diagnostic.atEnd_ofToken _ _).mpr closed)
  | @tooDeep front rest split _ deep =>
    have bound := congrArg List.length split
    rw [List.length_append] at bound
    omega

/-- An equals sign behind something else than a name is passed over when it is blamed. -/
theorem breaksOff_of_equals {front : List Token} {equals : Token} {target : Expr}
    (split : tokens.body = front ++ [equals]) (phrase : ExprPhrase (.chain binaryTiers) front target)
    (equal : equals.kind = .equal) (bare : ∀ name, target ≠ .name name)
    (enough : target.cost + 1 < depth) : BreaksOff depth tokens := by
  obtain ⟨room, rfl⟩ : ∃ room, depth = room + 1 + 1 := ⟨depth - 2, by omega⟩
  have ends : (ExprForm.chain binaryTiers).EndsBefore (some equals) := by
    rintro token ⟨⟩
    rw [equal]
    decide
  have read := phrase.reads List.suffix_rfl room (some equals) (by omega) ends (.start tokens)
    [equals] rfl split rfl
  have refused : expression (room + 1) (.start tokens) =
      (some target, ((Cursor.start tokens).past front [equals]).advance.report equals
        .invalidTarget) := by
    change assignment room _ = _
    rw [assignment_eq, bind_apply]
    simp only [ExprForm.rule] at read
    rw [read]
    exact assignTo_refused bare equal rfl
  refine ⟨room + 1, rfl, ?_, ?_⟩
  · rw [refused]
    exact Cursor.report_panicking _ _ _
  · rw [refused, Cursor.report_unread]
    rfl

end

end ScriptTree
