import ScriptTree.Proofs.Law
import ScriptTree.Proofs.Verdict

/-! The readers of expressions against the grammar. A phrase is accepted
whenever there is room for its cost and it is complete where it ends; and from
every place a reader accepts a phrase, rejects the first token with which no
phrase can go on, or uses up its room. -/
namespace ScriptTree

namespace Read

theorem onward_law : Law Onward fun _ => False where
  passes := fun _ _ => id
  pure := .pure
  bind := .bind
  take? := fun _ => .take? _
  report := fun found complaint =>
    .modify fun cursor => cursor.onward_report (found cursor) complaint

theorem onward_expression (room : Nat) : Onward (expression room) :=
  onward_law.expression room

end Read

open Read

namespace ExprForm

def Reads (form : ExprForm) (tokens : List Token) (expr : Expr) : Prop :=
  ∀ room look, expr.cost ≤ room → form.EndsBefore look →
    (form.rule room).Accepts tokens (some expr) look

end ExprForm

/-- The reader folds the phrase and goes on with what follows, a level deeper
for each operator it has folded. -/
def ChainReads (operators : List Kind) (tighter : List (List Kind)) (tokens : List Token)
    (expr : Expr) : Prop :=
  ∃ count, (∀ kind ∈ operators, expr.folds kind = count) ∧
    ∀ room rest value look, expr.cost ≤ room →
      (ExprForm.chain tighter).EndsBefore (rest.head?.or look) →
      (chainRest (room - count) operators tighter expr).Accepts rest value look →
      (chain room (operators :: tighter)).Accepts (tokens ++ rest) value look

variable {operators : List Kind} {tighter : List (List Kind)} {tokens : List Token} {expr : Expr}

theorem chainRest_ends {room : Nat} {look : Option Token}
    (ends : ∀ token ∈ look, token.kind ∉ operators) :
    (chainRest room operators tighter expr).Accepts [] (some expr) look := by
  unfold chainRest
  exact Accepts.last (.acceptAny_miss ends) .pure

theorem ChainReads.reads (chained : ChainReads operators tighter tokens expr) :
    (ExprForm.chain (operators :: tighter)).Reads tokens expr := by
  obtain ⟨count, -, continues⟩ := chained
  intro room look enough ends
  rw [← List.append_nil tokens]
  apply continues room [] (some expr) look enough (by simpa using ends.operand)
  apply chainRest_ends
  intro token found member
  exact ends token found (by simp [ExprForm.continuedBy, member])

theorem ChainReads.of_operand (listed : (operators :: tighter) <:+ binaryTiers)
    (phrase : ExprPhrase (.chain tighter) tokens expr)
    (reads : (ExprForm.chain tighter).Reads tokens expr) :
    ChainReads operators tighter tokens expr := by
  refine ⟨0, fun kind found => phrase.folds_operand listed found, ?_⟩
  intro room rest value look enough ends accepted
  unfold chain
  exact .bind (reads room _ enough ends) accepted

theorem ChainReads.fold (listed : (operators :: tighter) <:+ binaryTiers) {operator : Token}
    {before after : List Token} {left right : Expr}
    (chained : ChainReads operators tighter before left) (member : operator.kind ∈ operators)
    (reads : (ExprForm.chain tighter).Reads after right) :
    ChainReads operators tighter (before ++ operator :: after) (.binary operator left right) := by
  obtain ⟨count, counted, continues⟩ := chained
  refine ⟨count + 1, ?_, ?_⟩
  · intro kind found
    rw [ExprPhrase.folds_fold listed member found, counted kind found]
  · intro room rest value look enough ends accepted
    simp only [Expr.cost, counted operator.kind member] at enough
    have apart : (ExprForm.chain tighter).EndsBefore (some operator) := by
      intro token found
      cases found
      exact operator_not_tighter listed member
    have onward : (chainRest (room - count) operators tighter left).Accepts
        (operator :: (after ++ rest)) value look := by
      unfold chainRest
      apply Accepts.bind (s := [operator]) (.acceptAny member)
      have level : room - count = room - (count + 1) + 1 := by omega
      apply Accepts.nested level
      intro _
      exact .bind (reads _ _ (by omega) ends) accepted
    rw [List.append_assoc, List.cons_append]
    exact continues room _ value look (by omega) apart onward

theorem accepts_chain_of_unary {room : Nat} {look : Option Token} {value : Option Expr}
    (tiers : List (List Kind)) (accepted : (unary room).Accepts tokens value look)
    (some : value.isSome) (ends : (ExprForm.chain tiers).EndsBefore look) :
    (chain room tiers).Accepts tokens value look := by
  obtain ⟨expr, rfl⟩ := Option.isSome_iff_exists.mp some
  induction tiers with
  | nil =>
    unfold chain
    exact accepted
  | cons operators tighter ih =>
    unfold chain
    refine .last (ih ends.operand) (chainRest_ends ?_)
    intro token found member
    exact ends token found (by simp [ExprForm.continuedBy, member])

theorem accepts_primary_leaf {room : Nat} {look : Option Token} {token : Token}
    (picked : leaf? token = some expr) : (primary room).Accepts [token] (some expr) look := by
  unfold primary
  exact .last (.take? picked) .pure

theorem accepts_unary_of_primary {room : Nat} {look : Option Token} {value : Option Expr}
    (accepted : (primary room).Accepts tokens value look)
    (unsigned : ∀ token ∈ tokens.head?.or look, token.kind ∉ [Kind.bang, .minus]) :
    (unary room).Accepts tokens value look := by
  unfold unary
  exact Accepts.bind (s := []) (.acceptAny_miss unsigned) accepted

/-- Whatever the grammar calls an expression is read as that expression. -/
theorem ExprPhrase.reads {form : ExprForm} (phrase : ExprPhrase form tokens expr)
    (listed : form.Listed) : form.Reads tokens expr := by
  suffices both : form.Reads tokens expr ∧ ∀ operators tighter,
      form = .chain (operators :: tighter) → ChainReads operators tighter tokens expr from both.1
  induction phrase with
  | @assign name equals tokens value named equal _ ih =>
    refine ⟨?_, fun _ _ same => by cases same⟩
    intro room look enough ends
    simp only [Expr.cost] at enough
    have target : (chain room binaryTiers).Accepts [name] (some (.name name)) (some equals) := by
      apply accepts_chain_of_unary _ _ rfl
      · intro token found
        cases found
        rw [equal]
        decide
      · apply accepts_unary_of_primary (accepts_primary_leaf (by simp [leaf?, named]))
        intro token found
        cases found
        simp [named]
    simp only [ExprForm.rule, assignment_eq]
    refine Accepts.bind (s := [name]) target (Accepts.bind (s := [equals]) (.accept equal) ?_)
    have level : room = room - 1 + 1 := by omega
    refine Accepts.last (a := some value) (.nested level fun _ => ?_) .pure
    exact (ih trivial).1 _ look (by omega) ends
  | @loosest tokens expr _ ih =>
    refine ⟨?_, fun _ _ same => by cases same⟩
    intro room look enough ends
    simp only [ExprForm.rule, assignment_eq]
    apply Accepts.last ((ih List.suffix_rfl).1 room look enough ends.loosest)
    refine Accepts.last (.accept_miss ?_) .pure
    intro token found equal
    exact ends token found (by simp [ExprForm.continuedBy, equal])
  | @operand operators tighter tokens expr phrase ih =>
    have chained := ChainReads.of_operand listed phrase (ih ((List.suffix_cons _ _).trans listed)).1
    exact ⟨chained.reads, by rintro _ _ ⟨⟩; exact chained⟩
  | @fold operators tighter operator before after left right _ member _ ihLeft ihRight =>
    have chained := ChainReads.fold listed ((ihLeft listed).2 _ _ rfl) member
      (ihRight ((List.suffix_cons _ _).trans listed)).1
    exact ⟨chained.reads, by rintro _ _ ⟨⟩; exact chained⟩
  | @tightest tokens expr _ ih =>
    refine ⟨?_, fun _ _ same => by cases same⟩
    intro room look enough ends
    simp only [ExprForm.rule]
    unfold chain
    exact (ih trivial).1 room look enough (ExprForm.endsBefore_unary look)
  | @sign operator tokens right signed _ ih =>
    refine ⟨?_, fun _ _ same => by cases same⟩
    intro room look enough ends
    simp only [Expr.cost] at enough
    simp only [ExprForm.rule]
    unfold unary
    have level : room = room - 1 + 1 := by omega
    apply Accepts.bind (s := [operator]) (.acceptAny (by simpa using signed))
    refine Accepts.last (a := some right) (.nested level fun _ => ?_) .pure
    exact (ih trivial).1 _ look (by omega) (ExprForm.endsBefore_unary look)
  | @unsigned tokens expr phrase ih =>
    refine ⟨?_, fun _ _ same => by cases same⟩
    intro room look enough ends
    apply accepts_unary_of_primary
    · exact (ih trivial).1 room look enough (ExprForm.endsBefore_primary look)
    · obtain ⟨token, rest, rfl, kind⟩ := phrase.primary_head
      have apart : ∀ kind ∈ primaryStarts, kind ∉ [Kind.bang, .minus] := by decide
      intro token found
      cases found
      exact apart _ kind
  | @group opening closing tokens inner opened _ closed ih =>
    refine ⟨?_, fun _ _ same => by cases same⟩
    intro room look enough ends
    simp only [Expr.cost] at enough
    simp only [ExprForm.rule]
    unfold primary
    have level : room = room - 1 + 1 := by omega
    refine Accepts.bind (s := []) (.take?_miss ?_) ?_
    · intro token found
      cases found
      simp [leaf?, opened]
    apply Accepts.bind (s := [opening]) (.accept opened)
    refine Accepts.bind (.nested level fun _ => (ih trivial).1 _ _ (by omega) ?_)
      (.last (.expect closed) .pure)
    intro token found
    cases found
    rw [closed]
    decide
  | falsehood kind | truth kind | null kind | number kind | string kind | name kind =>
    refine ⟨?_, fun _ _ same => by cases same⟩
    intro room look _ _
    exact accepts_primary_leaf (by simp [leaf?, kind])

namespace ExprForm

def Found (form : ExprForm) (room : Nat) (tokens : List Token) (value : Option Expr)
    (look : Option Token) : Prop :=
  ∃ expr, value = some expr ∧ ExprPhrase form tokens expr ∧ expr.cost ≤ room ∧
    form.EndsBefore look

/-- The tokens can be continued to a phrase. -/
def Viable (form : ExprForm) (tokens : List Token) : Prop :=
  ∃ rest expr, ExprPhrase form (tokens ++ rest) expr

theorem viable_nil (form : ExprForm) : form.Viable [] :=
  form.exists_phrase

/-- What becomes of a text under the reader of a form. -/
def Judged (form : ExprForm) (room : Nat) (unread : List Token) : Prop :=
  Verdict form.rule room unread (form.Found room) form.Viable (room + 1)

end ExprForm

theorem leaf?_phrase {token : Token} (picked : leaf? token = some expr) :
    ExprPhrase .primary [token] expr ∧ expr.cost = 0 := by
  unfold leaf? at picked
  split at picked <;> cases picked
  next kind => exact ⟨.falsehood kind, rfl⟩
  next kind => exact ⟨.truth kind, rfl⟩
  next kind => exact ⟨.null kind, rfl⟩
  next kind => exact ⟨.number kind, rfl⟩
  next kind => exact ⟨.string kind, rfl⟩
  next kind => exact ⟨.name kind, rfl⟩

theorem ExprPhrase.name_tokens {form : ExprForm} {name : Token}
    (phrase : ExprPhrase form tokens (.name name)) :
    tokens = [name] ∧ name.kind = .identifier := by
  generalize named : Expr.name name = expr at phrase
  induction phrase with
  | loosest _ ih | operand _ ih | tightest _ ih | unsigned _ ih => exact ih named
  | name kind =>
    cases named
    exact ⟨rfl, kind⟩
  | _ => cases named

theorem assignTo_refused {value : Read (Option Expr)} {equals : Token} {cursor : Cursor}
    {rest : List Token} (bare : ∀ name, expr ≠ .name name) (equal : equals.kind = .equal)
    (unread : cursor.unread = equals :: rest) :
    assignTo value (some expr) cursor =
      (some expr, cursor.advance.report equals .invalidTarget) := by
  have taken : accept .equal cursor = (some equals, cursor.advance) := by
    simp [accept, take?, unread, equal]
  simp only [assignTo, bind_apply, taken]
  cases expr with
  | name name => exact absurd rfl (bare name)
  | _ => rfl

theorem rejects_assignTo {value : Read (Option Expr)} {equals : Token}
    (bare : ∀ name, expr ≠ .name name) (equal : equals.kind = .equal) :
    (assignTo value (some expr)).Rejects [] .invalidTarget (some equals) := by
  intro cursor rest calm unread ahead
  obtain ⟨after, rfl⟩ : ∃ after, rest = equals :: after := by
    cases rest <;> simp_all
  simp [assignTo_refused bare equal unread, Cursor.report, Cursor.advance, unread, calm]

namespace ExprForm

variable {unread : List Token} {room : Nat}

theorem judged_nested {form : ExprForm}
    (judged : ∀ inner, room = inner + 1 → form.Judged inner unread) :
    Verdict (fun more => nested more fun inner _ => form.rule inner) room unread
      (fun tokens value look => 0 < room ∧ form.Found (room - 1) tokens value look)
      form.Viable room := by
  apply Verdict.nested
  intro inner level
  subst level
  refine Verdict.imp (judged inner rfl) ?_ (fun _ start => start) (Nat.le_refl _)
  intro tokens value rest _ found
  exact ⟨Nat.succ_pos inner, found⟩

theorem judged_assignTo (deeper : ∀ inner < room, ∀ unread, assignment.Judged inner unread)
    {before : List Token} {target : Expr} (phrase : ExprPhrase (.chain binaryTiers) before target)
    (enough : target.cost ≤ room) (ends : (chain binaryTiers).EndsBefore unread.head?) :
    Verdict (fun more => assignTo (expression more) (some target)) room unread
      (fun tokens => assignment.Found room (before ++ tokens))
      (fun tokens => assignment.Viable (before ++ tokens)) (room + 1 - before.length) := by
  have plain (missed : ∀ token ∈ unread.head?, token.kind ≠ .equal) :
      assignment.Found room before (some target) unread.head? := by
    refine ⟨target, rfl, phrase.loosest, enough, ?_⟩
    intro token found continues
    rcases List.mem_cons.mp continues with kind | kind
    · exact missed token found kind
    · exact ends token found kind
  by_cases missed : ∀ token ∈ unread.head?, token.kind ≠ .equal
  · refine .accepts (s := []) rfl (fun more _ => ?_) (by simpa using plain missed)
    exact Accepts.last (.accept_miss missed) .pure
  obtain ⟨equals, after, rfl, equal⟩ :
      ∃ equals after, unread = equals :: after ∧ equals.kind = .equal := by
    cases unread <;> simp_all
  by_cases bare : ∃ name, target = .name name
  · obtain ⟨name, rfl⟩ := bare
    obtain ⟨rfl, named⟩ := phrase.name_tokens
    have first : ∀ inner, room = inner + 1 → assignment.Judged inner after :=
      fun inner level => deeper inner (by omega) after
    apply Verdict.after (s := [equals]) rfl (fun _ _ => .accept equal)
    refine Verdict.bind (judged_nested first) ?_ ?_ ?_ ?_
    · rintro more (_ | value) <;> exact .pure _
    · rintro tokens ⟨rest, value, phrase⟩
      exact ⟨rest, _, .assign named equal phrase⟩
    · simp
    · rintro tokens _ rest - ⟨positive, value, rfl, phrase, enough, ends⟩
      refine Verdict.pure ⟨_, rfl, ?_, ?_, ends⟩
      · simpa using phrase.assign named equal
      · simp only [Expr.cost]
        omega
  · have other : ∀ name, target ≠ .name name := fun name same => bare ⟨name, same⟩
    exact .rejects (s := []) rfl (fun _ _ => rejects_assignTo other equal)
      ⟨[], target, by simpa using phrase.loosest⟩

theorem judged_primary_of (deeper : ∀ inner < room, ∀ unread, assignment.Judged inner unread) :
    primary.Judged room unread := by
  change Verdict (fun more => Read.primary more) room unread _ _ _
  unfold Read.primary
  refine Verdict.take? ?_ fun _ => Verdict.accept ?_ fun _ => ?_
  · rintro token leaf after rfl picked
    obtain ⟨phrase, free⟩ := leaf?_phrase picked
    exact Verdict.pure ⟨leaf, rfl, phrase, by omega, endsBefore_primary _⟩
  · rintro opening after rfl opened
    refine Verdict.bind (judged_nested fun inner level => deeper inner (by omega) after) ?_ ?_ ?_ ?_
    · rintro more (_ | inner)
      · exact .pure _
      · exact (Onward.expect _ _).bind fun _ => .pure _
    · rintro tokens ⟨rest, inner, phrase⟩
      exact ⟨rest ++ [⟨.rightParen, ")", 1⟩], _, by simpa using phrase.group opened rfl⟩
    · simp
    · rintro tokens _ rest - ⟨positive, inner, rfl, phrase, enough, ends⟩
      refine Verdict.expect (fun _ _ => .pure _) ?_ ?_
      · exact ⟨[⟨.rightParen, ")", 1⟩], _, by simpa using phrase.group opened rfl⟩
      · rintro closing after rfl closed
        refine Verdict.pure ⟨_, rfl, phrase.group opened closed, ?_, endsBefore_primary _⟩
        simp only [Expr.cost]
        omega
  · exact Verdict.complain (fun _ _ => .pure _) (viable_nil _)

mutual

theorem judged_assignment (room : Nat) (unread : List Token) : assignment.Judged room unread := by
  change Verdict (fun more => Read.assignment more) room unread _ _ _
  simp only [assignment_eq]
  refine Verdict.bind (judged_chain room unread binaryTiers List.suffix_rfl) ?_ ?_ (Nat.le_refl _) ?_
  · exact fun more => onward_law.assignTo (onward_expression more)
  · rintro tokens ⟨rest, expr, phrase⟩
    exact ⟨rest, expr, .loosest phrase⟩
  · rintro before _ rest - ⟨target, rfl, phrase, enough, ends⟩
    exact judged_assignTo (fun inner _ => judged_assignment inner) phrase enough ends
termination_by room * 8 + 7
decreasing_by
  · simp only [binaryTiers, List.length_cons, List.length_nil]
    omega
  · omega

theorem judged_chain (room : Nat) (unread : List Token) :
    ∀ tiers, tiers <:+ binaryTiers → (chain tiers).Judged room unread
  | [], _ => by
    change Verdict (fun more => Read.chain more []) room unread _ _ _
    unfold Read.chain
    refine Verdict.imp (judged_unary room unread) ?_ ?_ (Nat.le_refl _)
    · rintro tokens _ rest - ⟨expr, rfl, phrase, enough, -⟩
      exact ⟨expr, rfl, .tightest phrase, enough, endsBefore_unary _⟩
    · rintro tokens ⟨rest, expr, phrase⟩
      exact ⟨rest, expr, .tightest phrase⟩
  | operators :: tighter, listed => by
    have listed' := (List.suffix_cons _ _).trans listed
    change Verdict (fun more => Read.chain more (operators :: tighter)) room unread _ _ _
    unfold Read.chain
    refine Verdict.bind (judged_chain room unread tighter listed') ?_ ?_ (Nat.le_refl _) ?_
    · rintro more (_ | left)
      · exact .pure _
      · exact onward_law.chainRest more operators tighter listed left
    · rintro tokens ⟨rest, expr, phrase⟩
      exact ⟨rest, expr, .operand phrase⟩
    · rintro before _ rest - ⟨left, rfl, phrase, enough, ends⟩
      have unfolded : ∀ kind ∈ operators, left.folds kind = 0 :=
        fun _ found => phrase.folds_operand listed found
      exact (judged_chainRest room operators tighter listed phrase.operand unfolded enough ends).imp
        (fun _ _ _ _ found => found) (fun _ start => start) (Nat.sub_le _ _)
termination_by tiers => room * 8 + 2 + tiers.length

theorem judged_chainRest (room : Nat) (operators : List Kind) (tighter : List (List Kind))
    (listed : (operators :: tighter) <:+ binaryTiers) {before : List Token} {left : Expr}
    {count : Nat} (phrase : ExprPhrase (.chain (operators :: tighter)) before left)
    (counted : ∀ kind ∈ operators, left.folds kind = count) (enough : left.cost ≤ room + count)
    {unread : List Token} (ends : (chain tighter).EndsBefore unread.head?) :
    Verdict (fun more => chainRest more operators tighter left) room unread
      (fun tokens => (chain (operators :: tighter)).Found (room + count) (before ++ tokens))
      (fun tokens => (chain (operators :: tighter)).Viable (before ++ tokens)) (room + 1) := by
  have listed' := (List.suffix_cons _ _).trans listed
  unfold chainRest
  refine Verdict.acceptAny ?_ ?_
  · rintro operator after rfl member
    apply Verdict.nested
    intro inner level
    refine Verdict.bind (judged_chain inner after tighter listed') ?_ ?_ (Nat.le_of_eq level) ?_
    · rintro more (_ | right)
      · exact .pure _
      · exact onward_law.chainRest more operators tighter listed _
    · rintro tokens ⟨rest, right, operand⟩
      exact ⟨rest, _, by simpa using phrase.fold member operand⟩
    · rintro tokens _ rest - ⟨right, rfl, operand, enough', ends'⟩
      have folded := phrase.fold member operand
      have counted' : ∀ kind ∈ operators, (Expr.binary operator left right).folds kind = count + 1 := by
        intro kind found
        rw [ExprPhrase.folds_fold listed member found, counted kind found]
      have cost : (Expr.binary operator left right).cost ≤ inner + (count + 1) := by
        simp only [Expr.cost, counted _ member]
        omega
      have same : inner + (count + 1) = room + count := by omega
      refine Verdict.imp (judged_chainRest inner operators tighter listed folded counted' cost ends')
        ?_ ?_ (by omega)
      · intro more value rest' _ found
        simpa [same] using found
      · intro more start
        simpa using start
  · intro missed
    refine Verdict.pure ⟨left, rfl, by simpa using phrase, enough, ?_⟩
    intro token found continues
    simp only [continuedBy, List.flatten_cons, List.mem_append] at continues
    rcases continues with kind | kind
    · exact missed token found kind
    · exact ends token found kind
termination_by room * 8 + 2 + tighter.length

theorem judged_unary (room : Nat) (unread : List Token) : unary.Judged room unread := by
  change Verdict (fun more => Read.unary more) room unread _ _ _
  unfold Read.unary
  refine Verdict.acceptAny ?_ fun _ => ?_
  · rintro operator after rfl member
    have signed : operator.kind = .bang ∨ operator.kind = .minus := by simpa using member
    refine Verdict.bind (judged_nested fun inner level => judged_unary inner after) ?_ ?_ ?_ ?_
    · rintro more (_ | right) <;> exact .pure _
    · rintro tokens ⟨rest, right, phrase⟩
      exact ⟨rest, _, .sign signed phrase⟩
    · simp
    · rintro tokens _ rest - ⟨positive, right, rfl, phrase, enough, ends⟩
      refine Verdict.pure ⟨_, rfl, by simpa using phrase.sign signed, ?_, endsBefore_unary _⟩
      simp only [Expr.cost]
      omega
  · refine Verdict.imp (judged_primary room unread) ?_ ?_ (Nat.le_refl _)
    · rintro tokens _ rest - ⟨expr, rfl, phrase, enough, -⟩
      exact ⟨expr, rfl, .unsigned phrase, enough, endsBefore_unary _⟩
    · rintro tokens ⟨rest, expr, phrase⟩
      exact ⟨rest, expr, .unsigned phrase⟩
termination_by room * 8 + 1

theorem judged_primary (room : Nat) (unread : List Token) : primary.Judged room unread :=
  judged_primary_of fun inner _ => judged_assignment inner
termination_by room * 8

end

end ExprForm

theorem ExprPhrase.accepts_expression {room : Nat} {look : Option Token}
    (phrase : ExprPhrase .assignment tokens expr) (enough : wholeCost (some expr) ≤ room)
    (ends : ExprForm.assignment.EndsBefore look) :
    (expression room).Accepts tokens (some expr) look := by
  simp only [wholeCost] at enough
  have level : room = room - 1 + 1 := by omega
  exact .nested level fun _ => phrase.reads trivial _ look (by omega) ends

theorem judged_expression (room : Nat) (unread : List Token) :
    Verdict expression room unread
      (fun tokens value look => ∃ expr, value = some expr ∧ ExprPhrase .assignment tokens expr ∧
        wholeCost (some expr) ≤ room ∧ ExprForm.assignment.EndsBefore look)
      ExprForm.assignment.Viable room := by
  refine Verdict.imp (ExprForm.judged_nested fun inner _ => ExprForm.judged_assignment inner unread)
    ?_ (fun _ start => start) (Nat.le_refl _)
  rintro tokens _ rest - ⟨positive, expr, rfl, phrase, enough, ends⟩
  refine ⟨expr, rfl, phrase, ?_, ends⟩
  simp only [wholeCost]
  omega

end ScriptTree
