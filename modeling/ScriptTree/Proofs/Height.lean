import Mathlib.Tactic.Ring
import ScriptTree.Proofs.Seam
import ScriptTree.Proofs.Validity

/-! How tall an expression can get. Room is charged for the operators of a chain
and given back where the chain ends, so the chains of all four tiers can be
stacked on the left at every level of nesting: the height of the trees grows with
the square of the depth limit. -/
namespace ScriptTree

namespace Expr

/-- The number of nodes on the longest way from the root to a leaf. -/
def height : Expr → Nat
  | binary _ left right => 1 + max left.height right.height
  | unary _ right => 1 + right.height
  | grouping inner => 1 + inner.height
  | assign _ value => 1 + value.height
  | literal .. | name _ => 1

def parts : Expr → List Expr
  | binary operator left right => binary operator left right :: (left.parts ++ right.parts)
  | unary operator right => unary operator right :: right.parts
  | grouping inner => grouping inner :: inner.parts
  | assign target value => assign target value :: value.parts
  | literal kind text => [literal kind text]
  | name token => [name token]

theorem self_mem_parts (expr : Expr) : expr ∈ expr.parts := by
  cases expr <;> exact List.mem_cons_self

theorem height_le_of_mem_parts {expr part : Expr} (member : part ∈ expr.parts) :
    part.height ≤ expr.height := by
  induction expr with
  | binary operator left right ihLeft ihRight =>
    simp only [parts, List.mem_cons, List.mem_append] at member
    rcases member with rfl | member | member
    · exact Nat.le_refl _
    · have := ihLeft member
      simp only [height]
      omega
    · have := ihRight member
      simp only [height]
      omega
  | unary operator inner ih | grouping inner ih | assign target inner ih =>
    simp only [parts, List.mem_cons] at member
    rcases member with rfl | member
    · exact Nat.le_refl _
    · have := ih member
      simp only [height]
      omega
  | literal kind text | name token =>
    rw [List.mem_singleton.mp member]

theorem height_pos (expr : Expr) : 0 < expr.height := by
  cases expr <;> simp only [height] <;> omega

end Expr

namespace Stmt

mutual

def exprs : Stmt → List Expr
  | block ⟨⟨body⟩, _⟩ => exprsAll body
  | expr value => value.toList.flatMap Expr.parts
  | branch condition yes none => condition.toList.flatMap Expr.parts ++ yes.exprs
  | branch condition yes (some no) =>
    condition.toList.flatMap Expr.parts ++ (yes.exprs ++ no.exprs)
  | whileLoop condition body => condition.toList.flatMap Expr.parts ++ body.exprs
  | forLoop init condition increment body =>
    init.exprs ++ (condition.exprs ++ (increment.exprs ++ body.exprs))
  | declare _ none => []
  | declare _ (some init) => init.exprs

def exprsAll : List Stmt → List Expr
  | [] => []
  | stmt :: rest => stmt.exprs ++ exprsAll rest

end

def Low (bound : Nat) (stmt : Stmt) : Prop :=
  ∀ expr ∈ stmt.exprs, expr.height ≤ bound

@[simp] theorem exprs_block (body : Slots Stmt) : (block body).exprs = exprsAll body.toList := rfl

theorem forall_mem_exprsAll {stmts : List Stmt} {bound : Nat} :
    (∀ expr ∈ exprsAll stmts, expr.height ≤ bound) ↔ ∀ stmt ∈ stmts, stmt.Low bound := by
  induction stmts with
  | nil => simp [exprsAll]
  | cons stmt rest ih => rw [exprsAll, List.forall_mem_append, List.forall_mem_cons, ih, Low]

end Stmt

def Low (bound : Nat) (value : Option Expr) : Prop :=
  ∀ expr ∈ value, expr.height ≤ bound

theorem Low.parts {bound : Nat} {value : Option Expr} (low : Low bound value) :
    ∀ expr ∈ value.toList.flatMap Expr.parts, expr.height ≤ bound := by
  intro expr member
  obtain ⟨whole, found, part⟩ := List.mem_flatMap.mp member
  exact (Expr.height_le_of_mem_parts part).trans (low whole (Option.mem_toList.mp found))

/-- The height of the tallest expression that an assignment gives at a room. -/
def tallest (room : Nat) : Nat :=
  (2 * room + 1) * (room + 1)

def tallestUnary : Nat → Nat
  | 0 => 1
  | room + 1 => 1 + tallest room

/-- Each of the four tiers adds its operators. -/
theorem tallest_eq (room : Nat) : tallest room = tallestUnary room + 4 * room := by
  cases room with
  | zero => rfl
  | succ room =>
    simp only [tallest, tallestUnary]
    ring

theorem tallestUnary_pos (room : Nat) : 0 < tallestUnary room := by
  cases room <;> simp only [tallestUnary] <;> omega

theorem tallestUnary_le_succ (room : Nat) : tallestUnary room ≤ tallestUnary (room + 1) := by
  have deeper : tallestUnary (room + 1) = 1 + tallest room := rfl
  rw [deeper, tallest_eq]
  omega

theorem tallestUnary_le_tallest (room : Nat) : tallestUnary room ≤ tallest room := by
  rw [tallest_eq]
  omega

theorem tallest_le_succ (room : Nat) : tallest room ≤ tallest (room + 1) := by
  have := tallestUnary_le_succ room
  rw [tallest_eq, tallest_eq]
  omega

def tallestWhole (room : Nat) : Nat :=
  room * (2 * room - 1)

theorem tallestWhole_succ (room : Nat) : tallestWhole (room + 1) = tallest room := by
  have : 2 * (room + 1) - 1 = 2 * room + 1 := by omega
  rw [tallestWhole, tallest, this, Nat.mul_comm]

theorem tallestWhole_le_succ (room : Nat) : tallestWhole room ≤ tallestWhole (room + 1) := by
  cases room with
  | zero => exact Nat.zero_le _
  | succ room =>
    rw [tallestWhole_succ, tallestWhole_succ]
    exact tallest_le_succ room

namespace Read

variable {α β : Type}

/-- Whatever it finds, the reader answers a good value. -/
def Yields (p : Read α) (Good : α → Prop) : Prop :=
  ∀ cursor, Good (p cursor).1

theorem Yields.pure {a : α} {Good : α → Prop} (good : Good a) : Yields (pure a) Good :=
  fun _ => good

theorem Yields.bind {p : Read α} {f : α → Read β} {First : α → Prop} {Good : β → Prop}
    (first : Yields p First) (next : ∀ a, First a → Yields (f a) Good) :
    Yields (p >>= f) Good :=
  fun cursor => next _ (first cursor) _

theorem Yields.after {p : Read α} {f : α → Read β} {Good : β → Prop}
    (next : ∀ a, Yields (f a) Good) : Yields (p >>= f) Good :=
  fun _ => next _ _

theorem Yields.imp {p : Read α} {Better Good : α → Prop} (yields : Yields p Better)
    (weaker : ∀ a, Better a → Good a) : Yields p Good :=
  fun cursor => weaker _ (yields cursor)

theorem Yields.take? (pick : Token → Option α) :
    Yields (take? pick) (fun found => ∀ a ∈ found, ∃ token, pick token = some a) := by
  intro cursor
  unfold Read.take?
  split
  · simp
  next token rest unread =>
    split
    next a picked =>
      intro a found
      cases found
      exact ⟨token, picked⟩
    · simp

theorem Yields.nested {room : Nat} {body : (inner : Nat) → inner < room → Read (Option α)}
    {Good : Option α → Prop} (none : Good none)
    (yields : ∀ inner bound, room = inner + 1 → Yields (body inner bound) Good) :
    Yields (nested room body) Good := by
  cases room with
  | zero => exact .after fun _ => .pure none
  | succ inner => exact yields inner _ rfl

end Read

open Read

theorem low_none (bound : Nat) : Low bound none := by
  simp [Low]

theorem low_some {bound : Nat} {expr : Expr} (low : expr.height ≤ bound) : Low bound (some expr) := by
  intro other found
  cases found
  exact low

theorem leaf?_height {token : Token} {expr : Expr} (picked : leaf? token = some expr) :
    expr.height = 1 := by
  unfold leaf? at picked
  split at picked <;> cases picked <;> rfl

theorem nested_low {room : Nat} {body : Nat → Read (Option Expr)}
    (yields : ∀ inner < room, Yields (body inner) (Low (tallest inner))) :
    Yields (nested room fun inner _ => body inner) (Low (tallestUnary room - 1)) := by
  apply Yields.nested (low_none _)
  intro inner bound level
  subst level
  simpa [tallestUnary] using yields inner bound

mutual

theorem assignment_low (room : Nat) : Yields (assignment room) (Low (tallest room)) := by
  rw [assignment_eq]
  refine Yields.bind (chain_low room binaryTiers) fun target low => ?_
  cases target with
  | none => exact .pure (low_none _)
  | some target =>
    have operands : target.height ≤ tallestUnary room + 4 * room := low target rfl
    rw [← tallest_eq] at operands
    apply Yields.after
    intro equals
    cases equals with
    | none => exact .pure (low_some operands)
    | some equals =>
      cases target with
      | name name =>
        refine Yields.bind (nested_low fun inner _ => assignment_low inner) fun value low' => ?_
        cases value with
        | none => exact .pure (low_none _)
        | some value =>
          have inside := low' value rfl
          have positive := tallestUnary_pos room
          apply Yields.pure
          apply low_some
          simp only [Expr.height]
          rw [tallest_eq]
          omega
      | _ => exact Yields.after fun _ => .pure (low_some operands)
termination_by room * 8 + 7
decreasing_by
  · simp only [binaryTiers, List.length_cons, List.length_nil]
    omega
  · omega

theorem chain_low (room : Nat) : ∀ tiers,
    Yields (chain room tiers) (Low (tallestUnary room + tiers.length * room))
  | [] => by
    unfold chain
    simpa using unary_low room
  | operators :: tighter => by
    unfold chain
    refine Yields.bind (chain_low room tighter) fun left low => ?_
    cases left with
    | none => exact .pure (low_none _)
    | some left =>
      have same := Nat.max_eq_right (low left rfl)
      refine (chainRest_low room operators tighter left).imp fun value lower => ?_
      rw [same] at lower
      rwa [List.length_cons, Nat.succ_mul, ← Nat.add_assoc]
termination_by tiers => room * 8 + 2 + tiers.length

theorem chainRest_low (room : Nat) (operators : List Kind) (tighter : List (List Kind))
    (left : Expr) : Yields (chainRest room operators tighter left)
      (Low (max left.height (tallestUnary room + tighter.length * room) + room)) := by
  unfold chainRest
  apply Yields.after
  intro operator
  cases operator with
  | none => exact .pure (low_some (by omega))
  | some operator =>
    apply Yields.nested (low_none _)
    intro inner bound level
    subst level
    refine Yields.bind (chain_low inner tighter) fun right low => ?_
    cases right with
    | none => exact .pure (low_none _)
    | some right =>
      have operand := low right rfl
      refine (chainRest_low inner operators tighter (.binary operator left right)).imp ?_
      intro value lower expr found
      have folded := lower expr found
      have wider := tallestUnary_le_succ inner
      simp only [Expr.height] at folded
      rw [Nat.mul_succ]
      omega
termination_by room * 8 + 2 + tighter.length

theorem unary_low (room : Nat) : Yields (unary room) (Low (tallestUnary room)) := by
  unfold unary
  apply Yields.after
  intro operator
  cases operator with
  | none => exact primary_low room
  | some operator =>
    have deeper : Yields (nested room fun inner _ => unary inner) (Low (tallestUnary room - 1)) :=
      nested_low fun inner _ => (unary_low inner).imp fun value low expr found =>
        Nat.le_trans (low expr found) (tallestUnary_le_tallest inner)
    refine Yields.bind deeper fun right low => ?_
    cases right with
    | none => exact .pure (low_none _)
    | some right =>
      have inside := low right rfl
      have positive := tallestUnary_pos room
      apply Yields.pure
      apply low_some
      simp only [Expr.height]
      omega
termination_by room * 8 + 1

theorem primary_low (room : Nat) : Yields (primary room) (Low (tallestUnary room)) := by
  unfold primary
  have positive := tallestUnary_pos room
  refine Yields.bind (Yields.take? leaf?) fun leaf picked => ?_
  cases leaf with
  | some leaf =>
    obtain ⟨token, found⟩ := picked leaf rfl
    apply Yields.pure
    apply low_some
    rw [leaf?_height found]
    exact positive
  | none =>
    apply Yields.after
    intro opening
    cases opening with
    | none => exact Yields.after fun _ => .pure (low_none _)
    | some opening =>
      refine Yields.bind (nested_low fun inner _ => assignment_low inner) fun inner low => ?_
      cases inner with
      | none => exact .pure (low_none _)
      | some inner =>
        have inside := low inner rfl
        apply Yields.after
        intro closing
        apply Yields.pure
        apply low_some
        simp only [Expr.height]
        omega
termination_by room * 8

end

theorem expression_low (room : Nat) : Yields (expression room) (Low (tallestWhole room)) := by
  apply Yields.nested (low_none _)
  intro inner bound level
  subst level
  rw [tallestWhole_succ]
  exact assignment_low inner

section

variable {bound : Nat} {value : Read (Option Expr)} {part : Read Stmt}

theorem initialValue_low (low : Yields value (Low bound)) (name : Option Token) :
    Yields (initialValue value name) (Stmt.Low bound) := by
  apply Yields.after
  intro equals
  cases equals with
  | none =>
    apply Yields.after
    intro close
    apply Yields.pure
    simp [Stmt.Low, Stmt.exprs]
  | some equals =>
    refine Yields.bind low fun init lower => Yields.after fun _ => .pure ?_
    simpa only [Stmt.Low, Stmt.exprs] using lower.parts

theorem clause_low (low : Yields value (Low bound)) (inner : Yields part (Stmt.Low bound)) :
    Yields (clause value part) (Stmt.Low bound) := by
  apply Yields.after
  intro word
  cases word with
  | none => exact inner
  | some word => exact Yields.after (initialValue_low low)

theorem declaration_low (low : Yields value (Low bound)) (inner : Yields part (Stmt.Low bound)) :
    Yields (declaration value part) (Stmt.Low bound) := by
  apply Yields.after
  intro word
  cases word with
  | none => exact Yields.after fun _ => inner
  | some word => exact Yields.after (initialValue_low low)

theorem yields_sequence {declaration : Read Stmt} {closes : Kind → Bool} {Good : Stmt → Prop}
    (each : Yields declaration Good) {done : Slots Stmt} (earlier : ∀ stmt ∈ done.toList, Good stmt) :
    Yields (sequence declaration closes done) (fun slots => ∀ stmt ∈ slots.toList, Good stmt) := by
  intro cursor
  refine sequence_keeps (fun slots _ => ∀ stmt ∈ slots.toList, Good stmt) ?_ earlier
  intro slots before _ good
  rw [Slots.toList_push, List.forall_mem_append]
  exact ⟨good, by simpa using each before⟩

theorem block_low {declaration : Read Stmt} (inner : Yields declaration (Stmt.Low bound)) :
    Yields (block declaration) (Stmt.Low bound) := by
  rw [block_eq]
  refine Yields.bind (yields_sequence inner (by simp)) fun body lower =>
    .after fun _ => .pure ?_
  rw [Stmt.Low, Stmt.exprs_block, Stmt.forall_mem_exprsAll]
  exact lower

theorem forStatement_low (low : Yields value (Low bound)) (inner : Yields part (Stmt.Low bound)) :
    Yields (forStatement value part) (Stmt.Low bound) := by
  rw [forStatement_eq]
  apply Yields.after
  intro opening
  refine Yields.bind (clause_low low inner) fun init lower₁ => ?_
  refine Yields.bind inner fun condition lower₂ => Yields.bind inner fun increment lower₃ => ?_
  refine Yields.after fun _ => Yields.bind inner fun body lower₄ => .pure ?_
  simp only [Stmt.Low, Stmt.exprs, List.forall_mem_append]
  exact ⟨lower₁, lower₂, lower₃, lower₄⟩

theorem whileStatement_low (low : Yields value (Low bound)) (inner : Yields part (Stmt.Low bound)) :
    Yields (whileStatement value part) (Stmt.Low bound) := by
  apply Yields.after
  intro opening
  refine Yields.bind low fun condition lower => Yields.after fun _ => ?_
  refine Yields.bind inner fun body lower' => .pure ?_
  simp only [Stmt.Low, Stmt.exprs, List.forall_mem_append]
  exact ⟨lower.parts, lower'⟩

theorem ifStatement_low (low : Yields value (Low bound)) (inner : Yields part (Stmt.Low bound)) :
    Yields (ifStatement value part) (Stmt.Low bound) := by
  apply Yields.after
  intro opening
  refine Yields.bind low fun condition lower => Yields.after fun _ => ?_
  refine Yields.bind inner fun yes lower' => Yields.after fun word => ?_
  cases word with
  | none =>
    apply Yields.pure
    simp only [Stmt.Low, Stmt.exprs, List.forall_mem_append]
    exact ⟨lower.parts, lower'⟩
  | some word =>
    refine Yields.bind inner fun no lower'' => .pure ?_
    simp only [Stmt.Low, Stmt.exprs, List.forall_mem_append]
    exact ⟨lower.parts, lower', lower''⟩

theorem expressionStatement_low (low : Yields value (Low bound)) :
    Yields (expressionStatement value) (Stmt.Low bound) := by
  refine Yields.bind low fun value lower => Yields.after fun _ => .pure ?_
  simpa only [Stmt.Low, Stmt.exprs] using lower.parts

theorem statementWith_low (low : Yields value (Low bound)) (inner : Yields part (Stmt.Low bound)) :
    Yields (statementWith value part) (Stmt.Low bound) := by
  apply Yields.after
  intro opening
  cases opening with
  | none => exact expressionStatement_low low
  | some opening =>
    cases opening with
    | forLoop => exact forStatement_low low inner
    | whileLoop => exact whileStatement_low low inner
    | branch => exact ifStatement_low low inner
    | block => exact block_low (declaration_low low inner)

end

theorem statement_low (room : Nat) : Yields (statement room) (Stmt.Low (tallestWhole room)) := by
  induction room with
  | zero =>
    apply Yields.after
    intro _
    apply Yields.pure
    simp [Stmt.Low, Stmt.missing, Stmt.exprs]
  | succ room ih =>
    have wider := tallestWhole_le_succ room
    refine statementWith_low ?_ ?_
    · exact (expression_low room).imp fun _ low expr found => Nat.le_trans (low expr found) wider
    · exact ih.imp fun _ low expr found => Nat.le_trans (low expr found) wider

theorem parse_low (source : String) (limits : Limits) :
    ∀ expr ∈ Stmt.exprsAll (parse source limits).statements.toList,
      expr.height ≤ tallestWhole limits.maxDepth := by
  rw [Stmt.forall_mem_exprsAll]
  have low : Yields (program limits.maxDepth) (fun slots : Slots Stmt =>
      ∀ stmt ∈ slots.toList, stmt.Low (tallestWhole limits.maxDepth)) := by
    rw [program_eq]
    exact yields_sequence (declaration_low (expression_low _) (statement_low _)) (by simp)
  exact low (Cursor.start (tokenize source))

theorem tokensFrom_lexeme {line : Nat} {c : Char} {cs : List Char} {kind : Kind}
    (gap : splitGap false [] (c :: cs) = ([], c :: cs))
    (bitten : bite c cs = ⟨.ok kind, c :: cs, []⟩) (level : (c :: cs).count '\n' = 0) :
    tokensFrom line (c :: cs) = [⟨kind, String.ofList (c :: cs), line⟩] := by
  have found : (splitGap false [] (c :: cs)).2 = c :: cs := by rw [gap]
  have blank : (splitGap false [] []).2 = [] := rfl
  rw [tokensFrom_of_token found rfl, gap, bitten, tokensFrom_of_blank blank, level]
  rfl

theorem tokensFrom_lexeme_append {line : Nat} {lexeme back : List Char} {token : Token}
    (spelled : tokensFrom line lexeme = [token]) (known : token.kind ≠ .error)
    (level : lexeme.count '\n' = 0) :
    tokensFrom line (lexeme ++ '\n' :: back) = token :: tokensFrom (line + 1) back := by
  have fine : Terminated (tokensFrom line lexeme) := by
    rw [spelled]
    intro other member unended
    rw [List.mem_singleton.mp member] at unended
    exact known unended.1
  rw [tokensFrom_append _ _ _ fine, spelled, level, List.singleton_append, Nat.add_zero]

/-- On every line the text spells an expression of this height that costs no
more than this. -/
def Spells (form : ExprForm) (text : List Char) (height cost : Nat) : Prop :=
  ∀ line, ∃ expr, ExprPhrase form (tokensFrom line text) expr ∧ expr.height = height ∧
    expr.cost ≤ cost

theorem ExprPhrase.terminated {form : ExprForm} {tokens : List Token} {expr : Expr}
    (phrase : ExprPhrase form tokens expr) (listed : form.Listed) : Terminated tokens :=
  fun token member unended => phrase.kind_ne_error listed token member unended.1

theorem tokensFrom_name (line : Nat) : tokensFrom line ['x'] = [⟨.identifier, "x", line⟩] :=
  tokensFrom_lexeme rfl rfl rfl

theorem Spells.group {text : List Char} {height cost : Nat}
    (spells : Spells .assignment text height cost) :
    ∃ grouped, Spells .primary grouped (height + 1) (cost + 1) := by
  refine ⟨['('] ++ '\n' :: (text ++ '\n' :: [')']), fun line => ?_⟩
  have closing (line : Nat) : tokensFrom line [')'] = [⟨.rightParen, ")", line⟩] :=
    tokensFrom_lexeme rfl rfl rfl
  obtain ⟨inner, phrase, rfl, enough⟩ := spells (line + 1)
  rw [tokensFrom_lexeme_append (tokensFrom_lexeme rfl rfl rfl) (by simp) rfl,
    tokensFrom_append _ _ _ (phrase.terminated trivial), closing]
  refine ⟨_, .group rfl phrase rfl, ?_, ?_⟩
  · simp only [Expr.height]
    omega
  · simp only [Expr.cost]
    omega

theorem exists_operator {operators : List Kind} (listed : operators ∈ binaryTiers) :
    ∃ kind ∈ operators, ∃ lexeme, ∀ line,
      tokensFrom line lexeme = [⟨kind, String.ofList lexeme, line⟩] := by
  simp only [binaryTiers, List.mem_cons, List.not_mem_nil, or_false] at listed
  rcases listed with rfl | rfl | rfl | rfl
  · exact ⟨.equalEqual, by simp, ['=', '='], fun _ => tokensFrom_lexeme rfl rfl rfl⟩
  · exact ⟨.less, by simp, ['<'], fun _ => tokensFrom_lexeme rfl rfl rfl⟩
  · exact ⟨.plus, by simp, ['+'], fun _ => tokensFrom_lexeme rfl rfl rfl⟩
  · exact ⟨.star, by simp, ['*'], fun _ => tokensFrom_lexeme rfl rfl rfl⟩

theorem Spells.fold {operators : List Kind} {tighter : List (List Kind)} {text : List Char}
    {height cost : Nat} (listed : (operators :: tighter) <:+ binaryTiers)
    (spells : Spells (.chain tighter) text height cost) (count : Nat) :
    ∃ folded, ∀ line, ∃ expr, ExprPhrase (.chain (operators :: tighter)) (tokensFrom line folded) expr ∧
      expr.height = height + count ∧ expr.cost ≤ max cost count ∧
      ∀ kind ∈ operators, expr.folds kind = count := by
  obtain ⟨kind, member, lexeme, operator⟩ :=
    exists_operator (listed.subset (List.mem_cons_self (a := operators)))
  induction count with
  | zero =>
    refine ⟨text, fun line => ?_⟩
    obtain ⟨expr, phrase, tall, enough⟩ := spells line
    exact ⟨expr, .operand phrase, tall, by omega, fun _ found => phrase.folds_operand listed found⟩
  | succ count ih =>
    obtain ⟨folded, ih⟩ := ih
    refine ⟨folded ++ '\n' :: (lexeme ++ '\n' :: ['x']), fun line => ?_⟩
    obtain ⟨left, phrase, tall, enough, counted⟩ := ih line
    have known : kind ≠ .error := by
      intro same
      have apart : ∀ tier ∈ binaryTiers, Kind.error ∉ tier := by decide
      exact apart _ (listed.subset List.mem_cons_self) (same ▸ member)
    have fine (line : Nat) : Terminated (tokensFrom line lexeme) := by
      simp [operator, Terminated, known]
    rw [tokensFrom_append _ _ _ (phrase.terminated listed), tokensFrom_append _ _ _ (fine _),
      operator, tokensFrom_name]
    refine ⟨_, .fold phrase member (ExprForm.name_phrase _ rfl), ?_, ?_, ?_⟩
    · have positive := left.height_pos
      simp only [Expr.height]
      omega
    · simp only [Expr.cost, counted _ member]
      omega
    · intro other found
      rw [ExprPhrase.folds_fold listed member found, counted other found]

theorem Spells.chain {text : List Char} {height cost : Nat}
    (spells : Spells .primary text height cost) {count : Nat} (enough : count ≤ cost)
    {tiers : List (List Kind)} (listed : tiers <:+ binaryTiers) :
    ∃ stacked, Spells (.chain tiers) stacked (height + tiers.length * count) cost := by
  induction tiers with
  | nil =>
    refine ⟨text, fun line => ?_⟩
    obtain ⟨expr, phrase, tall, low⟩ := spells line
    exact ⟨expr, .tightest (.unsigned phrase), by simpa using tall, low⟩
  | cons operators tighter ih =>
    obtain ⟨stacked, spells⟩ := ih ((List.suffix_cons _ _).trans listed)
    obtain ⟨folded, spells⟩ := spells.fold listed count
    refine ⟨folded, fun line => ?_⟩
    obtain ⟨expr, phrase, tall, low, -⟩ := spells line
    refine ⟨expr, phrase, ?_, by omega⟩
    rw [tall, List.length_cons, Nat.succ_mul, Nat.add_assoc]

theorem exists_spells_tallest (room : Nat) :
    ∃ text, Spells .assignment text (tallest room) room := by
  induction room with
  | zero =>
    refine ⟨['x'], fun line => ?_⟩
    rw [tokensFrom_name]
    exact ⟨_, ExprForm.name_phrase _ rfl, rfl, Nat.le_refl _⟩
  | succ room ih =>
    obtain ⟨text, spells⟩ := ih
    obtain ⟨grouped, spells⟩ := spells.group
    obtain ⟨stacked, spells⟩ := spells.chain (Nat.le_refl _) List.suffix_rfl
    refine ⟨stacked, fun line => ?_⟩
    obtain ⟨expr, phrase, tall, low⟩ := spells line
    refine ⟨expr, .loosest phrase, ?_, low⟩
    have deeper : tallestUnary (room + 1) = 1 + tallest room := rfl
    have four : binaryTiers.length = 4 := rfl
    rw [tall, tallest_eq (room + 1), deeper, four]
    omega

theorem Spells.declared {text : List Char} {height cost : Nat}
    (spells : Spells .assignment text height cost) :
    ∃ source value stmts, Script (tokenize source).body stmts ∧ Stmt.allNearestElse stmts = true ∧
      Stmt.greatestCost stmts ≤ 1 + cost ∧ value ∈ Stmt.exprsAll stmts ∧ value.height = height := by
  obtain ⟨value, phrase, tall, low⟩ := spells 4
  have close (line : Nat) : tokensFrom line [';'] = [⟨.semicolon, ";", line⟩] :=
    tokensFrom_lexeme rfl rfl rfl
  let tokens : List Token := ⟨.varWord, "var", 1⟩ :: ⟨.identifier, "x", 2⟩ :: ⟨.equal, "=", 3⟩ ::
    (tokensFrom 4 text ++ [⟨.semicolon, ";", 4 + text.count '\n' + 1⟩])
  have body : tokensFrom 1 (['v', 'a', 'r'] ++ '\n' :: (['x'] ++ '\n' :: (['='] ++ '\n' ::
      (text ++ '\n' :: [';'])))) = tokens := by
    rw [tokensFrom_lexeme_append (tokensFrom_lexeme rfl rfl rfl) (by decide) rfl,
      tokensFrom_lexeme_append (tokensFrom_name _) (by decide) rfl,
      tokensFrom_lexeme_append (tokensFrom_lexeme rfl rfl rfl) (by decide) rfl,
      tokensFrom_append _ _ _ (phrase.terminated trivial), close]
    rfl
  let stmt : Stmt := .declare (some ⟨.identifier, "x", 2⟩) (some (.expr (some value)))
  have script : Script tokens [stmt] :=
    ⟨[(tokens, stmt)], by simpa using StmtPhrase.declareAs rfl rfl rfl phrase rfl, by simp, rfl⟩
  rw [← tokenize_ofList_body] at body
  refine ⟨_, value, [stmt], body ▸ script, rfl, ?_, ?_, tall⟩
  · simp only [stmt, Stmt.greatestCost, Stmt.cost, wholeCost]
    omega
  · simp [stmt, Stmt.exprsAll, Stmt.exprs, value.self_mem_parts]

theorem exists_tallest {limits : Limits} (some : 0 < limits.maxDepth) :
    ∃ source, ∃ expr ∈ Stmt.exprsAll (parse source limits).statements.toList,
      expr.height = tallestWhole limits.maxDepth := by
  obtain ⟨room, level⟩ : ∃ room, limits.maxDepth = room + 1 := ⟨limits.maxDepth - 1, by omega⟩
  obtain ⟨text, spells⟩ := exists_spells_tallest room
  obtain ⟨source, value, stmts, script, nearest, enough, member, tall⟩ := spells.declared
  refine ⟨source, value, ?_, ?_⟩
  · rw [(parse_of_script script nearest (by omega)).2, Slots.toList_ofList]
    exact member
  · rw [level, tallestWhole_succ, tall]

/-- A limit bounds the height of expressions by this much and no less. The limit
itself bounds it only if it leaves no room for an operator. -/
theorem height_le_iff (limits : Limits) :
    (∀ bound, (∀ source, ∀ expr ∈ Stmt.exprsAll (parse source limits).statements.toList,
      expr.height ≤ bound) ↔ limits.maxDepth * (2 * limits.maxDepth - 1) ≤ bound) ∧
    ((∀ source, ∀ expr ∈ Stmt.exprsAll (parse source limits).statements.toList,
      expr.height ≤ limits.maxDepth) ↔ limits.maxDepth ≤ 1) := by
  have exact_bound (bound : Nat) :
      (∀ source, ∀ expr ∈ Stmt.exprsAll (parse source limits).statements.toList,
        expr.height ≤ bound) ↔ limits.maxDepth * (2 * limits.maxDepth - 1) ≤ bound := by
    constructor
    · intro low
      by_cases some : 0 < limits.maxDepth
      · obtain ⟨source, expr, member, tall⟩ := exists_tallest some
        have reached := low source expr member
        rw [tall] at reached
        exact reached
      · have none : limits.maxDepth = 0 := by omega
        rw [none, Nat.zero_mul]
        exact Nat.zero_le bound
    · intro enough source expr member
      exact Nat.le_trans (parse_low source limits expr member) enough
  refine ⟨exact_bound, (exact_bound _).trans ?_⟩
  constructor
  · intro low
    by_contra deep
    obtain ⟨more, level⟩ : ∃ more, 2 * limits.maxDepth - 1 = more + 2 :=
      ⟨2 * limits.maxDepth - 3, by omega⟩
    rw [level, Nat.mul_add] at low
    omega
  · intro shallow
    have one : 2 * limits.maxDepth - 1 ≤ 1 := by omega
    exact (Nat.mul_le_mul_left _ one).trans (Nat.le_of_eq (Nat.mul_one _))

/-- A product in a sum is read with room for two levels, and its tree has three. -/
theorem height_above_limit :
    (parse "var x = 1 * 1 + 1;" ⟨2⟩).hadError = false ∧
    ¬ ∀ expr ∈ Stmt.exprsAll (parse "var x = 1 * 1 + 1;" ⟨2⟩).statements.toList,
      expr.height ≤ 2 := by
  decide +kernel

end ScriptTree
