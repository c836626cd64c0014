import Mathlib.Data.List.Infix
import ScriptTree.Proofs.Grammar
import ScriptTree.Reader.Expression

/-! The tiers share no operator, so a chain ends at the first token that is no
operator of its tiers, and an operand was never folded with an operator of a
looser tier. -/
namespace ScriptTree

@[simp] theorem tiers_eq : Read.tiers = binaryTiers := rfl

theorem operators_apart {operators : List Kind} {tighter : List (List Kind)}
    (listed : (operators :: tighter) <:+ binaryTiers) {kind other : Kind}
    (found : kind ∈ operators) (later : other ∈ tighter.flatten) : sameTier other kind = false := by
  have apart : ∀ tiers ∈ binaryTiers.tails, ∀ kind ∈ tiers.headD [],
      ∀ other ∈ tiers.tail.flatten, sameTier other kind = false := by decide
  exact apart _ ((List.mem_tails _ _).mpr listed) _ found _ later

theorem operators_together {operators : List Kind} {tighter : List (List Kind)}
    (listed : (operators :: tighter) <:+ binaryTiers) {kind other : Kind}
    (found : kind ∈ operators) (too : other ∈ operators) : sameTier other kind = true := by
  have together : ∀ tiers ∈ binaryTiers.tails, ∀ kind ∈ tiers.headD [],
      ∀ other ∈ tiers.headD [], sameTier other kind = true := by decide
  exact together _ ((List.mem_tails _ _).mpr listed) _ found _ too

theorem operator_not_tighter {operators : List Kind} {tighter : List (List Kind)}
    (listed : (operators :: tighter) <:+ binaryTiers) {kind : Kind} (found : kind ∈ operators) :
    kind ∉ tighter.flatten := by
  intro later
  have apart := operators_apart listed found later
  rw [operators_together listed found found] at apart
  contradiction

namespace ExprForm

def rule (form : ExprForm) (room : Nat) : Read (Option Expr) :=
  match form with
  | assignment => Read.assignment room
  | chain tiers => Read.chain room tiers
  | unary => Read.unary room
  | primary => Read.primary room

def Listed : ExprForm → Prop
  | chain tiers => tiers <:+ binaryTiers
  | _ => True

def continuedBy : ExprForm → List Kind
  | assignment => .equal :: binaryTiers.flatten
  | chain tiers => tiers.flatten
  | unary | primary => []

/-- The expression is complete in front of `look`. -/
def EndsBefore (form : ExprForm) (look : Option Token) : Prop :=
  ∀ token ∈ look, token.kind ∉ form.continuedBy

theorem EndsBefore.loosest {look : Option Token} (ends : assignment.EndsBefore look) :
    (chain binaryTiers).EndsBefore look :=
  fun token found continues => ends token found (List.mem_cons_of_mem _ continues)

theorem EndsBefore.operand {operators : List Kind} {tighter : List (List Kind)}
    {look : Option Token} (ends : (chain (operators :: tighter)).EndsBefore look) :
    (chain tighter).EndsBefore look := by
  intro token found continues
  apply ends token found
  simp only [continuedBy, List.flatten_cons, List.mem_append]
  exact .inr continues

theorem endsBefore_unary (look : Option Token) : unary.EndsBefore look := fun _ _ => by
  simp [continuedBy]

theorem endsBefore_primary (look : Option Token) : primary.EndsBefore look := fun _ _ => by
  simp [continuedBy]

theorem name_phrase (form : ExprForm) {token : Token} (named : token.kind = .identifier) :
    ExprPhrase form [token] (.name token) := by
  have chained : ∀ tiers, ExprPhrase (.chain tiers) [token] (.name token) := by
    intro tiers
    induction tiers with
    | nil => exact .tightest (.unsigned (.name named))
    | cons operators tighter ih => exact .operand ih
  cases form with
  | assignment => exact .loosest (chained binaryTiers)
  | chain tiers => exact chained tiers
  | unary => exact .unsigned (.name named)
  | primary => exact .name named

theorem exists_phrase (form : ExprForm) : ∃ tokens expr, ExprPhrase form tokens expr :=
  ⟨[⟨.identifier, "x", 1⟩], _, form.name_phrase rfl⟩

end ExprForm

def primaryStarts : List Kind :=
  [.falseWord, .trueWord, .nullWord, .number, .string, .identifier, .leftParen]

def expressionStarts : List Kind :=
  .bang :: .minus :: primaryStarts

def expressionKinds : List Kind :=
  .equal :: .rightParen :: (expressionStarts ++ binaryTiers.flatten)

namespace ExprPhrase

theorem primary_head {tokens : List Token} {expr : Expr} (phrase : ExprPhrase .primary tokens expr) :
    ∃ token rest, tokens = token :: rest ∧ token.kind ∈ primaryStarts := by
  cases phrase with
  | group opened => exact ⟨_, _, rfl, by simp [opened, primaryStarts]⟩
  | falsehood kind | truth kind | null kind | number kind | string kind | name kind =>
    exact ⟨_, [], rfl, by simp [kind, primaryStarts]⟩

theorem head {form : ExprForm} {tokens : List Token} {expr : Expr}
    (phrase : ExprPhrase form tokens expr) :
    ∃ token rest, tokens = token :: rest ∧ token.kind ∈ expressionStarts := by
  induction phrase with
  | assign named => exact ⟨_, _, rfl, by simp [named, expressionStarts, primaryStarts]⟩
  | loosest _ ih | operand _ ih | tightest _ ih => exact ih
  | fold _ _ _ ih =>
    obtain ⟨token, rest, rfl, kind⟩ := ih
    exact ⟨token, _, rfl, kind⟩
  | sign signed => exact ⟨_, _, rfl, by rcases signed with kind | kind <;> simp [kind, expressionStarts]⟩
  | unsigned phrase =>
    obtain ⟨token, rest, split, kind⟩ := phrase.primary_head
    exact ⟨token, rest, split, by simp [expressionStarts, kind]⟩
  | group opened => exact ⟨_, _, rfl, by simp [opened, expressionStarts, primaryStarts]⟩
  | falsehood kind | truth kind | null kind | number kind | string kind | name kind =>
    exact ⟨_, [], rfl, by simp [kind, expressionStarts, primaryStarts]⟩

theorem kind_mem {form : ExprForm} {tokens : List Token} {expr : Expr}
    (phrase : ExprPhrase form tokens expr) (listed : form.Listed) :
    ∀ token ∈ tokens, token.kind ∈ expressionKinds := by
  induction phrase with
  | assign named equal _ ih =>
    rw [List.forall_mem_cons, List.forall_mem_cons, named, equal]
    exact ⟨by decide, by decide, ih trivial⟩
  | loosest _ ih => exact ih List.suffix_rfl
  | operand _ ih => exact ih ((List.suffix_cons _ _).trans listed)
  | @fold operators tighter operator _ _ _ _ _ member _ ihLeft ihRight =>
    have known : operator.kind ∈ expressionKinds := by
      have found := List.mem_flatten.mpr ⟨_, listed.subset List.mem_cons_self, member⟩
      exact List.mem_cons_of_mem _ (List.mem_cons_of_mem _ (List.mem_append_right _ found))
    rw [List.forall_mem_append, List.forall_mem_cons]
    exact ⟨ihLeft listed, known, ihRight ((List.suffix_cons _ _).trans listed)⟩
  | tightest _ ih => exact ih trivial
  | sign signed _ ih =>
    rw [List.forall_mem_cons]
    refine ⟨?_, ih trivial⟩
    rcases signed with kind | kind <;> rw [kind] <;> decide
  | unsigned _ ih => exact ih trivial
  | group opened _ closed ih =>
    rw [List.forall_mem_cons, List.forall_mem_append, List.forall_mem_singleton, opened, closed]
    exact ⟨by decide, ih trivial, by decide⟩
  | falsehood kind | truth kind | null kind | number kind | string kind | name kind =>
    rw [List.forall_mem_singleton, kind]
    decide

theorem operator_mem {tiers : List (List Kind)} {tokens : List Token} {expr : Expr}
    (phrase : ExprPhrase (.chain tiers) tokens expr) {operator : Token} {left right : Expr}
    (folded : expr = .binary operator left right) : operator.kind ∈ tiers.flatten := by
  generalize level : ExprForm.chain tiers = form at phrase
  induction phrase generalizing tiers with
  | operand _ ih =>
    cases level
    simp [ih folded rfl]
  | fold _ member =>
    cases level
    cases folded
    simp [member]
  | tightest phrase =>
    subst folded
    cases phrase with
    | unsigned phrase => cases phrase
  | _ => cases level

theorem folds_operand {operators : List Kind} {tighter : List (List Kind)}
    (listed : (operators :: tighter) <:+ binaryTiers) {tokens : List Token} {expr : Expr}
    (phrase : ExprPhrase (.chain tighter) tokens expr) {kind : Kind} (found : kind ∈ operators) :
    expr.folds kind = 0 := by
  cases expr with
  | binary operator left right =>
    have apart := operators_apart listed found (phrase.operator_mem rfl)
    simp [Expr.folds, apart]
  | _ => rfl

theorem folds_fold {operators : List Kind} {tighter : List (List Kind)}
    (listed : (operators :: tighter) <:+ binaryTiers) {operator : Token} {left right : Expr}
    {kind : Kind} (member : operator.kind ∈ operators) (found : kind ∈ operators) :
    (Expr.binary operator left right).folds kind = left.folds kind + 1 := by
  simp [Expr.folds, operators_together listed found member]

end ExprPhrase

end ScriptTree
