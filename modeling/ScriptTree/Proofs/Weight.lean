import ScriptTree.Proofs.Remains

/-! Nothing is read twice, and nothing is read out of thin air. Literals, names,
loops and blocks weigh something, in a tree as among the tokens: a phrase weighs
what its tokens weigh, and what remains of tokens weighs no more than they do. -/
namespace ScriptTree

/-- A token of these kinds leaves a mark of its own in the tree. -/
def Kind.weight : Kind → Nat
  | .falseWord | .trueWord | .nullWord | .number | .string | .identifier | .forWord
  | .leftBrace => 1
  | _ => 0

def weightOf : List Token → Nat
  | [] => 0
  | token :: rest => token.kind.weight + weightOf rest

@[simp] theorem weightOf_nil : weightOf [] = 0 := rfl

@[simp] theorem weightOf_cons (token : Token) (rest : List Token) :
    weightOf (token :: rest) = token.kind.weight + weightOf rest := rfl

@[simp] theorem weightOf_append (front back : List Token) :
    weightOf (front ++ back) = weightOf front + weightOf back := by
  induction front with
  | nil => rw [List.nil_append, weightOf_nil, Nat.zero_add]
  | cons token front ih => rw [List.cons_append, weightOf_cons, ih, weightOf_cons, Nat.add_assoc]

def Expr.weight : Expr → Nat
  | binary _ left right => left.weight + right.weight
  | unary _ right => right.weight
  | grouping inner => inner.weight
  | assign _ value => 1 + value.weight
  | literal .. | name _ => 1

def wholeWeight : Option Expr → Nat
  | some expr => expr.weight
  | none => 0

def nameWeight : Option Token → Nat
  | some _ => 1
  | none => 0

namespace Stmt

mutual

def weight : Stmt → Nat
  | block ⟨⟨body⟩, _⟩ => 1 + weightAll body
  | expr value => wholeWeight value
  | branch condition yes none => wholeWeight condition + yes.weight
  | branch condition yes (some no) => wholeWeight condition + yes.weight + no.weight
  | whileLoop condition body => wholeWeight condition + body.weight
  | forLoop init condition increment body =>
    1 + init.weight + condition.weight + increment.weight + body.weight
  | declare name none => nameWeight name
  | declare name (some init) => nameWeight name + init.weight

def weightAll : List Stmt → Nat
  | [] => 0
  | stmt :: rest => stmt.weight + weightAll rest

end

@[simp] theorem weight_block (body : Slots Stmt) :
    (block body).weight = 1 + weightAll body.toList := rfl

theorem weightAll_parts {parts : List (List Token × Stmt)}
    (each : ∀ part ∈ parts, part.2.weight = weightOf part.1) :
    weightAll (parts.map Prod.snd) = weightOf (parts.flatMap Prod.fst) := by
  induction parts with
  | nil => rfl
  | cons part parts ih =>
    obtain ⟨first, others⟩ := List.forall_mem_cons.mp each
    rw [List.map_cons, weightAll, first, ih others, List.flatMap_cons, weightOf_append]

end Stmt

theorem ExprPhrase.weight_eq {form : ExprForm} {tokens : List Token} {expr : Expr}
    (phrase : ExprPhrase form tokens expr) (listed : form.Listed) :
    expr.weight = weightOf tokens := by
  induction phrase with
  | assign named equal _ ih =>
    simp only [Expr.weight, weightOf_cons, named, equal, Kind.weight, ih trivial]
    omega
  | loosest _ ih => exact ih List.suffix_rfl
  | operand _ ih => exact ih ((List.suffix_cons _ _).trans listed)
  | fold _ member _ ihLeft ihRight =>
    have light : ∀ tier ∈ binaryTiers, ∀ kind ∈ tier, kind.weight = 0 := by decide
    rw [Expr.weight, ihLeft listed, ihRight ((List.suffix_cons _ _).trans listed), weightOf_append,
      weightOf_cons, light _ (listed.subset List.mem_cons_self) _ member, Nat.zero_add]
  | tightest _ ih => exact ih trivial
  | @sign operator _ _ signed _ ih =>
    have light : operator.kind.weight = 0 := by rcases signed with kind | kind <;> rw [kind] <;> rfl
    rw [Expr.weight, ih trivial, weightOf_cons, light, Nat.zero_add]
  | unsigned _ ih => exact ih trivial
  | group opened _ closed ih =>
    simp only [Expr.weight, weightOf_cons, weightOf_append, weightOf_nil, opened, closed,
      Kind.weight, ih trivial]
    omega
  | falsehood kind | truth kind | null kind | number kind | string kind | name kind =>
    simp only [Expr.weight, weightOf_cons, weightOf_nil, kind, Kind.weight]

theorem StmtPhrase.weight_eq {form : StmtForm} {tokens : List Token} {stmt : Stmt}
    (phrase : StmtPhrase form tokens stmt) : stmt.weight = weightOf tokens := by
  induction phrase with
  | declare var named closed =>
    simp only [Stmt.weight, nameWeight, weightOf_cons, weightOf_nil, var, named, closed, Kind.weight]
  | declareAs var named equal value closed =>
    simp only [Stmt.weight, nameWeight, wholeWeight, value.weight_eq trivial, weightOf_cons,
      weightOf_append, weightOf_nil, var, named, equal, closed, Kind.weight]
    omega
  | plain _ ih => exact ih
  | expr value closed =>
    simp only [Stmt.weight, wholeWeight, value.weight_eq trivial, weightOf_cons, weightOf_append,
      weightOf_nil, closed, Kind.weight]
    omega
  | forLoop word opened _ _ _ closed _ ihInit ihCondition ihIncrement ihBody =>
    simp only [Stmt.weight, ihInit, ihCondition, ihIncrement, ihBody, weightOf_cons, weightOf_append,
      word, opened, closed, Kind.weight]
    omega
  | whileLoop word opened condition closed _ ih | ifThen word opened condition closed _ ih =>
    simp only [Stmt.weight, wholeWeight, condition.weight_eq trivial, ih, weightOf_cons,
      weightOf_append, word, opened, closed, Kind.weight]
    omega
  | ifElse word opened condition closed _ otherwise _ ihYes ihNo =>
    simp only [Stmt.weight, wholeWeight, condition.weight_eq trivial, ihYes, ihNo, weightOf_cons,
      weightOf_append, word, opened, closed, otherwise, Kind.weight]
    omega
  | block opened _ closed ih =>
    have inside := Stmt.weightAll_parts ih
    simp only [Stmt.weight_block, Slots.toList_ofList, inside, weightOf_cons, weightOf_append,
      weightOf_nil, opened, closed, Kind.weight]
    omega

theorem Script.weight_eq {tokens : List Token} {stmts : List Stmt}
    (script : Script tokens stmts) : Stmt.weightAll stmts = weightOf tokens := by
  obtain ⟨parts, phrases, rfl, rfl⟩ := script
  exact Stmt.weightAll_parts fun part member => (phrases part member).weight_eq

theorem weightOf_le_of_sublist {kept tokens : List Token} (sub : kept.Sublist tokens) :
    weightOf kept ≤ weightOf tokens := by
  induction sub with
  | slnil => exact Nat.le_refl _
  | cons token _ ih => exact ih.trans (Nat.le_add_left _ _)
  | cons_cons token _ ih => exact Nat.add_le_add_left ih _

theorem ExprRemains.weight_le {tokens : List Token} {expr : Expr}
    (remains : ExprRemains tokens expr) : expr.weight ≤ weightOf tokens := by
  induction remains with
  | among _ sub ih => exact ih.trans (weightOf_le_of_sublist sub)
  | @leaf token expr picked =>
    apply Nat.le_of_eq
    unfold Read.leaf? at picked
    cases kind : token.kind <;> rw [kind] at picked <;> cases picked <;>
      simp only [Expr.weight, weightOf_cons, weightOf_nil, kind, Kind.weight]
  | binary _ _ _ _ ihLeft ihRight =>
    simp only [Expr.weight, weightOf_append, weightOf_cons]
    omega
  | unary _ _ ih | grouping _ _ ih =>
    simp only [Expr.weight, weightOf_cons]
    omega
  | assign _ _ _ ihName ihValue =>
    simp only [Expr.weight, weightOf_append, weightOf_cons] at ihName ⊢
    omega

theorem WholeRemains.weight_le {tokens : List Token} {value : Option Expr}
    (remains : WholeRemains tokens value) : wholeWeight value ≤ weightOf tokens := by
  cases value with
  | none => exact Nat.zero_le _
  | some expr => exact ExprRemains.weight_le remains

theorem nameWeight_eq {name : Option Token} (named : ∀ token ∈ name, token.kind = .identifier) :
    nameWeight name = weightOf name.toList := by
  cases name with
  | none => rfl
  | some token =>
    simp only [nameWeight, Option.toList_some, weightOf_cons, weightOf_nil, named token rfl,
      Kind.weight]

theorem Stmt.weightAll_le {parts : List (List Token × Stmt)}
    (each : ∀ part ∈ parts, part.2.weight ≤ weightOf part.1) :
    weightAll (parts.map Prod.snd) ≤ weightOf (parts.flatMap Prod.fst) := by
  induction parts with
  | nil => exact Nat.le_refl _
  | cons part parts ih =>
    obtain ⟨first, others⟩ := List.forall_mem_cons.mp each
    rw [List.map_cons, weightAll, List.flatMap_cons, weightOf_append]
    exact Nat.add_le_add first (ih others)

theorem StmtRemains.weight_le {tokens : List Token} {stmt : Stmt}
    (remains : StmtRemains tokens stmt) : stmt.weight ≤ weightOf tokens := by
  induction remains with
  | among _ sub ih => exact ih.trans (weightOf_le_of_sublist sub)
  | expr value => exact value.weight_le
  | declare _ named =>
    have light := nameWeight_eq named
    simp only [Stmt.weight, weightOf_cons]
    omega
  | declareAs _ named _ value =>
    have light := nameWeight_eq named
    have light' := value.weight_le
    simp only [Stmt.weight, weightOf_cons, weightOf_append]
    omega
  | forLoop word _ _ _ _ ihInit ihCondition ihIncrement ihBody =>
    simp only [Stmt.weight, weightOf_cons, weightOf_append, word, Kind.weight]
    omega
  | whileLoop _ condition _ ih | ifThen _ condition _ ih =>
    have light := condition.weight_le
    simp only [Stmt.weight, weightOf_cons, weightOf_append]
    omega
  | ifElse _ condition _ _ _ ihYes ihNo =>
    have light := condition.weight_le
    simp only [Stmt.weight, weightOf_cons, weightOf_append]
    omega
  | block opened _ _ ih =>
    have light := Stmt.weightAll_le ih
    simp only [Stmt.weight_block, Slots.toList_ofList, weightOf_cons, opened, Kind.weight]
    omega

theorem ScriptRemains.weight_le {tokens : List Token} {stmts : List Stmt}
    (remains : ScriptRemains tokens stmts) : Stmt.weightAll stmts ≤ weightOf tokens := by
  obtain ⟨parts, -, each, rfl, rfl⟩ := remains
  exact Stmt.weightAll_le fun part member => (each part member).weight_le

end ScriptTree
