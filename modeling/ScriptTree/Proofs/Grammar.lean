import ScriptTree.Tree.Stmt

/-! The grammar of the language, as derivations of trees from tokens, and what a
tree costs of the room for nesting. The grammar leaves open to which `if` an
`else` belongs; the trees in which it is always the nearest are singled out by
`Stmt.nearestElse`. -/
namespace ScriptTree

/-- The operators of the binary tiers, the loosest first. -/
def binaryTiers : List (List Kind) :=
  [[.bangEqual, .equalEqual],
   [.greater, .greaterEqual, .less, .lessEqual],
   [.minus, .plus],
   [.slash, .star]]

/-- What an expression can be read as. A chain folds operands with the operators
of its first tier; the operands are chains of the tighter ones. -/
inductive ExprForm where
  | assignment
  | chain (tiers : List (List Kind))
  | unary
  | primary

/-- `ExprPhrase form tokens expr`: the tokens spell the expression. -/
inductive ExprPhrase : ExprForm → List Token → Expr → Prop where
  | assign {name equals : Token} {tokens : List Token} {value : Expr} :
      name.kind = .identifier → equals.kind = .equal → ExprPhrase .assignment tokens value →
      ExprPhrase .assignment (name :: equals :: tokens) (.assign name value)
  | loosest {tokens : List Token} {expr : Expr} :
      ExprPhrase (.chain binaryTiers) tokens expr → ExprPhrase .assignment tokens expr
  | operand {operators : List Kind} {tighter : List (List Kind)} {tokens : List Token}
      {expr : Expr} :
      ExprPhrase (.chain tighter) tokens expr → ExprPhrase (.chain (operators :: tighter)) tokens expr
  | fold {operators : List Kind} {tighter : List (List Kind)} {operator : Token}
      {before after : List Token} {left right : Expr} :
      ExprPhrase (.chain (operators :: tighter)) before left → operator.kind ∈ operators →
      ExprPhrase (.chain tighter) after right →
      ExprPhrase (.chain (operators :: tighter)) (before ++ operator :: after)
        (.binary operator left right)
  | tightest {tokens : List Token} {expr : Expr} :
      ExprPhrase .unary tokens expr → ExprPhrase (.chain []) tokens expr
  | sign {operator : Token} {tokens : List Token} {right : Expr} :
      operator.kind = .bang ∨ operator.kind = .minus → ExprPhrase .unary tokens right →
      ExprPhrase .unary (operator :: tokens) (.unary operator right)
  | unsigned {tokens : List Token} {expr : Expr} :
      ExprPhrase .primary tokens expr → ExprPhrase .unary tokens expr
  | falsehood {token : Token} :
      token.kind = .falseWord → ExprPhrase .primary [token] (.literal .bool "0")
  | truth {token : Token} :
      token.kind = .trueWord → ExprPhrase .primary [token] (.literal .bool "1")
  | null {token : Token} :
      token.kind = .nullWord → ExprPhrase .primary [token] (.literal .null "NULL")
  | number {token : Token} :
      token.kind = .number → ExprPhrase .primary [token] (.literal .number token.lexeme)
  | string {token : Token} :
      token.kind = .string → ExprPhrase .primary [token] (.literal .string token.lexeme)
  | name {token : Token} :
      token.kind = .identifier → ExprPhrase .primary [token] (.name token)
  | group {opening closing : Token} {tokens : List Token} {inner : Expr} :
      opening.kind = .leftParen → ExprPhrase .assignment tokens inner →
      closing.kind = .rightParen →
      ExprPhrase .primary (opening :: (tokens ++ [closing])) (.grouping inner)

/-- A declaration may be of a variable; a statement may not. -/
inductive StmtForm where
  | declaration
  | statement

/-- `StmtPhrase form tokens stmt`: the tokens spell the statement. -/
inductive StmtPhrase : StmtForm → List Token → Stmt → Prop where
  | declare {word name close : Token} :
      word.kind = .varWord → name.kind = .identifier → close.kind = .semicolon →
      StmtPhrase .declaration [word, name, close] (.declare (some name) none)
  | declareAs {word name equals close : Token} {tokens : List Token} {value : Expr} :
      word.kind = .varWord → name.kind = .identifier → equals.kind = .equal →
      ExprPhrase .assignment tokens value → close.kind = .semicolon →
      StmtPhrase .declaration (word :: name :: equals :: (tokens ++ [close]))
        (.declare (some name) (some (.expr (some value))))
  | plain {tokens : List Token} {stmt : Stmt} :
      StmtPhrase .statement tokens stmt → StmtPhrase .declaration tokens stmt
  | expr {close : Token} {tokens : List Token} {value : Expr} :
      ExprPhrase .assignment tokens value → close.kind = .semicolon →
      StmtPhrase .statement (tokens ++ [close]) (.expr (some value))
  | forLoop {word opening closing : Token} {inits conditions increments bodies : List Token}
      {init condition increment body : Stmt} :
      word.kind = .forWord → opening.kind = .leftParen → StmtPhrase .declaration inits init →
      StmtPhrase .statement conditions condition → StmtPhrase .statement increments increment →
      closing.kind = .rightParen → StmtPhrase .statement bodies body →
      StmtPhrase .statement
        (word :: opening :: (inits ++ (conditions ++ (increments ++ closing :: bodies))))
        (.forLoop init condition increment body)
  | whileLoop {word opening closing : Token} {conditions bodies : List Token}
      {condition : Expr} {body : Stmt} :
      word.kind = .whileWord → opening.kind = .leftParen →
      ExprPhrase .assignment conditions condition → closing.kind = .rightParen →
      StmtPhrase .statement bodies body →
      StmtPhrase .statement (word :: opening :: (conditions ++ closing :: bodies))
        (.whileLoop (some condition) body)
  | ifThen {word opening closing : Token} {conditions yeses : List Token}
      {condition : Expr} {yes : Stmt} :
      word.kind = .ifWord → opening.kind = .leftParen →
      ExprPhrase .assignment conditions condition → closing.kind = .rightParen →
      StmtPhrase .statement yeses yes →
      StmtPhrase .statement (word :: opening :: (conditions ++ closing :: yeses))
        (.branch (some condition) yes none)
  | ifElse {word opening closing otherwise : Token} {conditions yeses noes : List Token}
      {condition : Expr} {yes no : Stmt} :
      word.kind = .ifWord → opening.kind = .leftParen →
      ExprPhrase .assignment conditions condition → closing.kind = .rightParen →
      StmtPhrase .statement yeses yes → otherwise.kind = .elseWord →
      StmtPhrase .statement noes no →
      StmtPhrase .statement
        (word :: opening :: (conditions ++ closing :: (yeses ++ otherwise :: noes)))
        (.branch (some condition) yes (some no))
  | block {opening closing : Token} {parts : List (List Token × Stmt)} :
      opening.kind = .leftBrace →
      (∀ part ∈ parts, StmtPhrase .declaration part.1 part.2) → closing.kind = .rightBrace →
      StmtPhrase .statement (opening :: (parts.flatMap Prod.fst ++ [closing]))
        (.block (.ofList (parts.map Prod.snd)))

/-- The tokens spell the declarations one after another. -/
def Script (tokens : List Token) (stmts : List Stmt) : Prop :=
  ∃ parts : List (List Token × Stmt),
    (∀ part ∈ parts, StmtPhrase .declaration part.1 part.2) ∧
      tokens = parts.flatMap Prod.fst ∧ stmts = parts.map Prod.snd

namespace Stmt

/-- Whether a statement ends in an `if` without an `else`, so that it could take
the next one. -/
def takesElse : Stmt → Bool
  | branch _ _ none => true
  | branch _ _ (some no) => no.takesElse
  | whileLoop _ body | forLoop _ _ _ body => body.takesElse
  | block _ | expr _ | declare _ _ => false

mutual

/-- Every `else` belongs to the nearest `if` that could take it. -/
def nearestElse : Stmt → Bool
  | block ⟨⟨body⟩, _⟩ => allNearestElse body
  | branch _ yes none => yes.nearestElse
  | branch _ yes (some no) => !yes.takesElse && yes.nearestElse && no.nearestElse
  | whileLoop _ body => body.nearestElse
  | forLoop init condition increment body =>
    init.nearestElse && condition.nearestElse && increment.nearestElse && body.nearestElse
  | expr _ | declare _ _ => true

def allNearestElse : List Stmt → Bool
  | [] => true
  | stmt :: rest => stmt.nearestElse && allNearestElse rest

end

end Stmt

def sameTier (left right : Kind) : Bool :=
  binaryTiers.any fun tier => tier.contains left && tier.contains right

namespace Expr

/-- How often an expression was folded with operators of the tier of `kind`. -/
def folds (kind : Kind) : Expr → Nat
  | binary operator left _ => if sameTier operator.kind kind then left.folds kind + 1 else 0
  | _ => 0

/-- The room an expression takes. In a chain `x₀ op x₁ op x₂ …` the operand
`xᵢ` is read `i` levels deeper. -/
def cost : Expr → Nat
  | binary operator left right => max left.cost (left.folds operator.kind + 1 + right.cost)
  | unary _ right => 1 + right.cost
  | grouping inner => 1 + inner.cost
  | assign _ value => 1 + value.cost
  | literal .. | name _ => 0

end Expr

/-- A whole expression is one level inside what holds it. -/
def wholeCost : Option Expr → Nat
  | some expr => 1 + expr.cost
  | none => 0

namespace Stmt

mutual

/-- The room a statement takes: a level for itself, except for a declaration,
and what the deepest of its parts takes. -/
def cost : Stmt → Nat
  | block ⟨⟨body⟩, _⟩ => 1 + greatestCost body
  | expr value => 1 + wholeCost value
  | branch condition yes none => 1 + max (wholeCost condition) yes.cost
  | branch condition yes (some no) => 1 + max (wholeCost condition) (max yes.cost no.cost)
  | whileLoop condition body => 1 + max (wholeCost condition) body.cost
  | forLoop init condition increment body =>
    1 + max init.cost (max condition.cost (max increment.cost body.cost))
  | declare _ (some (expr value)) => wholeCost value
  | declare _ _ => 0

def greatestCost : List Stmt → Nat
  | [] => 0
  | stmt :: rest => max stmt.cost (greatestCost rest)

end

@[simp] theorem cost_block (body : Slots Stmt) :
    (block body).cost = 1 + greatestCost body.toList := rfl

@[simp] theorem nearestElse_block (body : Slots Stmt) :
    (block body).nearestElse = allNearestElse body.toList := rfl

theorem greatestCost_le_iff {stmts : List Stmt} {room : Nat} :
    greatestCost stmts ≤ room ↔ ∀ stmt ∈ stmts, stmt.cost ≤ room := by
  induction stmts with
  | nil => simp [greatestCost]
  | cons stmt rest ih => rw [greatestCost, Nat.max_le, List.forall_mem_cons, ih]

theorem allNearestElse_iff {stmts : List Stmt} :
    allNearestElse stmts = true ↔ ∀ stmt ∈ stmts, stmt.nearestElse = true := by
  induction stmts with
  | nil => simp [allNearestElse]
  | cons stmt rest ih => simp [allNearestElse, ih]

end Stmt

theorem Slots.toList_foldl_push {α : Type} (items : List α) (slots : Slots α) :
    (items.foldl Slots.push slots).toList = slots.toList ++ items := by
  induction items generalizing slots with
  | nil => simp
  | cons item rest ih =>
    rw [List.foldl_cons, ih, Slots.toList_push, List.append_assoc, List.singleton_append]

theorem Slots.toList_ofList {α : Type} (items : List α) : (Slots.ofList items).toList = items := by
  rw [Slots.ofList, Slots.toList_foldl_push, Slots.toList_empty, List.nil_append]

end ScriptTree
