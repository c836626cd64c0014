import ScriptTree.Proofs.Grammar
import ScriptTree.Proofs.Seam

/-! Trees over other tokens. As long as the tokens are changed one by one and keep their kinds,
a tree costs what it did and its `else`s belong where they did; if they keep their lexemes too,
the changed tokens spell the changed tree. So it is with a text further down, whose tokens
differ only in their lines. -/
namespace ScriptTree

namespace Slots

variable {α β : Type}

def map (f : α → β) : Slots α → Slots β
  | ⟨items, capacity⟩ => ⟨items.map f, capacity⟩

theorem map_empty (f : α → β) : (empty : Slots α).map f = empty := by
  simp only [map, empty, List.map_toArray, List.map_nil]

theorem map_id (slots : Slots α) : slots.map id = slots := by
  rw [map, Array.map_id]

@[simp] theorem toList_map (f : α → β) (slots : Slots α) :
    (slots.map f).toList = slots.toList.map f :=
  Array.toList_map

theorem map_push (f : α → β) (slots : Slots α) (item : α) :
    (slots.push item).map f = (slots.map f).push (f item) := by
  obtain ⟨items, capacity⟩ := slots
  simp only [map, push, Array.map_push, Array.size_map]

theorem map_ofList (f : α → β) (items : List α) :
    (ofList items).map f = ofList (items.map f) := by
  have further (slots : Slots α) :
      (items.foldl push slots).map f = (items.map f).foldl push (slots.map f) := by
    induction items generalizing slots with
    | nil => rfl
    | cons item rest ih => rw [List.foldl_cons, ih, map_push, List.map_cons, List.foldl_cons]
  rw [ofList, further, map_empty, ofList]

end Slots

/-- The expression with other tokens in the place of its own. -/
def Expr.map (change : Token → Token) : Expr → Expr
  | binary operator left right => binary (change operator) (left.map change) (right.map change)
  | unary operator right => unary (change operator) (right.map change)
  | literal kind text => literal kind text
  | name token => name (change token)
  | grouping inner => grouping (inner.map change)
  | assign target value => assign (change target) (value.map change)

theorem Expr.map_id : Expr.map id = id := by
  funext expr
  induction expr with
  | binary operator left right ihLeft ihRight => rw [map, ihLeft, ihRight]; rfl
  | unary operator right ih | grouping right ih | assign operator right ih => rw [map, ih]; rfl
  | literal | name => rfl

namespace Stmt

mutual

def map (change : Token → Token) : Stmt → Stmt
  | block ⟨⟨body⟩, capacity⟩ => block ⟨⟨mapAll change body⟩, capacity⟩
  | expr value => expr (value.map (Expr.map change))
  | branch condition yes none => branch (condition.map (Expr.map change)) (yes.map change) none
  | branch condition yes (some no) =>
    branch (condition.map (Expr.map change)) (yes.map change) (some (no.map change))
  | whileLoop condition body => whileLoop (condition.map (Expr.map change)) (body.map change)
  | forLoop init condition increment body =>
    forLoop (init.map change) (condition.map change) (increment.map change) (body.map change)
  | declare name none => declare (name.map change) none
  | declare name (some init) => declare (name.map change) (some (init.map change))

def mapAll (change : Token → Token) : List Stmt → List Stmt
  | [] => []
  | stmt :: rest => stmt.map change :: mapAll change rest

end

theorem mapAll_eq (change : Token → Token) (stmts : List Stmt) :
    mapAll change stmts = stmts.map (map change) := by
  induction stmts with
  | nil => rfl
  | cons stmt rest ih => rw [mapAll, ih, List.map_cons]

mutual

theorem map_id_apply : ∀ stmt : Stmt, stmt.map id = stmt
  | block ⟨⟨body⟩, capacity⟩ => by rw [map, mapAll_id body]
  | expr value => by rw [map, Expr.map_id, Option.map_id, id]
  | branch condition yes none => by rw [map, Expr.map_id, Option.map_id, id, map_id_apply yes]
  | branch condition yes (some no) => by
    rw [map, Expr.map_id, Option.map_id, id, map_id_apply yes, map_id_apply no]
  | whileLoop condition body => by rw [map, Expr.map_id, Option.map_id, id, map_id_apply body]
  | forLoop init condition increment body => by
    rw [map, map_id_apply init, map_id_apply condition, map_id_apply increment, map_id_apply body]
  | declare name none => by rw [map, Option.map_id, id]
  | declare name (some init) => by rw [map, Option.map_id, id, map_id_apply init]

theorem mapAll_id : ∀ stmts, mapAll id stmts = stmts
  | [] => rfl
  | stmt :: rest => by rw [mapAll, map_id_apply stmt, mapAll_id rest]

end

theorem map_id : Stmt.map id = id :=
  funext map_id_apply

theorem map_block (change : Token → Token) (body : Slots Stmt) :
    (block body).map change = block (body.map (map change)) := by
  obtain ⟨⟨body⟩, capacity⟩ := body
  simp only [map, mapAll_eq, Slots.map, List.map_toArray]

theorem takesElse_map (change : Token → Token) :
    ∀ stmt : Stmt, (stmt.map change).takesElse = stmt.takesElse
  | block ⟨⟨_⟩, _⟩ => rfl
  | expr _ => rfl
  | branch _ _ none => rfl
  | branch _ _ (some no) => takesElse_map change no
  | whileLoop _ body => takesElse_map change body
  | forLoop _ _ _ body => takesElse_map change body
  | declare _ none => rfl
  | declare _ (some _) => rfl

mutual

theorem nearestElse_map (change : Token → Token) :
    ∀ stmt : Stmt, (stmt.map change).nearestElse = stmt.nearestElse
  | block ⟨⟨body⟩, _⟩ => allNearestElse_mapAll change body
  | expr _ => rfl
  | branch _ yes none => nearestElse_map change yes
  | branch _ yes (some no) => by
    simp only [map, nearestElse, takesElse_map, nearestElse_map change yes,
      nearestElse_map change no]
  | whileLoop _ body => nearestElse_map change body
  | forLoop init condition increment body => by
    simp only [map, nearestElse, nearestElse_map change init, nearestElse_map change condition,
      nearestElse_map change increment, nearestElse_map change body]
  | declare _ none => rfl
  | declare _ (some _) => rfl

theorem allNearestElse_mapAll (change : Token → Token) :
    ∀ stmts : List Stmt, allNearestElse (mapAll change stmts) = allNearestElse stmts
  | [] => rfl
  | stmt :: rest => by
    simp only [mapAll, allNearestElse, nearestElse_map change stmt,
      allNearestElse_mapAll change rest]

end

theorem allNearestElse_map (change : Token → Token) (stmts : List Stmt) :
    allNearestElse (stmts.map (map change)) = allNearestElse stmts := by
  rw [← mapAll_eq, allNearestElse_mapAll]

end Stmt

section

variable {change : Token → Token} (kind : ∀ token, (change token).kind = token.kind)
include kind

theorem Expr.folds_map (tier : Kind) (expr : Expr) :
    (expr.map change).folds tier = expr.folds tier := by
  induction expr with
  | binary operator left right ih => simp only [map, folds, kind, ih]
  | _ => rfl

theorem Expr.cost_map (expr : Expr) : (expr.map change).cost = expr.cost := by
  induction expr with
  | binary operator left right ihLeft ihRight =>
    simp only [map, cost, kind, folds_map kind, ihLeft, ihRight]
  | unary operator right ih | grouping right ih | assign operator right ih =>
    simp only [map, cost, ih]
  | literal | name => rfl

theorem wholeCost_map (value : Option Expr) :
    wholeCost (value.map (Expr.map change)) = wholeCost value := by
  cases value with
  | none => rfl
  | some expr => simp only [Option.map_some, wholeCost, Expr.cost_map kind]

end

namespace Stmt

variable {change : Token → Token}

mutual

theorem cost_map (kind : ∀ token, (change token).kind = token.kind) :
    ∀ stmt : Stmt, (stmt.map change).cost = stmt.cost
  | block ⟨⟨body⟩, _⟩ => by simp only [map, cost, greatestCost_mapAll kind body]
  | expr _ => by simp only [map, cost, wholeCost_map kind]
  | branch _ yes none => by simp only [map, cost, wholeCost_map kind, cost_map kind yes]
  | branch _ yes (some no) => by
    simp only [map, cost, wholeCost_map kind, cost_map kind yes, cost_map kind no]
  | whileLoop _ body => by simp only [map, cost, wholeCost_map kind, cost_map kind body]
  | forLoop init condition increment body => by
    simp only [map, cost, cost_map kind init, cost_map kind condition, cost_map kind increment,
      cost_map kind body]
  | declare _ none => rfl
  | declare _ (some init) => by
    cases init with
    | expr value => simp only [map, cost, wholeCost_map kind]
    | branch condition yes no => cases no <;> rfl
    | declare name init => cases init <;> rfl
    | block body | whileLoop | forLoop => rfl

theorem greatestCost_mapAll (kind : ∀ token, (change token).kind = token.kind) :
    ∀ stmts : List Stmt, greatestCost (mapAll change stmts) = greatestCost stmts
  | [] => rfl
  | stmt :: rest => by
    simp only [mapAll, greatestCost, cost_map kind stmt, greatestCost_mapAll kind rest]

end

theorem greatestCost_map (kind : ∀ token, (change token).kind = token.kind) (stmts : List Stmt) :
    greatestCost (stmts.map (map change)) = greatestCost stmts := by
  rw [← mapAll_eq, greatestCost_mapAll kind]

end Stmt

section

variable {change : Token → Token} (kind : ∀ token, (change token).kind = token.kind)
  (lexeme : ∀ token, (change token).lexeme = token.lexeme)
include kind lexeme

theorem ExprPhrase.map {form : ExprForm} {tokens : List Token} {expr : Expr}
    (phrase : ExprPhrase form tokens expr) :
    ExprPhrase form (tokens.map change) (expr.map change) := by
  induction phrase with
  | assign named equal _ ih => exact .assign ((kind _).trans named) ((kind _).trans equal) ih
  | loosest _ ih => exact .loosest ih
  | operand _ ih => exact .operand ih
  | fold _ member _ ihLeft ihRight =>
    rw [List.map_append, List.map_cons]
    exact .fold ihLeft (by rwa [kind]) ihRight
  | tightest _ ih => exact .tightest ih
  | sign signed _ ih => exact .sign (by rwa [kind]) ih
  | unsigned _ ih => exact .unsigned ih
  | falsehood word => exact .falsehood ((kind _).trans word)
  | truth word => exact .truth ((kind _).trans word)
  | null word => exact .null ((kind _).trans word)
  | number digits =>
    rw [Expr.map, ← lexeme]
    exact .number ((kind _).trans digits)
  | string quoted =>
    rw [Expr.map, ← lexeme]
    exact .string ((kind _).trans quoted)
  | name named => exact .name ((kind _).trans named)
  | group opened _ closed ih =>
    rw [List.map_cons, List.map_append]
    exact .group ((kind _).trans opened) ih ((kind _).trans closed)

theorem StmtPhrase.map {form : StmtForm} {tokens : List Token} {stmt : Stmt}
    (phrase : StmtPhrase form tokens stmt) :
    StmtPhrase form (tokens.map change) (stmt.map change) := by
  -- Wherever a token must be of some kind, the changed one is.
  have keeps {token : Token} {known : Kind} (same : token.kind = known) :
      (change token).kind = known := (kind token).trans same
  induction phrase with
  | declare var named closed => exact .declare (keeps var) (keeps named) (keeps closed)
  | declareAs var named equal value closed =>
    simp only [List.map_cons, List.map_append]
    exact .declareAs (keeps var) (keeps named) (keeps equal) (value.map kind lexeme) (keeps closed)
  | plain _ ih => exact .plain ih
  | expr value closed =>
    rw [List.map_append]
    exact .expr (value.map kind lexeme) (keeps closed)
  | forLoop word opened _ _ _ closed _ ihInit ihCondition ihIncrement ihBody =>
    simp only [List.map_cons, List.map_append]
    exact .forLoop (keeps word) (keeps opened) ihInit ihCondition ihIncrement (keeps closed) ihBody
  | whileLoop word opened condition closed _ ih =>
    simp only [List.map_cons, List.map_append]
    exact .whileLoop (keeps word) (keeps opened) (condition.map kind lexeme) (keeps closed) ih
  | ifThen word opened condition closed _ ih =>
    simp only [List.map_cons, List.map_append]
    exact .ifThen (keeps word) (keeps opened) (condition.map kind lexeme) (keeps closed) ih
  | ifElse word opened condition closed _ elseWord _ ihYes ihNo =>
    simp only [List.map_cons, List.map_append]
    exact .ifElse (keeps word) (keeps opened) (condition.map kind lexeme) (keeps closed) ihYes
      (keeps elseWord) ihNo
  | @block opening closing parts opened _ closed ih =>
    let moved := parts.map fun part => (part.1.map change, part.2.map change)
    have tokens : (parts.flatMap Prod.fst).map change = moved.flatMap Prod.fst := by
      rw [List.map_flatMap, List.flatMap_map]
    have stmts : (parts.map Prod.snd).map (Stmt.map change) = moved.map Prod.snd := by
      rw [List.map_map, List.map_map]
      rfl
    rw [List.map_cons, List.map_append, tokens, Stmt.map_block, Slots.map_ofList, stmts]
    refine .block (keeps opened) ?_ (keeps closed)
    intro part member
    obtain ⟨part, original, rfl⟩ := List.mem_map.mp member
    exact ih part original

theorem Script.map {tokens : List Token} {stmts : List Stmt} (script : Script tokens stmts) :
    Script (tokens.map change) (stmts.map (Stmt.map change)) := by
  obtain ⟨parts, phrases, rfl, rfl⟩ := script
  refine ⟨parts.map fun part => (part.1.map change, part.2.map change), ?_, ?_, ?_⟩
  · intro part member
    obtain ⟨part, original, rfl⟩ := List.mem_map.mp member
    exact (phrases part original).map kind lexeme
  · rw [List.map_flatMap, List.flatMap_map]
  · rw [List.map_map, List.map_map]
    rfl

end

@[simp] theorem Token.down_kind (lines : Nat) (token : Token) :
    (token.down lines).kind = token.kind := rfl

theorem Token.down_down (lines more : Nat) (token : Token) :
    (token.down lines).down more = token.down (lines + more) := by
  simp only [down, Nat.add_assoc]

/-- The statement some lines further down. -/
def Stmt.down (lines : Nat) : Stmt → Stmt :=
  map (Token.down lines)

end ScriptTree
