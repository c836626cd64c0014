import Mathlib.Data.List.Chain
import ScriptTree.Tree.Outline

/-! An outline as a forest. The depth of a row says which row it stands below, so the rows
tell the entries of a forest and their order, and depths go down one step at a time. -/
namespace ScriptTree

/-- A row wherever it stands, and the entries one step below it. -/
inductive Entry where
  | mk (label : String) (line : Option Nat) (below : List Entry)

/-- The rows end here, because the next one is not as deep. -/
def EndsAbove (depth : Nat) (rows : List Row) : Prop :=
  ∀ row ∈ rows.head?, row.depth < depth

theorem endsAbove_nil (depth : Nat) : EndsAbove depth [] := nofun

/-- Rows at a depth and below, the first of them at the depth, and no row more than a step
below the one before it. -/
structure Descends (depth : Nat) (rows : List Row) : Prop where
  first : ∀ row ∈ rows.head?, row.depth = depth
  below : ∀ row ∈ rows, depth ≤ row.depth
  steps : rows.IsChain fun row next => next.depth ≤ row.depth + 1

theorem Descends.nil (depth : Nat) : Descends depth [] :=
  ⟨nofun, nofun, .nil⟩

theorem Descends.cons {depth : Nat} {label : String} {line : Option Nat} {rows : List Row}
    (descends : Descends (depth + 1) rows) : Descends depth (⟨depth, label, line⟩ :: rows) where
  first := by
    rintro _ ⟨⟩
    rfl
  below := List.forall_mem_cons.mpr ⟨Nat.le_refl _, fun row member =>
    Nat.le_of_succ_le (descends.below row member)⟩
  steps := List.isChain_cons.mpr ⟨fun row first => (descends.first row first).le, descends.steps⟩

theorem Descends.append {depth : Nat} {rows others : List Row} (front : Descends depth rows)
    (back : Descends depth others) : Descends depth (rows ++ others) where
  first := by
    cases rows with
    | nil => exact back.first
    | cons => exact front.first
  below := List.forall_mem_append.mpr ⟨front.below, back.below⟩
  steps := by
    refine List.isChain_append.mpr ⟨front.steps, back.steps, fun row last next first => ?_⟩
    have := front.below row (List.mem_of_getLast? last)
    have := back.first next first
    omega

namespace Entry

mutual

def rows (depth : Nat) : Entry → List Row
  | mk label line below => ⟨depth, label, line⟩ :: rowsAll (depth + 1) below

def rowsAll (depth : Nat) : List Entry → List Row
  | [] => []
  | entry :: rest => entry.rows depth ++ rowsAll depth rest

end

theorem rowsAll_append (depth : Nat) (entries others : List Entry) :
    rowsAll depth (entries ++ others) = rowsAll depth entries ++ rowsAll depth others := by
  induction entries with
  | nil => rfl
  | cons entry rest ih => rw [List.cons_append, rowsAll, rowsAll, ih, List.append_assoc]

mutual

theorem descends_rows (depth : Nat) : ∀ entry : Entry, Descends depth (entry.rows depth)
  | mk _ _ below => (descends_rowsAll (depth + 1) below).cons

theorem descends_rowsAll (depth : Nat) : ∀ entries, Descends depth (rowsAll depth entries)
  | [] => .nil depth
  | entry :: rest => (descends_rows depth entry).append (descends_rowsAll depth rest)

end

theorem countP_rowsAll (depth : Nat) (entries : List Entry) :
    (rowsAll depth entries).countP (fun row => row.depth = depth) = entries.length := by
  induction entries with
  | nil => rfl
  | cons entry rest ih =>
    obtain ⟨label, line, below⟩ := entry
    have deeper : (rowsAll (depth + 1) below).countP (fun row => row.depth = depth) = 0 := by
      refine List.countP_eq_zero.mpr fun row member => ?_
      have := (descends_rowsAll (depth + 1) below).below row member
      simp only [decide_eq_true_eq]
      omega
    simp [rowsAll, rows, deeper, ih]

theorem endsAbove_rowsAll_append {depth : Nat} {rest : List Row} (ends : EndsAbove depth rest)
    (entries : List Entry) : EndsAbove (depth + 1) (rowsAll depth entries ++ rest) := by
  cases entries with
  | nil => exact fun row first => Nat.lt_succ_of_lt (ends row first)
  | cons entry rest =>
    obtain ⟨label, line, below⟩ := entry
    rintro _ ⟨⟩
    exact Nat.lt_succ_self depth

mutual

theorem rows_append_inj {depth : Nat} : ∀ {entry entry' : Entry} {rest rest' : List Row},
    EndsAbove (depth + 1) rest → EndsAbove (depth + 1) rest' →
    entry.rows depth ++ rest = entry'.rows depth ++ rest' → entry = entry' ∧ rest = rest'
  | mk label line below, mk label' line' below', rest, rest', ends, ends', same => by
    simp only [rows, List.cons_append, List.cons.injEq, Row.mk.injEq, true_and] at same
    obtain ⟨⟨rfl, rfl⟩, behind⟩ := same
    obtain ⟨rfl, tails⟩ := rowsAll_append_inj ends ends' behind
    exact ⟨rfl, tails⟩

theorem rowsAll_append_inj {depth : Nat} : ∀ {entries entries' : List Entry}
    {rest rest' : List Row}, EndsAbove depth rest → EndsAbove depth rest' →
    rowsAll depth entries ++ rest = rowsAll depth entries' ++ rest' →
    entries = entries' ∧ rest = rest'
  | [], [], _, _, _, _, same => ⟨rfl, same⟩
  | [], mk _ _ _ :: _, rest, rest', ends, _, same => by
    rw [rowsAll, List.nil_append] at same
    subst same
    exact absurd (ends _ rfl) (Nat.lt_irrefl depth)
  | mk _ _ _ :: _, [], rest, rest', _, ends', same => by
    rw [rowsAll, rowsAll, List.nil_append] at same
    subst same
    exact absurd (ends' _ rfl) (Nat.lt_irrefl depth)
  | entry :: entries, entry' :: entries', rest, rest', ends, ends', same => by
    rw [rowsAll, rowsAll, List.append_assoc, List.append_assoc] at same
    obtain ⟨rfl, behind⟩ := rows_append_inj (endsAbove_rowsAll_append ends entries)
      (endsAbove_rowsAll_append ends' entries') same
    obtain ⟨rfl, tails⟩ := rowsAll_append_inj ends ends' behind
    exact ⟨rfl, tails⟩

end

theorem rowsAll_inj {depth : Nat} {entries entries' : List Entry}
    (same : rowsAll depth entries = rowsAll depth entries') : entries = entries' := by
  have alike : rowsAll depth entries ++ [] = rowsAll depth entries' ++ [] := by rw [same]
  exact (rowsAll_append_inj (endsAbove_nil depth) (endsAbove_nil depth) alike).1

end Entry

def Expr.entry : Expr → Entry
  | binary operator left right =>
    .mk ("Binary " ++ operator.lexeme) (some operator.line) [left.entry, right.entry]
  | unary operator right => .mk ("Unary " ++ operator.lexeme) (some operator.line) [right.entry]
  | literal kind text => .mk ("Literal " ++ kind.name ++ " " ++ text) none []
  | name token => .mk ("Variable " ++ token.lexeme) (some token.line) []
  | grouping inner => .mk "Grouping" inner.line? [inner.entry]
  | assign target value => .mk ("Assign " ++ target.lexeme) (some target.line) [value.entry]

def wholeEntry : Option Expr → Entry
  | some expr => expr.entry
  | none => .mk missingText none []

namespace Stmt

mutual

/-- The entries of a statement: one, and behind it another one for an else. -/
def entries : Stmt → List Entry
  | block ⟨⟨body⟩, _⟩ => [.mk ("Block [" ++ toString body.length ++ "]") none (entriesAll body)]
  | expr value => [.mk "Expr" (value.bind Expr.line?) [wholeEntry value]]
  | branch condition yes none =>
    [.mk "If" (condition.bind Expr.line?) (wholeEntry condition :: yes.entries)]
  | branch condition yes (some no) =>
    [.mk "If" (condition.bind Expr.line?) (wholeEntry condition :: yes.entries),
      .mk "Else" none no.entries]
  | whileLoop condition body =>
    [.mk "While" (condition.bind Expr.line?) (wholeEntry condition :: body.entries)]
  | forLoop init condition increment body =>
    [.mk "For" none
      (init.entries ++ (condition.entries ++ (increment.entries ++ body.entries)))]
  | declare name none => [.mk ("Var " ++ nameText name) (name.map Token.line) []]
  | declare name (some init) => [.mk ("Var " ++ nameText name) (name.map Token.line) init.entries]

def entriesAll : List Stmt → List Entry
  | [] => []
  | stmt :: rest => stmt.entries ++ entriesAll rest

end

@[simp] theorem entries_block (body : Slots Stmt) : (block body).entries =
    [.mk ("Block [" ++ toString body.toList.length ++ "]") none (entriesAll body.toList)] := rfl

end Stmt

open Entry

theorem Expr.rows_entry (depth : Nat) (expr : Expr) :
    expr.entry.rows depth = expr.outline depth := by
  induction expr generalizing depth with
  | binary operator left right ihLeft ihRight =>
    simp [entry, outline, rows, rowsAll, ihLeft, ihRight]
  | unary operator inner ih | grouping inner ih | assign target inner ih =>
    simp [entry, outline, rows, rowsAll, ih]
  | literal | name => rfl

theorem rows_wholeEntry (depth : Nat) (value : Option Expr) :
    (wholeEntry value).rows depth = outlineExpr depth value := by
  cases value with
  | none => rfl
  | some expr => exact expr.rows_entry depth

namespace Stmt

mutual

theorem rowsAll_entries (depth : Nat) : ∀ stmt : Stmt,
    rowsAll depth stmt.entries = stmt.outline depth
  | block ⟨⟨body⟩, _⟩ => by
    simp [entries, outline, rows, rowsAll, rowsAll_entriesAll (depth + 1) body]
  | expr _ => by simp [entries, outline, rows, rowsAll, rows_wholeEntry]
  | branch _ yes none => by
    simp [entries, outline, rows, rowsAll, rows_wholeEntry, rowsAll_entries (depth + 1) yes]
  | branch _ yes (some no) => by
    simp [entries, outline, rows, rowsAll, rows_wholeEntry, rowsAll_entries (depth + 1) yes,
      rowsAll_entries (depth + 1) no]
  | whileLoop _ body => by
    simp [entries, outline, rows, rowsAll, rows_wholeEntry, rowsAll_entries (depth + 1) body]
  | forLoop init condition increment body => by
    simp [entries, outline, rows, rowsAll, rowsAll_append, rowsAll_entries (depth + 1) init,
      rowsAll_entries (depth + 1) condition, rowsAll_entries (depth + 1) increment,
      rowsAll_entries (depth + 1) body]
  | declare _ none => rfl
  | declare _ (some init) => by
    simp [entries, outline, rows, rowsAll, rowsAll_entries (depth + 1) init]

theorem rowsAll_entriesAll (depth : Nat) : ∀ stmts : List Stmt,
    rowsAll depth (entriesAll stmts) = outlineAll depth stmts
  | [] => rfl
  | stmt :: rest => by
    rw [entriesAll, outlineAll, rowsAll_append, rowsAll_entries depth stmt,
      rowsAll_entriesAll depth rest]

end

end Stmt

theorem outline_eq_rowsAll (stmts : List Stmt) :
    outline stmts = rowsAll 0 (Stmt.entriesAll stmts) :=
  (Stmt.rowsAll_entriesAll 0 stmts).symm

inductive Heading where
  | missing | grouping | block | expr | branch | otherwise | whileLoop | forLoop
  | binary (lexeme : String) | unary (lexeme : String) | name (lexeme : String)
  | assign (lexeme : String) | literal (sort : String) | declare (name : String)
deriving DecidableEq

namespace Heading

/-- The words that labels begin with, and what they make of the rest. -/
def words : List (String × (String → Heading)) :=
  [("Binary", binary), ("Unary", unary), ("Literal", literal), ("Variable", name),
   ("Grouping", fun _ => grouping), ("Assign", assign), (missingText, fun _ => missing),
   ("Block", fun _ => block), ("Expr", fun _ => expr), ("If", fun _ => branch),
   ("Else", fun _ => otherwise), ("While", fun _ => whileLoop), ("For", fun _ => forLoop),
   ("Var", declare)]

def firstWord (text : String) : String × String :=
  (.ofList (text.toList.takeWhile (· != ' ')), .ofList (text.toList.dropWhile (· != ' ')).tail)

theorem firstWord_append {text word rest : String} (unbroken : ' ' ∉ word.toList)
    (spelled : text.toList = word.toList ++ ' ' :: rest.toList) : firstWord text = (word, rest) := by
  have solid : ∀ c ∈ word.toList, (c != ' ') = true := fun c member => by
    simpa using ne_of_mem_of_not_mem member unbroken
  rw [firstWord, spelled, List.takeWhile_append_of_pos solid, List.dropWhile_append_of_pos solid]
  simp

def ofLabel (label : String) : Heading :=
  let (word, rest) := firstWord label
  (words.lookup word).getD (fun _ => missing) rest

theorem ofLabel_append (word rest : String) {label : String} {heading : String → Heading}
    (listed : words.lookup word = some heading) (unbroken : ' ' ∉ word.toList)
    (spelled : label.toList = word.toList ++ ' ' :: rest.toList) : ofLabel label = heading rest := by
  rw [ofLabel, firstWord_append unbroken spelled]
  simp only [listed, Option.getD_some]

@[simp] theorem ofLabel_binary (lexeme : String) : ofLabel ("Binary " ++ lexeme) = binary lexeme :=
  ofLabel_append "Binary" lexeme rfl (by decide) (by simp)

@[simp] theorem ofLabel_unary (lexeme : String) : ofLabel ("Unary " ++ lexeme) = unary lexeme :=
  ofLabel_append "Unary" lexeme rfl (by decide) (by simp)

@[simp] theorem ofLabel_name (lexeme : String) : ofLabel ("Variable " ++ lexeme) = name lexeme :=
  ofLabel_append "Variable" lexeme rfl (by decide) (by simp)

@[simp] theorem ofLabel_assign (lexeme : String) : ofLabel ("Assign " ++ lexeme) = assign lexeme :=
  ofLabel_append "Assign" lexeme rfl (by decide) (by simp)

@[simp] theorem ofLabel_literal (kind : Literal) (text : String) :
    ofLabel ("Literal " ++ kind.name ++ " " ++ text) = literal (kind.name ++ " " ++ text) :=
  ofLabel_append "Literal" (kind.name ++ " " ++ text) rfl (by decide) (by simp)

@[simp] theorem ofLabel_declare (name : String) : ofLabel ("Var " ++ name) = declare name :=
  ofLabel_append "Var" name rfl (by decide) (by simp)

@[simp] theorem ofLabel_block (count : Nat) :
    ofLabel ("Block [" ++ count.repr ++ "]") = block :=
  ofLabel_append "Block" ("[" ++ count.repr ++ "]") rfl (by decide) (by simp)

end Heading

end ScriptTree
