import ScriptTree.Proofs.Cutting
import ScriptTree.Proofs.Layout
import ScriptTree.Proofs.PrefixForm
import ScriptTree.Proofs.Remains
import ScriptTree.Tree.Equality

/-! The printed form is not ambiguous. The text of a statement is a prefix form whose
words are the lexemes of its tokens, and from the form the statement is read back: all of
it but the lines and the sorts of its leaves. -/
namespace ScriptTree

/-- The expression as far as its text shows it: on no line, and with leaves that have no
sort but only a text. -/
def Expr.shown : Expr → Expr
  | binary operator left right => binary operator.unplaced left.shown right.shown
  | unary operator right => unary operator.unplaced right.shown
  | literal _ text => literal .string text
  | name token => literal .string token.lexeme
  | grouping inner => grouping inner.shown
  | assign target value => assign target.unplaced value.shown

def Expr.form : Expr → PrefixForm
  | binary operator left right => .node operator.lexeme [left.form, right.form]
  | unary operator right => .node operator.lexeme [right.form]
  | literal _ text => .leaf text
  | name token => .leaf token.lexeme
  | grouping inner => .node "group" [inner.form]
  | assign target value => .node "=" [.leaf target.lexeme, value.form]

def wholeForm (value : Option Expr) : PrefixForm :=
  (value.map Expr.form).getD (.leaf missingText)

namespace Stmt

mutual

def shown : Stmt → Stmt
  | block ⟨⟨body⟩, capacity⟩ => block ⟨⟨shownAll body⟩, capacity⟩
  | expr value => expr (value.map Expr.shown)
  | branch condition yes none => branch (condition.map Expr.shown) yes.shown none
  | branch condition yes (some no) =>
    branch (condition.map Expr.shown) yes.shown (some no.shown)
  | whileLoop condition body => whileLoop (condition.map Expr.shown) body.shown
  | forLoop init condition increment body =>
    forLoop init.shown condition.shown increment.shown body.shown
  | declare name none => declare (name.map Token.unplaced) none
  | declare name (some init) => declare (name.map Token.unplaced) (some init.shown)

def shownAll : List Stmt → List Stmt
  | [] => []
  | stmt :: rest => stmt.shown :: shownAll rest

end

mutual

def form : Stmt → PrefixForm
  | block ⟨⟨body⟩, _⟩ => .node "block" (formAll body)
  | expr value => .node "expr" [wholeForm value]
  | branch condition yes none => .node "if" [wholeForm condition, yes.form]
  | branch condition yes (some no) => .node "if" [wholeForm condition, yes.form, no.form]
  | whileLoop condition body => .node "while" [wholeForm condition, body.form]
  | forLoop init condition increment body =>
    .node "for" [init.form, condition.form, increment.form, body.form]
  | declare name none => .node "var" [.leaf (nameText name)]
  | declare name (some init) =>
    let value := match init with
      | expr value => wholeForm value
      | _ => init.form
    .node "var" [.leaf (nameText name), value]

def formAll : List Stmt → List PrefixForm
  | [] => []
  | stmt :: rest => stmt.form :: formAll rest

end

mutual

def parts : Stmt → List Stmt
  | block ⟨⟨body⟩, capacity⟩ => block ⟨⟨body⟩, capacity⟩ :: partsAll body
  | expr value => [expr value]
  | branch condition yes none => branch condition yes none :: yes.parts
  | branch condition yes (some no) =>
    branch condition yes (some no) :: (yes.parts ++ no.parts)
  | whileLoop condition body => whileLoop condition body :: body.parts
  | forLoop init condition increment body =>
    forLoop init condition increment body ::
      (init.parts ++ (condition.parts ++ (increment.parts ++ body.parts)))
  | declare name none => [declare name none]
  | declare name (some init) => declare name (some init) :: init.parts

def partsAll : List Stmt → List Stmt
  | [] => []
  | stmt :: rest => stmt.parts ++ partsAll rest

end

end Stmt

namespace PrefixForm

def operator (head : String) : Token :=
  ⟨(symbols.lookup head).getD .error, head, 0⟩

/-- The expression that a form is printed from. -/
def expr : PrefixForm → Expr
  | leaf word => .literal .string word
  | node "group" [inner] => .grouping inner.expr
  | node "=" [leaf target, value] => .assign ⟨.identifier, target, 0⟩ value.expr
  -- A sign and an operator of the same lexeme differ in the number of their parts.
  | node head [right] => .unary (operator head) right.expr
  | node head [left, right] => .binary (operator head) left.expr right.expr
  | node head _ => .literal .string head

def whole (form : PrefixForm) : Option Expr :=
  match form with
  | leaf word => if word = missingText then none else some form.expr
  | _ => some form.expr

def name : PrefixForm → Option Token
  | leaf word => if word = missingText then none else some ⟨.identifier, word, 0⟩
  | _ => none

mutual

def stmt : PrefixForm → Stmt
  | node "block" body => .block (.ofList (stmtAll body))
  | node "expr" [value] => .expr value.whole
  | node "if" [condition, yes] => .branch condition.whole yes.stmt none
  | node "if" [condition, yes, no] => .branch condition.whole yes.stmt (some no.stmt)
  | node "while" [condition, body] => .whileLoop condition.whole body.stmt
  | node "for" [init, condition, increment, body] =>
    .forLoop init.stmt condition.stmt increment.stmt body.stmt
  | node "var" [name] => .declare name.name none
  -- No reader gives a variable anything but an expression, whose own head is not printed.
  | node "var" [name, value] => .declare name.name (some (.expr value.whole))
  | _ => .missing

def stmtAll : List PrefixForm → List Stmt
  | [] => []
  | form :: rest => form.stmt :: stmtAll rest

end

end PrefixForm

theorem Expr.chars_form (expr : Expr) : expr.form.chars = expr.text.toList := by
  induction expr with
  | binary operator left right ihLeft ihRight => simp [form, text, ihLeft, ihRight]
  | unary operator right ih => simp [form, text, ih]
  | literal | name => rfl
  | grouping inner ih => simp [form, text, ih]
  | assign target value ih => simp [form, text, ih]

theorem chars_wholeForm (value : Option Expr) :
    (wholeForm value).chars = (exprText value).toList := by
  cases value with
  | none => rfl
  | some expr => exact expr.chars_form

namespace Stmt

def initialForm : Stmt → PrefixForm
  | expr value => wholeForm value
  | init => init.form

def initialText : Stmt → String
  | expr value => exprText value
  | init => init.text

theorem form_declare (name : Option Token) (init : Stmt) :
    (declare name (some init)).form = .node "var" [.leaf (nameText name), init.initialForm] := by
  cases init <;> rfl

theorem text_declare (name : Option Token) (init : Stmt) :
    (declare name (some init)).text =
      "(var " ++ nameText name ++ " " ++ init.initialText ++ ")" := by
  cases init <;> rfl

theorem chars_initialForm {init : Stmt} (inner : init.form.chars = init.text.toList) :
    init.initialForm.chars = init.initialText.toList := by
  cases init with
  | expr value => exact chars_wholeForm value
  | _ => exact inner

mutual

theorem chars_form : ∀ stmt : Stmt, stmt.form.chars = stmt.text.toList
  | block ⟨⟨body⟩, _⟩ => by simp [form, text, chars_formAll body]
  | expr _ => by simp [form, text, chars_wholeForm]
  | branch _ yes none => by simp [form, text, chars_wholeForm, chars_form yes]
  | branch _ yes (some no) => by
    simp [form, text, chars_wholeForm, chars_form yes, chars_form no]
  | whileLoop _ body => by simp [form, text, chars_wholeForm, chars_form body]
  | forLoop init condition increment body => by
    simp [form, text, chars_form init, chars_form condition, chars_form increment,
      chars_form body]
  | declare _ none => by simp [form, text]
  | declare _ (some init) => by
    simp [form_declare, text_declare, chars_initialForm (chars_form init)]

theorem chars_formAll : ∀ stmts : List Stmt,
    PrefixForm.charsAll (formAll stmts) = (textAll stmts).toList
  | [] => rfl
  | stmt :: rest => by simp [formAll, textAll, chars_form stmt, chars_formAll rest]

end

end Stmt

theorem Expr.form_shown (expr : Expr) : expr.shown.form = expr.form := by
  induction expr with
  | binary operator left right ihLeft ihRight =>
    simp only [shown, form, ihLeft, ihRight, Token.unplaced]
  | unary operator right ih => simp only [shown, form, ih, Token.unplaced]
  | literal | name => rfl
  | grouping inner ih => simp only [shown, form, ih]
  | assign target value ih => simp only [shown, form, ih, Token.unplaced]

theorem wholeForm_shown (value : Option Expr) :
    wholeForm (value.map Expr.shown) = wholeForm value := by
  cases value with
  | none => rfl
  | some expr => exact expr.form_shown

namespace Stmt

theorem nameText_unplaced (name : Option Token) :
    nameText (name.map Token.unplaced) = nameText name :=
  @nameText_map Token.unplaced (fun _ => rfl) name

theorem initialForm_shown {init : Stmt} (inner : init.shown.form = init.form) :
    init.shown.initialForm = init.initialForm := by
  cases init with
  | expr value => exact wholeForm_shown value
  | branch condition yes no => cases no <;> exact inner
  | declare name init => cases init <;> exact inner
  | _ => exact inner

mutual

theorem form_shown : ∀ stmt : Stmt, stmt.shown.form = stmt.form
  | block ⟨⟨body⟩, _⟩ => by simp only [shown, form, formAll_shown body]
  | expr value => by simp only [shown, form, wholeForm_shown]
  | branch _ yes none => by simp only [shown, form, wholeForm_shown, form_shown yes]
  | branch _ yes (some no) => by
    simp only [shown, form, wholeForm_shown, form_shown yes, form_shown no]
  | whileLoop _ body => by simp only [shown, form, wholeForm_shown, form_shown body]
  | forLoop init condition increment body => by
    simp only [shown, form, form_shown init, form_shown condition, form_shown increment,
      form_shown body]
  | declare _ none => by simp only [shown, form, nameText_unplaced]
  | declare name (some init) => by
    simp only [shown, form_declare, nameText_unplaced, initialForm_shown (form_shown init)]

theorem formAll_shown : ∀ stmts : List Stmt, formAll (shownAll stmts) = formAll stmts
  | [] => rfl
  | stmt :: rest => by simp only [shownAll, formAll, form_shown stmt, formAll_shown rest]

end

theorem shownAll_eq (stmts : List Stmt) : shownAll stmts = stmts.map shown := by
  induction stmts with
  | nil => rfl
  | cons stmt rest ih => rw [shownAll, ih, List.map_cons]

theorem formAll_eq (stmts : List Stmt) : formAll stmts = stmts.map form := by
  induction stmts with
  | nil => rfl
  | cons stmt rest ih => rw [formAll, ih, List.map_cons]

theorem shown_block (body : Slots Stmt) : (block body).shown = block (body.map shown) := by
  obtain ⟨⟨body⟩, capacity⟩ := body
  simp only [shown, shownAll_eq, Slots.map, List.map_toArray]

theorem form_block (body : Slots Stmt) :
    (block body).form = .node "block" (body.toList.map form) := by
  rw [← formAll_eq]
  rfl

theorem mem_partsAll {stmts : List Stmt} {part : Stmt} :
    part ∈ partsAll stmts ↔ ∃ stmt ∈ stmts, part ∈ stmt.parts := by
  induction stmts with
  | nil => simp [partsAll]
  | cons stmt rest ih => simp [partsAll, ih]

end Stmt

theorem PrefixForm.stmtAll_eq (forms : List PrefixForm) : stmtAll forms = forms.map stmt := by
  induction forms with
  | nil => rfl
  | cons form rest ih => rw [stmtAll, ih, List.map_cons]

theorem isPlain_of_class {p : Char → Bool} (others : [' ', '(', ')', '"'].any p = false)
    {text : List Char} (all : ∀ c ∈ text, p c = true) : ∀ c ∈ text, isPlain c = true := by
  intro c member
  rw [List.any_eq_false] at others
  have inside := all c member
  simp only [isPlain, Bool.and_eq_true, bne_iff_ne]
  refine ⟨⟨⟨?_, ?_⟩, ?_⟩, ?_⟩ <;> rintro rfl <;> exact others _ (by decide) inside

theorem Word.of_all {text : List Char} (plain : text ≠ [] ∧ text.all isPlain = true) :
    Word text := by
  obtain ⟨c, cs, rfl⟩ := List.exists_cons_of_ne_nil plain.1
  exact .bare (List.all_eq_true.mp plain.2)

theorem Lexeme.isWord {kind : Kind} {text : List Char} (spells : Lexeme kind text)
    (opens : kind ≠ .leftParen) (closes : kind ≠ .rightParen) : Word text := by
  cases spells with
  | symbol listed =>
    have all : ∀ entry ∈ symbols, entry.2 ≠ .leftParen → entry.2 ≠ .rightParen →
        entry.1.toList ≠ [] ∧ entry.1.toList.all isPlain = true := by decide
    exact .of_all (all _ listed opens closes)
  | keyword listed =>
    have all : ∀ entry ∈ keywords, entry.1.toList ≠ [] ∧ entry.1.toList.all isPlain = true := by
      decide
    exact .of_all (all _ listed)
  | name start parts =>
    have first := isPlain_of_class (by decide) (List.forall_mem_singleton.mpr start)
    have behind := isPlain_of_class (by decide) parts
    exact .bare (List.forall_mem_append.mpr ⟨first, behind⟩)
  | whole digits => exact .bare (isPlain_of_class (by decide) digits)
  | fraction digits decimals =>
    have before := isPlain_of_class (by decide) digits
    have behind := isPlain_of_class (by decide) decimals
    exact .bare (List.forall_mem_append.mpr
      ⟨before, List.forall_mem_cons.mpr ⟨by decide, behind⟩⟩)
  | string unquoted => exact .quoted unquoted

/-- What marks a missing place is no lexeme: a bite of it takes one character. -/
theorem Lexeme.ne_missingText {kind : Kind} {text : List Char} (spells : Lexeme kind text) :
    text ≠ missingText.toList := by
  rintro rfl
  obtain ⟨found, more, -, taken, -⟩ := @Lexeme.takes kind '<' "missing>".toList spells []
  have short : (bite '<' ("missing>".toList ++ [])).text.length = 1 := by decide
  rw [taken] at short
  simp at short

def operatorKinds : List Kind :=
  .bang :: binaryTiers.flatten

/-- A token that is no fault is spelled as its kind asks. -/
def Token.Spelled (token : Token) : Prop :=
  token.kind ≠ .error → token.kind ≠ .endOfInput → Lexeme token.kind token.lexeme.toList

theorem spelled_body (source : String) : ∀ token ∈ (tokenize source).body, token.Spelled := by
  obtain ⟨parts, -, cut⟩ := exists_cut_tokenize source
  exact fun token member => cut.lexeme token (List.mem_append_left _ member)

theorem Lexeme.lookup {kind : Kind} {text : List Char} (spells : Lexeme kind text)
    (listed : kind ∈ operatorKinds) : symbols.lookup (String.ofList text) = some kind := by
  cases spells with
  | symbol found =>
    have all : ∀ entry ∈ symbols, symbols.lookup entry.1 = some entry.2 := by decide
    rw [String.ofList_toList]
    exact all _ found
  | keyword found =>
    have none : ∀ entry ∈ keywords, entry.2 ∉ operatorKinds := by decide
    exact absurd listed (none _ found)
  | _ => exact absurd listed (by decide)

theorem operator_lexeme {token : Token} (spells : Lexeme token.kind token.lexeme.toList)
    (listed : token.kind ∈ operatorKinds) :
    PrefixForm.operator token.lexeme = token.unplaced ∧ Word token.lexeme.toList ∧
      token.lexeme ≠ "group" ∧ token.lexeme ≠ "=" := by
  have others : ∀ kind ∈ operatorKinds, kind ≠ .leftParen ∧ kind ≠ .rightParen ∧
      kind ≠ .equal := by decide
  obtain ⟨opens, closes, equal⟩ := others _ listed
  have found := spells.lookup listed
  rw [String.ofList_toList] at found
  refine ⟨?_, spells.isWord opens closes, ?_, ?_⟩
  · rw [PrefixForm.operator, found]
    rfl
  · intro same
    have none : symbols.lookup "group" = none := by decide
    rw [same, none] at found
    cases found
  · intro same
    have sets : symbols.lookup "=" = some .equal := by decide
    rw [same, sets] at found
    exact equal (Option.some.inj found).symm

theorem mem_operatorKinds_of_tier {operators : List Kind} {kind : Kind}
    (listed : operators ∈ binaryTiers) (member : kind ∈ operators) : kind ∈ operatorKinds :=
  List.mem_cons_of_mem _ (List.mem_flatten.mpr ⟨operators, listed, member⟩)

theorem mem_operatorKinds_of_sign {kind : Kind} (sign : kind = .bang ∨ kind = .minus) :
    kind ∈ operatorKinds := by
  rcases sign with rfl | rfl <;> decide

theorem Token.Spelled.operator {token : Token} (spelled : token.Spelled)
    (listed : token.kind ∈ operatorKinds) :
    PrefixForm.operator token.lexeme = token.unplaced ∧ Word token.lexeme.toList ∧
      token.lexeme ≠ "group" ∧ token.lexeme ≠ "=" := by
  have regular : ∀ kind ∈ operatorKinds, kind ≠ .error ∧ kind ≠ .endOfInput := by decide
  obtain ⟨faultless, ongoing⟩ := regular _ listed
  exact operator_lexeme (spelled faultless ongoing) listed

/-- The form of the expression is made of words, and the expression is read back from it. -/
structure Expr.ReadsBack (expr : Expr) : Prop where
  ofWords : expr.form.OfWords
  present : expr.form ≠ .leaf missingText
  back : expr.form.expr = expr.shown

theorem Expr.readsBack_leaf {token : Token} {expr : Expr} (spelled : token.Spelled)
    (picked : Read.leaf? token = some expr) : expr.ReadsBack := by
  have same : ∃ text, expr.form = .leaf text ∧ expr.shown = .literal .string text ∧
      Word text.toList ∧ text ≠ missingText := by
    unfold Read.leaf? at picked
    split at picked <;> cases picked
    · exact ⟨_, rfl, rfl, .of_all (by decide), by decide⟩
    · exact ⟨_, rfl, rfl, .of_all (by decide), by decide⟩
    · exact ⟨_, rfl, rfl, .of_all (by decide), by decide⟩
    all_goals
      next kind =>
        rw [Token.Spelled, kind] at spelled
        have spells := spelled (by decide) (by decide)
        exact ⟨_, rfl, rfl, spells.isWord (by decide) (by decide),
          fun same => spells.ne_missingText (by rw [same])⟩
  obtain ⟨text, form, shown, word, present⟩ := same
  constructor
  · rw [form]
    exact .leaf word
  · rw [form]
    exact fun missing => present (PrefixForm.leaf.inj missing)
  · rw [form, shown, PrefixForm.expr]

theorem ExprRemains.name_kind {tokens : List Token} {name : Token}
    (remains : ExprRemains tokens (.name name)) : name.kind = .identifier := by
  generalize whole : Expr.name name = expr at remains
  induction remains with
  | among _ _ ih => exact ih whole
  | leaf picked =>
    subst whole
    unfold Read.leaf? at picked
    split at picked <;> cases picked
    assumption
  | _ => cases whole

theorem ExprRemains.readsBack {tokens : List Token} {expr : Expr}
    (remains : ExprRemains tokens expr) (spelled : ∀ token ∈ tokens, token.Spelled) :
    expr.ReadsBack := by
  induction remains with
  | among _ sub ih => exact ih fun token member => spelled token (sub.subset member)
  | leaf picked => exact Expr.readsBack_leaf (spelled _ List.mem_cons_self) picked
  | @binary operator operators before after left right _ listed member _ ihLeft ihRight =>
    simp only [List.forall_mem_append, List.forall_mem_cons] at spelled
    obtain ⟨before, spells, after⟩ := spelled
    obtain ⟨same, word, -, equal⟩ := spells.operator (mem_operatorKinds_of_tier listed member)
    have left := ihLeft before
    have right := ihRight after
    refine ⟨.node word (by simpa using ⟨left.ofWords, right.ofWords⟩), by simp [Expr.form], ?_⟩
    simp [Expr.form, PrefixForm.expr, Expr.shown, same, left.back, right.back, equal]
  | @unary operator tokens right sign _ ih =>
    obtain ⟨spells, behind⟩ := List.forall_mem_cons.mp spelled
    obtain ⟨same, word, group, -⟩ := spells.operator (mem_operatorKinds_of_sign sign)
    have right := ih behind
    refine ⟨.node word (by simpa using right.ofWords), by simp [Expr.form], ?_⟩
    simp [Expr.form, PrefixForm.expr, Expr.shown, same, right.back]
  | grouping _ _ ih =>
    have inner := ih (List.forall_mem_cons.mp spelled).2
    refine ⟨.node (.of_all (by decide)) (by simpa using inner.ofWords),
      by simp [Expr.form], ?_⟩
    simp [Expr.form, PrefixForm.expr, Expr.shown, inner.back]
  | assign named _ _ ihName ihValue =>
    simp only [List.forall_mem_append, List.forall_mem_cons] at spelled
    obtain ⟨before, -, after⟩ := spelled
    have kind := named.name_kind
    have target := ihName before
    have value := ihValue after
    refine ⟨.node (.of_all (by decide)) ?_, by simp [Expr.form], ?_⟩
    · simpa using ⟨target.ofWords, value.ofWords⟩
    · simp [Expr.form, PrefixForm.expr, Expr.shown, value.back, Token.unplaced, kind]

theorem PrefixForm.whole_of_present {form : PrefixForm} (present : form ≠ .leaf missingText) :
    form.whole = some form.expr := by
  cases form with
  | leaf word => exact if_neg fun same => present (by rw [same])
  | node head parts => rfl

theorem WholeRemains.readsBack {tokens : List Token} {value : Option Expr}
    (remains : WholeRemains tokens value) (spelled : ∀ token ∈ tokens, token.Spelled) :
    (wholeForm value).OfWords ∧ (wholeForm value).whole = value.map Expr.shown := by
  cases value with
  | none => exact ⟨.leaf (.of_all (by decide)), rfl⟩
  | some expr =>
    obtain ⟨words, present, back⟩ := ExprRemains.readsBack remains spelled
    rw [Option.map_some, ← back]
    exact ⟨words, PrefixForm.whole_of_present present⟩

theorem name_readsBack {name : Option Token} (named : ∀ token ∈ name, token.kind = .identifier)
    (spelled : ∀ token ∈ name.toList, token.Spelled) :
    (PrefixForm.leaf (Stmt.nameText name)).OfWords ∧
      (PrefixForm.leaf (Stmt.nameText name)).name = name.map Token.unplaced := by
  cases name with
  | none => exact ⟨.leaf (.of_all (by decide)), rfl⟩
  | some token =>
    have kind := named token rfl
    have spells := spelled token (by simp) (by simp [kind]) (by simp [kind])
    rw [kind] at spells
    refine ⟨.leaf (spells.isWord (by decide) (by decide)), ?_⟩
    have present : token.lexeme ≠ missingText := fun same => spells.ne_missingText (by rw [same])
    simp [Stmt.nameText, PrefixForm.name, Token.unplaced, present, kind]

structure Stmt.ReadsBack (stmt : Stmt) : Prop where
  ofWords : stmt.form.OfWords
  back : stmt.form.stmt = stmt.shown

theorem Stmt.readsBack_block {stmts : List Stmt} (each : ∀ stmt ∈ stmts, stmt.ReadsBack) :
    (block (.ofList stmts)).ReadsBack := by
  constructor
  · rw [form_block, Slots.toList_ofList]
    exact .node (.of_all (by decide))
      (List.forall_mem_map.mpr fun stmt member => (each stmt member).ofWords)
  · rw [form_block, Slots.toList_ofList, shown_block, Slots.map_ofList, PrefixForm.stmt,
      PrefixForm.stmtAll_eq, List.map_map]
    exact congrArg (fun body => block (.ofList body))
      (List.map_congr_left fun stmt member => (each stmt member).back)

theorem StmtRemains.readsBack {tokens : List Token} {stmt : Stmt}
    (remains : StmtRemains tokens stmt) (spelled : ∀ token ∈ tokens, token.Spelled) :
    stmt.ReadsBack := by
  induction remains with
  | among _ sub ih => exact ih fun token member => spelled token (sub.subset member)
  | expr value =>
    obtain ⟨words, back⟩ := value.readsBack spelled
    refine ⟨.node (.of_all (by decide)) (by simpa using words), ?_⟩
    simp [Stmt.form, Stmt.shown, PrefixForm.stmt, back]
  | declare _ named =>
    obtain ⟨words, back⟩ := name_readsBack named (List.forall_mem_cons.mp spelled).2
    refine ⟨.node (.of_all (by decide)) (by simpa using words), ?_⟩
    simp [Stmt.form, Stmt.shown, PrefixForm.stmt, back]
  | declareAs _ named _ value =>
    simp only [List.forall_mem_append, List.forall_mem_cons] at spelled
    obtain ⟨words, back⟩ := name_readsBack named spelled.2.1
    obtain ⟨words', back'⟩ := value.readsBack spelled.2.2.2
    refine ⟨.node (.of_all (by decide)) (by simpa using ⟨words, words'⟩), ?_⟩
    simp [Stmt.form, Stmt.shown, PrefixForm.stmt, back, back']
  | forLoop _ _ _ _ _ ihInit ihCondition ihIncrement ihBody =>
    simp only [List.forall_mem_append, List.forall_mem_cons] at spelled
    obtain ⟨-, inits, conditions, increments, bodies⟩ := spelled
    obtain ⟨init, init'⟩ := ihInit inits
    obtain ⟨condition, condition'⟩ := ihCondition conditions
    obtain ⟨increment, increment'⟩ := ihIncrement increments
    obtain ⟨body, body'⟩ := ihBody bodies
    refine ⟨.node (.of_all (by decide)) ?_, ?_⟩
    · simpa using ⟨init, condition, increment, body⟩
    · simp [Stmt.form, Stmt.shown, PrefixForm.stmt, init', condition', increment', body']
  | whileLoop _ condition _ ih =>
    simp only [List.forall_mem_append, List.forall_mem_cons] at spelled
    obtain ⟨words, back⟩ := condition.readsBack spelled.2.1
    obtain ⟨words', back'⟩ := ih spelled.2.2
    refine ⟨.node (.of_all (by decide)) (by simpa using ⟨words, words'⟩), ?_⟩
    simp [Stmt.form, Stmt.shown, PrefixForm.stmt, back, back']
  | ifThen _ condition _ ih =>
    simp only [List.forall_mem_append, List.forall_mem_cons] at spelled
    obtain ⟨words, back⟩ := condition.readsBack spelled.2.1
    obtain ⟨words', back'⟩ := ih spelled.2.2
    refine ⟨.node (.of_all (by decide)) (by simpa using ⟨words, words'⟩), ?_⟩
    simp [Stmt.form, Stmt.shown, PrefixForm.stmt, back, back']
  | ifElse _ condition _ _ _ ihYes ihNo =>
    simp only [List.forall_mem_append, List.forall_mem_cons] at spelled
    obtain ⟨-, conditions, yeses, -, noes⟩ := spelled
    obtain ⟨condition, condition'⟩ := condition.readsBack conditions
    obtain ⟨yes, yes'⟩ := ihYes yeses
    obtain ⟨no, no'⟩ := ihNo noes
    refine ⟨.node (.of_all (by decide)) (by simpa using ⟨condition, yes, no⟩), ?_⟩
    simp [Stmt.form, Stmt.shown, PrefixForm.stmt, condition', yes', no']
  | block _ _ _ ih =>
    apply Stmt.readsBack_block
    refine List.forall_mem_map.mpr fun part member => ih part member fun token found => ?_
    exact spelled token (List.mem_cons_of_mem _ (List.mem_flatMap.mpr ⟨part, member, found⟩))

theorem remains_of_mem_partsAll {parts : List (List Token × Stmt)} {stmt : Stmt}
    (each : ∀ part ∈ parts, stmt ∈ part.2.parts → StmtRemains part.1 stmt)
    (member : stmt ∈ Stmt.partsAll (parts.map Prod.snd)) :
    StmtRemains (parts.flatMap Prod.fst) stmt := by
  obtain ⟨_, listed, inside⟩ := Stmt.mem_partsAll.mp member
  obtain ⟨part, found, rfl⟩ := List.mem_map.mp listed
  refine (each part found inside).among ?_
  rw [List.flatMap_def]
  exact List.sublist_flatten_of_mem (List.mem_map_of_mem found)

theorem StmtRemains.part {tokens : List Token} {stmt part : Stmt}
    (remains : StmtRemains tokens stmt) (member : part ∈ stmt.parts) : StmtRemains tokens part := by
  induction remains with
  | among _ sub ih => exact (ih member).among sub
  | expr value =>
    rw [List.mem_singleton.mp member]
    exact .expr value
  | declare word named =>
    rw [List.mem_singleton.mp member]
    exact .declare word named
  | @declareAs word equals name _ _ var named equal value =>
    rcases List.mem_cons.mp member with rfl | member
    · exact .declareAs var named equal value
    · rw [List.mem_singleton.mp member]
      simpa using (StmtRemains.expr value).behind (word :: (name.toList ++ [equals]))
  | @forLoop word inits conditions increments bodies _ _ _ _ forWord init condition increment body
      ihInit ihCondition ihIncrement ihBody =>
    simp only [Stmt.parts, List.mem_cons, List.mem_append] at member
    rcases member with rfl | member | member | member | member
    · exact .forLoop forWord init condition increment body
    · exact ((ihInit member).before _).behind [word]
    · exact (((ihCondition member).before _).behind inits).behind [word]
    · exact ((((ihIncrement member).before _).behind conditions).behind inits).behind [word]
    · exact ((((ihBody member).behind increments).behind conditions).behind inits).behind [word]
  | @whileLoop word conditions _ _ _ whileWord condition body ih =>
    rcases List.mem_cons.mp member with rfl | member
    · exact .whileLoop whileWord condition body
    · exact ((ih member).behind conditions).behind [word]
  | @ifThen word conditions _ _ _ ifWord condition yes ih =>
    rcases List.mem_cons.mp member with rfl | member
    · exact .ifThen ifWord condition yes
    · exact ((ih member).behind conditions).behind [word]
  | @ifElse word otherwise conditions yeses _ _ _ _ ifWord condition yes elseWord no ihYes ihNo =>
    simp only [Stmt.parts, List.mem_cons, List.mem_append] at member
    rcases member with rfl | member | member
    · exact .ifElse ifWord condition yes elseWord no
    · exact (((ihYes member).before _).behind conditions).behind [word]
    · exact ((((ihNo member).behind [otherwise]).behind yeses).behind conditions).behind [word]
  | @block opening parts opened nonempty each ih =>
    rcases List.mem_cons.mp member with rfl | member
    · exact .block opened nonempty each
    · change part ∈ Stmt.partsAll (Slots.ofList (parts.map Prod.snd)).toList at member
      rw [Slots.toList_ofList] at member
      exact (remains_of_mem_partsAll ih member).behind [opening]

theorem remains_of_mem_parts {source : String} {limits : Limits} {stmt : Stmt}
    (member : stmt ∈ Stmt.partsAll (parse source limits).statements.toList) :
    StmtRemains (tokenize source).body stmt := by
  obtain ⟨parts, -, each, tokens, stmts⟩ :=
    Read.program_remains limits.maxDepth (tokenize source)
  change (parse source limits).statements.toList = parts.map Prod.snd at stmts
  rw [stmts] at member
  rw [tokens]
  exact remains_of_mem_partsAll (fun part found => (each part found).part) member

/-- Texts tell statements apart, whatever texts they were read from, with errors or without:
two statements are printed alike exactly if nothing is different but the lines of their
tokens and the sorts of the leaves that have the same text. -/
theorem printed_alike_iff {source source' : String} {limits limits' : Limits} {stmt stmt' : Stmt}
    (member : stmt ∈ Stmt.partsAll (parse source limits).statements.toList)
    (member' : stmt' ∈ Stmt.partsAll (parse source' limits').statements.toList) :
    stmt.text = stmt'.text ↔ stmt.shown = stmt'.shown := by
  have read := (remains_of_mem_parts member).readsBack (spelled_body source)
  have read' := (remains_of_mem_parts member').readsBack (spelled_body source')
  constructor
  · intro same
    have chars : stmt.form.chars = stmt'.form.chars := by
      rw [stmt.chars_form, stmt'.chars_form, same]
    have forms : stmt.form = stmt'.form := PrefixForm.chars_inj read.ofWords read'.ofWords chars
    rw [← read.back, forms, read'.back]
  · intro same
    have forms : stmt.form = stmt'.form := by rw [← stmt.form_shown, same, stmt'.form_shown]
    rw [← String.toList_inj, ← stmt.chars_form, forms, stmt'.chars_form]

/-- A truth value in a block, and a number on a later line of a text with an error. -/
theorem printed_alike_truth_number :
    let stmt := Stmt.declare (some ⟨.identifier, "a", 1⟩)
      (some (.expr (some (.unary ⟨.minus, "-", 1⟩ (.literal .bool "1")))))
    let stmt' := Stmt.declare (some ⟨.identifier, "a", 2⟩)
      (some (.expr (some (.unary ⟨.minus, "-", 2⟩ (.literal .number "1")))))
    stmt ∈ Stmt.partsAll (parse "{ var a = -true; }" ⟨256⟩).statements.toList ∧
      stmt' ∈ Stmt.partsAll (parse "// one\nvar a = - 1" ⟨9⟩).statements.toList ∧
      stmt ≠ stmt' ∧ (stmt.text = stmt'.text ↔ stmt.shown = stmt'.shown) := by
  intro stmt stmt'
  have member : stmt ∈ Stmt.partsAll (parse "{ var a = -true; }" ⟨256⟩).statements.toList := by
    decide +kernel
  have member' : stmt' ∈ Stmt.partsAll (parse "// one\nvar a = - 1" ⟨9⟩).statements.toList := by
    decide +kernel
  exact ⟨member, member', by decide, printed_alike_iff member member'⟩

end ScriptTree
