import ScriptTree.Program
import ScriptTree.Proofs.Relabelling

/-! Layout. Blanks, comments and line breaks decide on which line a token stands and on
nothing else that is read: texts of the same tokens are both read in step with the text
that has no lines. -/
namespace ScriptTree

def Token.spelling (token : Token) : Kind × String :=
  (token.kind, token.lexeme)

def Token.unplaced (token : Token) : Token :=
  { token with line := 0 }

theorem map_unplaced_of_spelling {tokens others : List Token}
    (same : tokens.map Token.spelling = others.map Token.spelling) :
    tokens.map Token.unplaced = others.map Token.unplaced := by
  have through : Token.unplaced = (fun (kind, lexeme) => ⟨kind, lexeme, 0⟩) ∘ Token.spelling := rfl
  rw [through, ← List.map_map, same, List.map_map]

def Diagnostic.unplaced (diagnostic : Diagnostic) : Diagnostic :=
  { diagnostic with line := 0 }

def Stmt.unplaced : Stmt → Stmt :=
  Stmt.map Token.unplaced

theorem relabelling_unplaced : Relabelling Token.unplaced Diagnostic.unplaced where
  kind _ := rfl
  lexeme _ := rfl
  told token message := by
    have kind : token.unplaced.kind = token.kind := rfl
    unfold Diagnostic.ofToken
    rw [kind]
    split <;> rfl

theorem Expr.text_map {change : Token → Token}
    (lexeme : ∀ token, (change token).lexeme = token.lexeme) (expr : Expr) :
    (expr.map change).text = expr.text := by
  induction expr with
  | binary operator left right ihLeft ihRight => simp only [map, text, lexeme, ihLeft, ihRight]
  | unary operator right ih => simp only [map, text, lexeme, ih]
  | grouping inner ih => simp only [map, text, ih]
  | assign target value ih => simp only [map, text, lexeme, ih]
  | literal | name => simp only [map, text, lexeme]

theorem exprText_map {change : Token → Token}
    (lexeme : ∀ token, (change token).lexeme = token.lexeme) (value : Option Expr) :
    exprText (value.map (Expr.map change)) = exprText value := by
  cases value with
  | none => rfl
  | some expr => simp only [exprText, Option.map_some, Option.getD_some, Expr.text_map lexeme]

namespace Stmt

theorem nameText_map {change : Token → Token}
    (lexeme : ∀ token, (change token).lexeme = token.lexeme) (name : Option Token) :
    nameText (name.map change) = nameText name := by
  cases name with
  | none => rfl
  | some token => simp only [nameText, Option.map_some, Option.getD_some, lexeme]

theorem text_declare_map {change : Token → Token}
    (lexeme : ∀ token, (change token).lexeme = token.lexeme) (name : Option Token) (init : Stmt)
    (shown : (init.map change).text = init.text) :
    ((declare name (some init)).map change).text = (declare name (some init)).text := by
  have named := nameText_map lexeme name
  cases init with
  | expr value => simp only [map, text, named, exprText_map lexeme]
  | branch condition yes no =>
    cases no with
    | none => simp only [map, text, named] at shown ⊢; rw [shown]
    | some no => simp only [map, text, named] at shown ⊢; rw [shown]
  | declare inner init =>
    cases init with
    | none => simp only [map, text, named] at shown ⊢; rw [shown]
    | some init => simp only [map, text, named] at shown ⊢; rw [shown]
  | block | whileLoop | forLoop => simp only [map, text, named] at shown ⊢; rw [shown]

mutual

theorem text_map {change : Token → Token}
    (lexeme : ∀ token, (change token).lexeme = token.lexeme) :
    ∀ stmt : Stmt, (stmt.map change).text = stmt.text
  | block ⟨⟨body⟩, _⟩ => by simp only [map, text, textAll_map lexeme body]
  | expr _ => by simp only [map, text, exprText_map lexeme]
  | branch _ yes none => by simp only [map, text, exprText_map lexeme, text_map lexeme yes]
  | branch _ yes (some no) => by
    simp only [map, text, exprText_map lexeme, text_map lexeme yes, text_map lexeme no]
  | whileLoop _ body => by simp only [map, text, exprText_map lexeme, text_map lexeme body]
  | forLoop init condition increment body => by
    simp only [map, text, text_map lexeme init, text_map lexeme condition,
      text_map lexeme increment, text_map lexeme body]
  | declare _ none => by simp only [map, text, nameText_map lexeme]
  | declare name (some init) => text_declare_map lexeme name init (text_map lexeme init)

theorem textAll_map {change : Token → Token}
    (lexeme : ∀ token, (change token).lexeme = token.lexeme) :
    ∀ stmts : List Stmt, textAll (mapAll change stmts) = textAll stmts
  | [] => rfl
  | stmt :: rest => by simp only [mapAll, textAll, text_map lexeme stmt, textAll_map lexeme rest]

end

end Stmt

theorem start_unplaced {first second : Tokens}
    (same : first.toList.map Token.spelling = second.toList.map Token.spelling) :
    (Cursor.start first).relabel Token.unplaced Diagnostic.unplaced 0 =
      (Cursor.start second).relabel Token.unplaced Diagnostic.unplaced 0 := by
  have unplaced := map_unplaced_of_spelling same
  rw [Tokens.toList, Tokens.toList, List.map_append, List.map_append] at unplaced
  obtain ⟨body, stop⟩ := List.append_inj' unplaced rfl
  have stop' := (List.cons.inj stop).1
  simp only [Cursor.relabel, Cursor.start, body, stop']

/-- Two texts whose tokens agree in kind and lexeme, one by one, are read alike, valid or
not: the same statements and the same diagnostics but for their lines, and the same
printed forms. -/
theorem parse_layout (first second : String) (limits : Limits)
    (same : (tokenize first).toList.map Token.spelling =
      (tokenize second).toList.map Token.spelling) :
    let program := parse first limits
    let other := parse second limits
    program.hadError = other.hadError ∧
      program.statements.map Stmt.unplaced = other.statements.map Stmt.unplaced ∧
      program.diagnostics.map Diagnostic.unplaced = other.diagnostics.map Diagnostic.unplaced ∧
      program.statements.toList.map Stmt.text = other.statements.toList.map Stmt.text := by
  intro program other
  have read := relabelling_unplaced.program limits.maxDepth 0 (.start (tokenize first))
  have read' := relabelling_unplaced.program limits.maxDepth 0 (.start (tokenize second))
  rw [start_unplaced same, read', Prod.mk.injEq] at read
  obtain ⟨stmts, ends⟩ := read
  have statements : program.statements.map Stmt.unplaced = other.statements.map Stmt.unplaced :=
    stmts.symm
  have texts (stmts : Slots Stmt) :
      (stmts.map Stmt.unplaced).toList.map Stmt.text = stmts.toList.map Stmt.text := by
    rw [Slots.toList_map, List.map_map]
    exact List.map_congr_left fun stmt _ => @Stmt.text_map Token.unplaced (fun _ => rfl) stmt
  refine ⟨(congrArg Cursor.hadError ends).symm, statements, ?_, ?_⟩
  · have reported := congrArg (List.reverse ∘ Cursor.reported) ends
    simp only [Function.comp_apply, Cursor.relabel, ← List.map_reverse] at reported
    exact reported.symm
  · rw [← texts, statements, texts]

/-- A comment, a line break or nothing at all between the tokens, also where an operand is
missing. -/
theorem parse_layout_of_comment :
    (tokenize "a = 1 + ; b").toList.map Token.spelling =
      (tokenize "a=1 // one\n+\n;\tb").toList.map Token.spelling ∧
    (parse "a = 1 + ; b" ⟨256⟩).hadError = (parse "a=1 // one\n+\n;\tb" ⟨256⟩).hadError ∧
    (parse "a = 1 + ; b" ⟨256⟩).statements.map Stmt.unplaced =
      (parse "a=1 // one\n+\n;\tb" ⟨256⟩).statements.map Stmt.unplaced ∧
    (parse "a = 1 + ; b" ⟨256⟩).diagnostics.map Diagnostic.unplaced =
      (parse "a=1 // one\n+\n;\tb" ⟨256⟩).diagnostics.map Diagnostic.unplaced ∧
    (parse "a = 1 + ; b" ⟨256⟩).statements.toList.map Stmt.text =
      (parse "a=1 // one\n+\n;\tb" ⟨256⟩).statements.toList.map Stmt.text := by
  have same : (tokenize "a = 1 + ; b").toList.map Token.spelling =
      (tokenize "a=1 // one\n+\n;\tb").toList.map Token.spelling := by decide +kernel
  exact ⟨same, parse_layout "a = 1 + ; b" "a=1 // one\n+\n;\tb" ⟨256⟩ same⟩

end ScriptTree
