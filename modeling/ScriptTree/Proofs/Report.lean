import Mathlib.Algebra.GroupWithZero.Nat
import Mathlib.Algebra.Order.BigOperators.Group.List
import Mathlib.Algebra.Order.Group.Nat
import ScriptTree.Command.Run
import ScriptTree.Proofs.BlameOrder
import ScriptTree.Proofs.ErrorFlag
import ScriptTree.Proofs.SourceLines

/-! How many lines a report takes. Every diagnostic ends its line, but it quotes the token
that it blames, and a string may go on from one line to another. -/
namespace ScriptTree

def breaks (text : String) : Nat :=
  text.toList.count '\n'

theorem breaks_append (front back : String) : breaks (front ++ back) = breaks front + breaks back := by
  simp [breaks]

theorem breaks_eq_zero {text : String} : breaks text = 0 ↔ '\n' ∉ text.toList :=
  List.count_eq_zero

theorem breaks_toString (number : Nat) : breaks (toString number) = 0 := by
  rw [Nat.toString_eq_repr, breaks_eq_zero, Nat.toList_repr]
  exact unbroken_of_digits fun c member => Nat.isDigit_of_mem_toDigits (by decide) le_rfl member

theorem Complaint.breaks_message (complaint : Complaint) : breaks complaint.message = 0 := by
  cases complaint <;> decide +kernel

theorem Fault.breaks_message (fault : Fault) : breaks fault.message = 0 := by
  cases fault <;> rfl

theorem Cut.breaks_lexeme {line : Nat} {parts : List Stretch} {tokens : List Token}
    (cut : Cut line parts tokens) :
    ∀ token ∈ tokens, token.kind ≠ .string → breaks token.lexeme = 0 := by
  induction cut with
  | stop => simp [breaks]
  | @step _ _ _ cs c _ _ _ _ _ _ _ ih =>
    refine List.forall_mem_cons.mpr ⟨fun other => ?_, ih⟩
    obtain ⟨kind, read, spells⟩ | ⟨-, read, -⟩ | ⟨-, read, -⟩ := bite_cases c cs
    · simp only [Bite.token, read] at other ⊢
      obtain unbroken | ⟨string, -⟩ := spells.unbroken_or
      · exact breaks_eq_zero.mpr (by rwa [String.toList_ofList])
      · exact absurd string other
    · simp only [Bite.token, read]
      exact Fault.breaks_message _
    · simp only [Bite.token, read]
      exact Fault.breaks_message _

theorem tokenize_breaks_lexeme {source : String} {token : Token}
    (member : token ∈ (tokenize source).toList) (other : token.kind ≠ .string) :
    breaks token.lexeme = 0 := by
  obtain ⟨parts, -, cut⟩ := exists_cut_tokenize source
  exact cut.breaks_lexeme token member other

namespace Diagnostic

theorem breaks_text (diagnostic : Diagnostic) :
    breaks diagnostic.text = breaks diagnostic.site.text + breaks diagnostic.message := by
  have opening : breaks "[line " = 0 := rfl
  have closing : breaks "] Error" = 0 := rfl
  have colon : breaks ": " = 0 := rfl
  simp only [text, breaks_append, breaks_toString, opening, closing, colon]
  omega

theorem breaks_ofToken {token : Token} (complaint : Complaint)
    (unbroken : token.kind ≠ .string → breaks token.lexeme = 0) :
    breaks (ofToken token complaint.message).text =
      if token.kind = .string then breaks token.lexeme else 0 := by
  rw [breaks_text]
  unfold ofToken
  split
  next last =>
    have quoted : breaks " at end" = 0 := rfl
    rw [if_neg (by simp [last]), complaint.breaks_message, Site.text, quoted]
  next fault =>
    have other : token.kind ≠ .string := by simp [fault]
    have quoted : breaks "" = 0 := rfl
    rw [if_neg other, Site.text, quoted, unbroken other]
  next =>
    have opening : breaks " at '" = 0 := rfl
    have closing : breaks "'" = 0 := rfl
    simp only [Site.text, breaks_append, complaint.breaks_message, opening, closing, Nat.zero_add,
      Nat.add_zero]
    split
    next string => rfl
    next other => exact unbroken other

/-- The diagnostic complains at a string that goes on from one line to another. -/
def QuotesBreak (tokens : Tokens) (diagnostic : Diagnostic) : Prop :=
  ∃ token ∈ tokens.toList, ∃ complaint : Complaint, token.kind = .string ∧
    '\n' ∈ token.lexeme.toList ∧ diagnostic = .ofToken token complaint.message

theorem breaks_eq_zero_iff {source : String} {limits : Limits} {diagnostic : Diagnostic}
    (member : diagnostic ∈ (parse source limits).diagnostics) :
    breaks diagnostic.text = 0 ↔ ¬ diagnostic.QuotesBreak (tokenize source) := by
  constructor
  · rintro none ⟨token, found, complaint, string, broken, rfl⟩
    rw [breaks_ofToken complaint (tokenize_breaks_lexeme found), if_pos string] at none
    exact breaks_eq_zero.mp none broken
  · intro plain
    obtain ⟨place, token, complaint, found, rfl⟩ := parse_diagnostic_blamed member
    have found := List.mem_of_getElem? found
    rw [breaks_ofToken complaint (tokenize_breaks_lexeme found)]
    split
    next string =>
      exact breaks_eq_zero.mpr fun broken => plain ⟨token, found, complaint, string, broken, rfl⟩
    · rfl

end Diagnostic

theorem breaks_asLines (texts : List String) :
    breaks (asLines texts) = texts.length + (texts.map breaks).sum := by
  induction texts with
  | nil => rfl
  | cons text texts ih =>
    have joined : asLines (text :: texts) = text ++ "\n" ++ asLines texts := by
      simp [asLines]
    have ending : breaks "\n" = 1 := rfl
    rw [joined, breaks_append, breaks_append, ih, ending, List.map_cons, List.sum_cons,
      List.length_cons]
    omega

theorem openLines_asLines (texts : List String) : openLines (asLines texts).toList = 0 := by
  cases texts using List.reverseRecOn with
  | nil => rfl
  | append_singleton texts text => simp [asLines, openLines]

theorem length_lines_asLines (texts : List String) :
    (lines (asLines texts)).length = texts.length + (texts.map breaks).sum := by
  rw [length_lines, openLines_asLines, Nat.add_zero, ← breaks_asLines]
  rfl

theorem parseReport_exit (quiet : Bool) (source : String) (limits : Limits) :
    (parseReport quiet (parse source limits)).exit =
      if (parse source limits).diagnostics = [] then 0 else 65 := by
  have raised := parse_raised_iff source limits
  cases flag : (parse source limits).hadError with
  | true => rw [parseReport, flag, if_pos rfl, if_neg (raised.mp flag)]
  | false =>
    have none : (parse source limits).diagnostics = [] :=
      not_not.mp (mt raised.mpr (by simp [flag]))
    rw [parseReport, flag, if_neg (by simp), if_pos none]

theorem readText_toUTF8 (text : String) : readText text.toUTF8 = .ok text := by
  have read : String.fromUTF8? text.toUTF8 = some text := dif_pos text.isValidUTF8
  rw [readText, read]

theorem Folder.read_input (text : String) :
    (⟨[("input.ari", text.toUTF8)]⟩ : Folder).read "input.ari" = .ok text :=
  readText_toUTF8 text

/-- A file that is parsed exits by whether there are diagnostics, and its report has a line
for each of them, and one more for each line break that they quote: it has one line for
each exactly if none of them complains at a string that goes on from one line to another. -/
theorem report_lines_iff {folder : Folder} {args : List String} {file : String} {limits : Limits}
    {quiet : Bool} {source : String}
    (asked : Invocation.ofArgs? args = some (.onFile (.parse quiet) file limits))
    (readable : folder.read file = .ok source) :
    ∃ report, run folder args = .finished report ∧
      let diagnostics := (parse source limits).diagnostics
      report.exit = (if diagnostics = [] then 0 else 65) ∧
      openLines report.stderr.toList = 0 ∧
      (lines report.stderr).length =
        diagnostics.length + (diagnostics.map fun diagnostic => breaks diagnostic.text).sum ∧
      ((lines report.stderr).length = diagnostics.length ↔
        ∀ diagnostic ∈ diagnostics, ¬ diagnostic.QuotesBreak (tokenize source)) := by
  have finished : run folder args = .finished (parseReport quiet (parse source limits)) := by
    rw [run, asked]
    simp only [Action.run, readable]
  refine ⟨_, finished, parseReport_exit quiet source limits, openLines_asLines _, ?_⟩
  have counted := length_lines_asLines ((parse source limits).diagnostics.map Diagnostic.text)
  rw [List.length_map, List.map_map, Function.comp_def] at counted
  refine ⟨counted, ?_⟩
  calc
    (lines (asLines ((parse source limits).diagnostics.map Diagnostic.text))).length =
        (parse source limits).diagnostics.length ↔
      ((parse source limits).diagnostics.map fun diagnostic => breaks diagnostic.text).sum = 0 := by
        omega
    _ ↔ ∀ diagnostic ∈ (parse source limits).diagnostics, breaks diagnostic.text = 0 := by
      rw [List.sum_eq_zero_iff, List.forall_mem_map]
    _ ↔ _ := forall₂_congr fun diagnostic member => Diagnostic.breaks_eq_zero_iff member

theorem report_lines_quiet :
    let folder : Folder := ⟨[("input.ari", "1 \"a\nb\";".toUTF8)]⟩
    ∃ report, run folder ["parse", "--max-depth", "3", "input.ari", "-q"] = .finished report ∧
      report.exit = 65 ∧ (lines report.stderr).length = 2 := by
  intro folder
  have asked : Invocation.ofArgs? ["parse", "--max-depth", "3", "input.ari", "-q"] =
      some (.onFile (.parse true) "input.ari" ⟨3⟩) := by decide +kernel
  have readable : folder.read "input.ari" = .ok "1 \"a\nb\";" := Folder.read_input _
  obtain ⟨report, finished, exit, -, counted, -⟩ := report_lines_iff asked readable
  refine ⟨report, finished, exit.trans ?_, counted.trans ?_⟩ <;> decide +kernel

/-- The string behind the number is the only token that is blamed, but its two lines make
two lines of the report. -/
theorem report_quotes_break :
    let folder : Folder := ⟨[("input.ari", "1 \"a\nb\";".toUTF8)]⟩
    (parse "1 \"a\nb\";" ⟨256⟩).diagnostics.length = 1 ∧
    folder.read "input.ari" = .ok "1 \"a\nb\";" ∧
    ∃ report, run folder ["parse", "input.ari"] = .finished report ∧
      (lines report.stderr).length = 2 := by
  intro folder
  have readable : folder.read "input.ari" = .ok "1 \"a\nb\";" := Folder.read_input _
  refine ⟨by decide +kernel, readable, parseReport false (parse "1 \"a\nb\";" ⟨256⟩), ?_,
    by decide +kernel⟩
  have asked : Invocation.ofArgs? ["parse", "input.ari"] =
      some (.onFile (.parse false) "input.ari" ⟨256⟩) := by decide +kernel
  rw [run, asked]
  simp only [Action.run, readable]

end ScriptTree
