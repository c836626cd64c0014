import Mathlib.Data.List.Forall2
import ScriptTree.Proofs.Likeness
import ScriptTree.Proofs.Seam
import ScriptTree.Program

/-! The order of the diagnostics is the order of the text. A report is made at the token
that is read next or at the one right before it, and no reader goes back. Between two
reports the panic ends, so the same token is blamed twice only if skipping stopped there. -/
namespace ScriptTree

/-- The diagnostic is what some complaint at the token in that place comes to. -/
def BlamedAt (tokens : Tokens) (diagnostic : Diagnostic) (place : Nat) : Prop :=
  ∃ token, ∃ complaint : Complaint, tokens.toList[place]? = some token ∧
    diagnostic = .ofToken token complaint.message

/-- At the end of input, and before a word that opens a statement, a panic ends and leaves
the token unread. -/
def Resumes (tokens : Tokens) (place : Nat) : Prop :=
  ∃ token, tokens.toList[place]? = some token ∧
    token.kind ∈ [Kind.endOfInput, .classWord, .funWord, .varWord, .ifWord, .whileWord, .returnWord]

namespace Cursor

theorem Onward.next_place {tokens : Tokens} {cursor : Cursor}
    (onward : (start tokens).Onward cursor) :
    tokens.toList[cursor.consumed]? = some cursor.next := by
  obtain ⟨passed, split, counted⟩ := onward.passed
  have split : tokens.body = passed ++ cursor.unread := split
  have counted : cursor.consumed = passed.length := by rw [counted]; exact Nat.zero_add _
  have stop : cursor.stop = tokens.stop := onward.stop
  rw [Tokens.toList, split, counted, List.append_assoc, List.getElem?_append_right le_rfl,
    Nat.sub_self, next, stop]
  cases cursor.unread <;> rfl

theorem skipStatement_stuck {skipped : Nat} {unread : List Token}
    (stuck : (skipStatement skipped unread).2 = skipped) :
    ∀ token ∈ unread.head?, opensStatement token.kind = true := by
  cases unread with
  | nil => simp
  | cons token rest =>
    intro head found
    cases Option.some.inj found
    unfold skipStatement at stuck
    split at stuck
    · exact absurd stuck (by simp)
    · split at stuck
      next opens => exact opens
      next =>
        obtain ⟨_, _, counted⟩ := skipStatement_append (skipped + 1) rest
        omega

end Cursor

open Cursor

theorem resumes_of_opens {kind : Kind} (opens : opensStatement kind = true) :
    kind ∈ [Kind.endOfInput, .classWord, .funWord, .varWord, .ifWord, .whileWord, .returnWord] := by
  cases kind <;> simp_all [opensStatement]

/-- The reports blame places in their order, and all of these places fit. The latest report
comes first. -/
def Blames (tokens : Tokens) (reported : List Diagnostic) (Fits : Nat → Prop) : Prop :=
  ∃ places, List.Forall₂ (BlamedAt tokens) reported places ∧
    places.Pairwise (fun later earlier =>
      earlier ≤ later ∧ (earlier = later → Resumes tokens later)) ∧
    ∀ place ∈ places, Fits place

namespace Blames

variable {tokens : Tokens} {reported : List Diagnostic} {Fits Fits' : Nat → Prop}

theorem mono (blames : Blames tokens reported Fits) (weaker : ∀ place, Fits place → Fits' place) :
    Blames tokens reported Fits' := by
  obtain ⟨places, blamed, order, fit⟩ := blames
  exact ⟨places, blamed, order, fun place found => weaker place (fit place found)⟩

theorem cons {diagnostic : Diagnostic} {place : Nat} (blamed : BlamedAt tokens diagnostic place)
    (blames : Blames tokens reported fun before =>
      before ≤ place ∧ (before = place → Resumes tokens place)) :
    Blames tokens (diagnostic :: reported) (· ≤ place) := by
  obtain ⟨places, others, order, before⟩ := blames
  refine ⟨place :: places, .cons blamed others, .cons before order, ?_⟩
  exact List.forall_mem_cons.mpr ⟨le_rfl, fun earlier found => (before earlier found).1⟩

end Blames

/-- The places blamed so far are not ahead of the cursor. A calm cursor is past all of them
unless the panic ended right there. -/
structure InOrder (tokens : Tokens) (cursor : Cursor) : Prop where
  onward : (start tokens).Onward cursor
  blames : Blames tokens cursor.reported fun place => place ≤ cursor.consumed ∧
    (cursor.panicking = false → place = cursor.consumed → Resumes tokens place)

namespace InOrder

variable {tokens : Tokens} {cursor : Cursor}

theorem start (tokens : Tokens) : InOrder tokens (start tokens) :=
  ⟨.refl _, [], .nil, .nil, by simp⟩

theorem advance (here : InOrder tokens cursor) : InOrder tokens cursor.advance := by
  refine ⟨here.onward.trans (onward_advance cursor), ?_⟩
  unfold Cursor.advance
  split
  · exact here.blames
  · refine here.blames.mono fun place behind => ⟨Nat.le_succ_of_le behind.1, fun _ same => ?_⟩
    exact absurd same (Nat.ne_of_lt (Nat.lt_succ_of_le behind.1))

theorem report (here : InOrder tokens cursor) {token : Token} {place : Nat} (complaint : Complaint)
    (found : tokens.toList[place]? = some token) (reached : place ≤ cursor.consumed)
    (before : cursor.panicking = false → Blames tokens cursor.reported fun before =>
      before ≤ place ∧ (before = place → Resumes tokens place)) :
    InOrder tokens (cursor.report token complaint) := by
  refine ⟨here.onward.trans (onward_report cursor token complaint), ?_⟩
  unfold Cursor.report
  split
  · exact here.blames
  next calm =>
    have blamed : BlamedAt tokens (.ofToken token complaint.message) place :=
      ⟨token, complaint, found, rfl⟩
    refine (Blames.cons blamed (before (by simpa using calm))).mono fun earlier behind => ?_
    exact ⟨behind.trans reached, fun quiet => absurd quiet (by simp)⟩

theorem complain (here : InOrder tokens cursor) (complaint : Complaint) :
    InOrder tokens (cursor.report cursor.next complaint) := by
  refine here.report complaint here.onward.next_place le_rfl fun calm => ?_
  exact here.blames.mono fun place behind => ⟨behind.1, fun same => same ▸ behind.2 calm same⟩

theorem refuse {token : Token} {rest : List Token} (here : InOrder tokens cursor)
    (ahead : cursor.unread = token :: rest) :
    InOrder tokens (cursor.advance.report token .invalidTarget) := by
  have found : tokens.toList[cursor.consumed]? = some token := by
    rw [here.onward.next_place, Cursor.next, ahead]
    rfl
  have passed : cursor.advance = { cursor with unread := rest, consumed := cursor.consumed + 1 } := by
    rw [Cursor.advance, ahead]
  refine here.advance.report .invalidTarget found (by rw [passed]; exact Nat.le_succ _) fun calm => ?_
  rw [passed] at calm ⊢
  exact here.blames.mono fun place behind => ⟨behind.1, fun same => same ▸ behind.2 calm same⟩

theorem recover (closed : tokens.stop.kind = .endOfInput) (here : InOrder tokens cursor) :
    InOrder tokens cursor.recover := by
  refine ⟨here.onward.trans (onward_recover cursor), ?_⟩
  unfold Cursor.recover
  split
  · obtain ⟨_, _, counted⟩ := skipStatement_append 0 cursor.unread
    refine here.blames.mono fun place behind => ⟨Nat.le_add_right_of_le behind.1, fun _ same => ?_⟩
    have same : place = cursor.consumed + (skipStatement 0 cursor.unread).2 := same
    have stuck : (skipStatement 0 cursor.unread).2 = 0 := by omega
    have here' : place = cursor.consumed := by rw [same, stuck, Nat.add_zero]
    refine ⟨cursor.next, here' ▸ here.onward.next_place, ?_⟩
    rw [Cursor.next]
    cases ahead : cursor.unread with
    | nil =>
      have stop : cursor.stop = tokens.stop := here.onward.stop
      simp [stop, closed]
    | cons token rest =>
      exact resumes_of_opens (skipStatement_stuck stuck token (by rw [ahead]; rfl))
  · exact here.blames

end InOrder

theorem invariant_inOrder {tokens : Tokens} (closed : tokens.stop.kind = .endOfInput) :
    Invariant (InOrder tokens) where
  advance here := here.advance
  complain here complaint := here.complain complaint
  refuse here ahead _ := here.refuse ahead
  recover here := here.recover closed

theorem Bite.token_line (bite : Bite) (line : Nat) : (bite.token line).line = line := by
  unfold Bite.token
  split <;> rfl

theorem tokensFrom_lines (line : Nat) (source : List Char) :
    (∀ token ∈ tokensFrom line source,
      line ≤ token.line ∧ token.line ≤ line + source.count '\n') ∧
      (tokensFrom line source).Pairwise (fun token below => token.line ≤ below.line) := by
  induction length : source.length using Nat.strongRecOn generalizing line source with
  | ind length ih =>
    subst length
    cases found : (splitGap false [] source).2 with
    | nil => simp [tokensFrom_of_blank found]
    | cons c cs =>
      have shorter := splitGap_length_le false [] source
      have taken := bite_rest_length_le c cs
      have whole := splitGap_append false [] source
      rw [found, List.length_cons] at shorter
      rw [found, List.reverse_nil, List.nil_append] at whole
      have lines : source.count '\n' = (splitGap false [] source).1.count '\n' +
          ((bite c cs).text.count '\n' + (bite c cs).rest.count '\n') := by
        rw [← List.count_append, bite_append, ← List.count_append, whole]
      rw [tokensFrom_of_token found rfl]
      obtain ⟨within, order⟩ := ih _ (by omega) (line + (splitGap false [] source).1.count '\n' +
        (bite c cs).text.count '\n') (bite c cs).rest rfl
      refine ⟨List.forall_mem_cons.mpr ⟨?_, fun token found => ?_⟩, .cons (fun token found => ?_) order⟩
      · rw [Bite.token_line]
        omega
      · have := within token found
        omega
      · rw [Bite.token_line]
        exact (within token found).1

theorem tokenize_lines (source : String) :
    (tokenize source).toList.Pairwise (fun token below => token.line ≤ below.line) := by
  obtain ⟨within, order⟩ := tokensFrom_lines 1 source.toList
  rw [tokenize_eq, Tokens.toList]
  exact List.pairwise_append.mpr ⟨order, List.pairwise_singleton _ _, fun token found stop last =>
    List.mem_singleton.mp last ▸ (within token found).2⟩

theorem Diagnostic.ofToken_line (token : Token) (message : String) :
    (Diagnostic.ofToken token message).line = token.line := by
  unfold Diagnostic.ofToken
  split <;> rfl

theorem lines_in_order {tokens : Tokens} {diagnostics : List Diagnostic} {places : List Nat}
    (below : tokens.toList.Pairwise (fun token below => token.line ≤ below.line))
    (blamed : List.Forall₂ (BlamedAt tokens) diagnostics places)
    (order : places.Pairwise (· ≤ ·)) : (diagnostics.map Diagnostic.line).Pairwise (· ≤ ·) := by
  rw [List.pairwise_map, List.pairwise_iff_getElem]
  intro i j first second before
  have paired := blamed.length_eq
  obtain ⟨token, complaint, found, told⟩ := blamed.get first (paired ▸ first)
  obtain ⟨token', complaint', found', told'⟩ := blamed.get second (paired ▸ second)
  simp only [List.get_eq_getElem] at found told found' told'
  rw [told, told', Diagnostic.ofToken_line, Diagnostic.ofToken_line]
  obtain ahead | same := (List.pairwise_iff_getElem.mp order i j (paired ▸ first) (paired ▸ second)
    before).lt_or_eq
  · obtain ⟨inside, rfl⟩ := List.getElem?_eq_some_iff.mp found
    obtain ⟨inside', rfl⟩ := List.getElem?_eq_some_iff.mp found'
    exact List.pairwise_iff_getElem.mp below _ _ inside inside' ahead
  · rw [same, found'] at found
    exact (congrArg Token.line (Option.some.inj found)).ge

theorem parse_blames (source : String) (limits : Limits) :
    ∃ places : List Nat,
      List.Forall₂ (BlamedAt (tokenize source)) (parse source limits).diagnostics places ∧
      places.Pairwise (fun earlier later =>
        earlier ≤ later ∧ (earlier = later → Resumes (tokenize source) later)) := by
  have keeps : Invariant (InOrder (tokenize source)) := invariant_inOrder rfl
  obtain ⟨places, blamed, order, -⟩ := (keeps.program limits.maxDepth (.start _)).blames
  exact ⟨places.reverse, List.rel_reverse blamed, List.pairwise_reverse.mpr order⟩

theorem parse_diagnostic_blamed {source : String} {limits : Limits} {diagnostic : Diagnostic}
    (member : diagnostic ∈ (parse source limits).diagnostics) :
    ∃ place, BlamedAt (tokenize source) diagnostic place := by
  obtain ⟨places, blamed, -⟩ := parse_blames source limits
  obtain ⟨i, bound, rfl⟩ := List.getElem_of_mem member
  exact ⟨_, blamed.get bound (blamed.length_eq ▸ bound)⟩

/-- Every diagnostic is a complaint at one of the tokens, and the tokens blamed follow each
other as in the text. Only the end of input and the words that open a statement are blamed
more than once. -/
theorem parse_diagnostics_in_order (source : String) (limits : Limits) :
    ∃ places : List Nat,
      List.Forall₂ (BlamedAt (tokenize source)) (parse source limits).diagnostics places ∧
      places.Pairwise (fun earlier later =>
        earlier ≤ later ∧ (earlier = later → Resumes (tokenize source) later)) ∧
      ((parse source limits).diagnostics.map Diagnostic.line).Pairwise (· ≤ ·) := by
  obtain ⟨places, blamed, order⟩ := parse_blames source limits
  refine ⟨places, blamed, order, ?_⟩
  exact lines_in_order (tokenize_lines source) blamed (order.imp And.left)

end ScriptTree
