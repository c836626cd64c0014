import ScriptTree.Proofs.Verdict
import ScriptTree.Reader.Statement

/-! Declarations one after another. Every round consumes a token, so the bound
on the rounds is never felt: the loop depends on the unread tokens alone, and
can be followed round by round. -/
namespace ScriptTree

namespace Cursor

def stops (closes : Kind → Bool) (cursor : Cursor) : Bool :=
  cursor.unread.isEmpty || closes cursor.next.kind

theorem unread_ne_nil {closes : Kind → Bool} {cursor : Cursor}
    (goes : cursor.stops closes = false) : cursor.unread ≠ [] := by
  intro none
  simp [stops, none] at goes

theorem recover_of_calm {cursor : Cursor} (calm : cursor.panicking = false) :
    cursor.recover = cursor := by
  simp [recover, calm]

theorem recover_panicking (cursor : Cursor) : cursor.recover.panicking = false := by
  unfold recover
  split
  · rfl
  next calm => exact Bool.eq_false_iff.mpr calm

end Cursor

namespace Read

variable {declaration : Read Stmt} {closes : Kind → Bool}

def roundEnd (declaration : Read Stmt) (cursor : Cursor) : Cursor :=
  (declaration cursor).2.recover.progressSince cursor.consumed

theorem roundEnd_onward (onward : Onward declaration) (cursor : Cursor) :
    cursor.Onward (roundEnd declaration cursor) :=
  ((onward cursor).trans (Cursor.onward_recover _)).trans (Cursor.onward_progressSince _ _)

theorem roundEnd_unread_length_lt (onward : Onward declaration) {cursor : Cursor}
    (some : cursor.unread ≠ []) :
    (roundEnd declaration cursor).unread.length < cursor.unread.length := by
  obtain ⟨tokens, split, counted⟩ := ((onward cursor).trans (Cursor.onward_recover _)).passed
  unfold roundEnd Cursor.progressSince
  by_cases idle : tokens = []
  · subst idle
    rw [if_pos (by simpa using counted)]
    rw [List.nil_append] at split
    unfold Cursor.advance
    split
    next none => exact absurd (split.trans none) some
    next rest more => simp [split, more]
  · have passed := List.length_pos_iff.mpr idle
    rw [if_neg (by omega), split, List.length_append]
    omega

theorem roundEnd_panicking (declaration : Read Stmt) (cursor : Cursor) :
    (roundEnd declaration cursor).panicking = false := by
  unfold roundEnd Cursor.progressSince Cursor.advance
  split
  · split <;> exact Cursor.recover_panicking _
  · exact Cursor.recover_panicking _

theorem declarations_cons (token : Token) (bound : List Token) (done : Slots Stmt)
    (cursor : Cursor) :
    declarations declaration closes (token :: bound) done cursor =
      if cursor.stops closes then (done, cursor)
      else declarations declaration closes bound (done.push (declaration cursor).1)
        (roundEnd declaration cursor) := by
  change (if cursor.stops closes then pure done else _ : Read (Slots Stmt)) cursor = _
  split <;> rfl

theorem declarations_bound (onward : Onward declaration) {bound bound' : List Token}
    {cursor : Cursor} (enough : cursor.unread.length ≤ bound.length)
    (enough' : cursor.unread.length ≤ bound'.length) (done : Slots Stmt) :
    declarations declaration closes bound done cursor =
      declarations declaration closes bound' done cursor := by
  have ended : ∀ (bound : List Token) (cursor : Cursor), cursor.unread = [] →
      ∀ done, declarations declaration closes bound done cursor = (done, cursor) := by
    intro bound cursor none done
    cases bound with
    | nil => rfl
    | cons token bound => rw [declarations_cons, if_pos (by simp [Cursor.stops, none])]
  induction bound generalizing bound' cursor done with
  | nil =>
    have none := List.length_eq_zero_iff.mp (Nat.le_zero.mp enough)
    rw [ended _ _ none, ended _ _ none]
  | cons token bound ih =>
    by_cases none : cursor.unread = []
    · rw [ended _ _ none, ended _ _ none]
    · have shorter := roundEnd_unread_length_lt onward none
      cases bound' with
      | nil =>
        have positive := List.length_pos_iff.mpr none
        simp only [List.length_nil] at enough'
        omega
      | cons token' bound' =>
        simp only [List.length_cons] at enough enough'
        rw [declarations_cons, declarations_cons]
        split
        · rfl
        · exact ih (by omega) (by omega) _

def sequence (declaration : Read Stmt) (closes : Kind → Bool) (done : Slots Stmt) :
    Read (Slots Stmt) :=
  fun cursor => declarations declaration closes cursor.unread done cursor

theorem sequence_apply (onward : Onward declaration) (done : Slots Stmt) (cursor : Cursor) :
    sequence declaration closes done cursor =
      if cursor.stops closes then (done, cursor)
      else sequence declaration closes (done.push (declaration cursor).1)
        (roundEnd declaration cursor) := by
  unfold sequence
  cases unread : cursor.unread with
  | nil => simp only [Cursor.stops, unread, List.isEmpty_nil, Bool.true_or, if_pos]; rfl
  | cons token rest =>
    have some : cursor.unread ≠ [] := by simp [unread]
    have shorter := roundEnd_unread_length_lt onward some
    rw [unread, List.length_cons] at shorter
    rw [declarations_cons]
    split
    · rfl
    · exact declarations_bound onward (by omega) (Nat.le_refl _) _

theorem block_eq (declaration : Read Stmt) :
    block declaration = sequence declaration (· == .rightBrace) .empty >>= fun body =>
      expect .rightBrace .expectEndOfBlock >>= fun _ => pure (.block body) := rfl

theorem program_eq (room : Nat) :
    program room = sequence (Read.declaration (expression room) (statement room))
      (fun _ => false) .empty := rfl

theorem sequence_keeps (Holds : Slots Stmt → Cursor → Prop)
    (round : ∀ done cursor, cursor.stops closes = false → Holds done cursor →
      Holds (done.push (declaration cursor).1) (roundEnd declaration cursor))
    {done : Slots Stmt} {cursor : Cursor} (here : Holds done cursor) :
    let (result, after) := sequence declaration closes done cursor
    Holds result after := by
  -- By induction on the bound: whether it is large enough makes no difference here.
  have rounds (bound : List Token) (done : Slots Stmt) (cursor : Cursor) (here : Holds done cursor) :
      Holds (declarations declaration closes bound done cursor).1
        (declarations declaration closes bound done cursor).2 := by
    induction bound generalizing done cursor with
    | nil => exact here
    | cons token bound ih =>
      rw [declarations_cons]
      cases goes : cursor.stops closes with
      | true => exact here
      | false => exact ih _ _ (round done cursor goes here)
  exact rounds cursor.unread done cursor here

/-- What holds where the loop stops, and in front of every round behind which it holds,
holds everywhere: the rounds come to an end. -/
theorem rounds_induction (onward : Onward declaration) (closes : Kind → Bool)
    {motive : Cursor → Prop} (stop : ∀ cursor, cursor.stops closes = true → motive cursor)
    (round : ∀ cursor, cursor.stops closes = false → motive (roundEnd declaration cursor) →
      motive cursor)
    (cursor : Cursor) : motive cursor := by
  induction length : cursor.unread.length using Nat.strongRecOn generalizing cursor with
  | ind length ih =>
    subst length
    cases ends : cursor.stops closes with
    | true => exact stop cursor ends
    | false =>
      have shorter := roundEnd_unread_length_lt onward (Cursor.unread_ne_nil ends)
      exact round cursor ends (ih _ shorter _ rfl)

/-- The loop ends where it stops, not where the bound on its rounds does. -/
theorem sequence_stops (onward : Onward declaration) (done : Slots Stmt) (cursor : Cursor) :
    (sequence declaration closes done cursor).2.stops closes = true := by
  induction cursor using rounds_induction onward closes generalizing done with
  | stop cursor ends =>
    rw [sequence_apply onward, if_pos ends]
    exact ends
  | round cursor goes ih =>
    rw [sequence_apply onward, goes, if_neg (by decide)]
    exact ih _

theorem Onward.sequence (onward : Onward declaration) (done : Slots Stmt) :
    Onward (sequence declaration closes done) :=
  fun cursor => sequence_keeps (fun _ after => cursor.Onward after)
    (fun _ _ _ before => before.trans (roundEnd_onward onward _)) (.refl cursor)

/-- What the loop adds and where it ends do not depend on what was read before. -/
theorem sequence_adds (onward : Onward declaration) (closes : Kind → Bool) (cursor : Cursor) :
    ∃ (added : List Stmt) (after : Cursor), ∀ done : Slots Stmt,
      (sequence declaration closes done cursor).1.toList = done.toList ++ added ∧
        (sequence declaration closes done cursor).2 = after := by
  induction cursor using rounds_induction onward closes with
  | stop cursor ends =>
    refine ⟨[], cursor, fun done => ?_⟩
    rw [sequence_apply onward, if_pos ends]
    exact ⟨(List.append_nil _).symm, rfl⟩
  | round cursor goes ih =>
    obtain ⟨added, after, further⟩ := ih
    refine ⟨(declaration cursor).1 :: added, after, fun done => ?_⟩
    obtain ⟨grows, same⟩ := further (done.push (declaration cursor).1)
    rw [sequence_apply onward, goes, if_neg (by decide)]
    refine ⟨grows.trans ?_, same⟩
    rw [Slots.toList_push, List.append_assoc, List.singleton_append]

section

variable {s t : List Token} {stmt : Stmt} {done result : Slots Stmt} {look : Option Token}
  {complaint : Complaint}

theorem Accepts.sequence_stop (closed : ∀ token ∈ look, closes token.kind = true) :
    Accepts (sequence declaration closes done) [] done look := by
  intro cursor rest _ unread ahead
  rw [List.nil_append] at unread
  subst rest
  rw [cursor.past_nil]
  cases unread : cursor.unread with
  | nil => simp only [sequence, unread]; rfl
  | cons token rest =>
    have closed' := closed token (by simp [← ahead, unread])
    have stops : cursor.stops closes = true := by simp [Cursor.stops, Cursor.next, unread, closed']
    simp only [sequence, unread, declarations_cons, stops, if_pos]

theorem sequence_of_accepts (onward : Onward declaration) (some : s ≠ [])
    (opens : ∀ token ∈ s.head?, closes token.kind = false)
    (first : Accepts declaration s stmt look) {cursor : Cursor} {rest : List Token}
    (calm : cursor.panicking = false) (unread : cursor.unread = s ++ rest)
    (ahead : rest.head? = look) :
    sequence declaration closes done cursor =
      sequence declaration closes (done.push stmt) (cursor.past s rest) := by
  have accepted := first cursor rest calm unread ahead
  obtain ⟨token, s', rfl⟩ := List.exists_cons_of_ne_nil some
  have goes : cursor.stops closes = false := by
    simp [Cursor.stops, Cursor.next, unread, opens token rfl]
  have settled : (cursor.past (token :: s') rest).recover = cursor.past (token :: s') rest :=
    Cursor.recover_of_calm calm
  have round : roundEnd declaration cursor = cursor.past (token :: s') rest := by
    simp [roundEnd, accepted, settled, Cursor.progressSince]
  rw [sequence_apply onward, goes, if_neg (by simp), accepted, round]

theorem Accepts.sequence_next (onward : Onward declaration) (some : s ≠ [])
    (opens : ∀ token ∈ s.head?, closes token.kind = false)
    (first : Accepts declaration s stmt (t.head?.or look))
    (next : Accepts (sequence declaration closes (done.push stmt)) t result look) :
    Accepts (sequence declaration closes done) (s ++ t) result look := by
  intro cursor rest calm unread ahead
  rw [List.append_assoc] at unread
  rw [sequence_of_accepts onward some opens first calm unread (by simp [ahead]),
    ← Cursor.past_past]
  exact next _ rest calm rfl ahead

theorem Rejects.sequence_here (onward : Onward declaration)
    (opens : ∃ token ∈ s.head?.or look, closes token.kind = false)
    (first : Rejects declaration s complaint look) :
    Rejects (sequence declaration closes done) s complaint look := by
  intro cursor rest calm unread ahead
  obtain ⟨failed, report⟩ := first cursor rest calm unread ahead
  obtain ⟨token, found, opens⟩ := opens
  have next : cursor.unread.head? = some token := by simpa [unread, ahead] using found
  have goes : cursor.stops closes = false := by
    obtain ⟨rest', same⟩ := List.head?_eq_some_iff.mp next
    simp [Cursor.stops, Cursor.next, same, opens]
  have further := (Cursor.onward_recover (declaration cursor).2).trans
    (Cursor.onward_progressSince cursor.consumed _)
  have rounds : (roundEnd declaration cursor).Onward (sequence declaration closes
      (done.push (declaration cursor).1) (roundEnd declaration cursor)).2 :=
    Onward.sequence onward _ _
  rw [sequence_apply onward, goes, if_neg (by simp)]
  exact ⟨rounds.hadError (further.hadError failed),
    report.trans (further.reported.trans rounds.reported)⟩

theorem Rejects.sequence_next (onward : Onward declaration) (some : s ≠ [])
    (opens : ∀ token ∈ s.head?, closes token.kind = false)
    (first : Accepts declaration s stmt (t.head?.or look))
    (next : Rejects (sequence declaration closes (done.push stmt)) t complaint look) :
    Rejects (sequence declaration closes done) (s ++ t) complaint look := by
  intro cursor rest calm unread ahead
  rw [List.append_assoc] at unread
  rw [sequence_of_accepts onward some opens first calm unread (by simp [ahead])]
  exact next (cursor.past s (t ++ rest)) rest calm rfl ahead

end

/-- The loop accepts parts up to a closing token, unless a part is rejected. -/
theorem Verdict.sequence {declaration : Nat → Read Stmt} {room depth : Nat}
    {Part : List Token → Stmt → Prop} {Start : List Token → Prop}
    (onward : ∀ more, Onward (declaration more))
    (judged : ∀ unread, Verdict declaration room unread (fun s stmt _ => s ≠ [] ∧ Part s stmt)
      Start depth)
    (unread : List Token) (done : Slots Stmt) :
    Verdict (fun more => Read.sequence (declaration more) closes done) room unread
      (fun s slots look => ∃ parts : List (List Token × Stmt),
        (∀ part ∈ parts, Part part.1 part.2) ∧ s = parts.flatMap Prod.fst ∧
          slots = (parts.map Prod.snd).foldl Slots.push done ∧
          ∀ token ∈ look, closes token.kind = true)
      (fun s => ∃ (parts : List (List Token × Stmt)) (rest : List Token),
        (∀ part ∈ parts, Part part.1 part.2) ∧ s = parts.flatMap Prod.fst ++ rest ∧ Start rest)
      depth := by
  induction length : unread.length using Nat.strongRecOn generalizing unread done with
  | ind length ih =>
    subst length
    by_cases closed : ∀ token ∈ unread.head?, closes token.kind = true
    · exact .accepts (s := []) rfl (fun _ _ => .sequence_stop closed) ⟨[], by simpa using closed⟩
    obtain ⟨token, rest, rfl, opens⟩ :
        ∃ token rest, unread = token :: rest ∧ closes token.kind = false := by
      cases unread <;> simp_all
    have head : ∀ {s t : List Token}, token :: rest = s ++ t → s.head?.or t.head? = some token := by
      intro s t split
      rw [← List.head?_append, ← split, List.head?_cons]
    cases judged (token :: rest) with
    | rejects split rejected start =>
      exact .rejects split
        (fun more enough => .sequence_here (onward more) ⟨token, head split, opens⟩
          (rejected more enough)) ⟨[], _, by simp, rfl, start⟩
    | tooDeep split rejected passed =>
      exact .tooDeep split (.sequence_here (onward room) ⟨token, head split, opens⟩ rejected) passed
    | @accepts s stmt t split accepted good =>
      obtain ⟨some, part⟩ := good
      have opens' : ∀ token ∈ s.head?, closes token.kind = false := by
        intro other found
        have same := head split
        rw [Option.mem_def.mp found, Option.some_or, Option.some.injEq] at same
        exact same ▸ opens
      have shorter : t.length < (token :: rest).length := by
        have positive := List.length_pos_iff.mpr some
        rw [split, List.length_append]
        omega
      cases ih _ shorter t (done.push stmt) rfl with
      | @accepts s' slots t' split' accepted' found =>
        subst t
        obtain ⟨parts, each, rfl, rfl, ends⟩ := found
        have accepted'' : ∀ more, room ≤ more →
            Accepts (Read.sequence (declaration more) closes done) _ _ t'.head? :=
          fun more enough => .sequence_next (onward more) some opens'
            (by simpa only [List.head?_append] using accepted more enough) (accepted' more enough)
        exact .accepts (by simp [split]) accepted''
          ⟨(s, stmt) :: parts, List.forall_mem_cons.mpr ⟨part, each⟩, by simp, by simp, ends⟩
      | @rejects s' complaint t' split' rejected start =>
        subst t
        obtain ⟨parts, rest', each, rfl, start⟩ := start
        have rejected' : ∀ more, room ≤ more →
            Rejects (Read.sequence (declaration more) closes done) _ complaint t'.head? :=
          fun more enough => .sequence_next (onward more) some opens'
            (by simpa only [List.head?_append] using accepted more enough) (rejected more enough)
        exact .rejects (by simp [split]) rejected'
          ⟨(s, stmt) :: parts, rest', List.forall_mem_cons.mpr ⟨part, each⟩, by simp, start⟩
      | @tooDeep s' t' split' rejected passed =>
        subst t
        have rejected' : Rejects (Read.sequence (declaration room) closes done) _ .tooMuchNesting
            t'.head? :=
          .sequence_next (onward room) some opens'
            (by simpa only [List.head?_append] using accepted room (Nat.le_refl room)) rejected
        refine .tooDeep (by simp [split]) rejected' ?_
        rw [List.length_append]
        omega

end Read

end ScriptTree
