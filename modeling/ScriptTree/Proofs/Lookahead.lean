import ScriptTree.Reader.Cursor

/-! Reading with one token of lookahead. A reader that is not panicking either
accepts some tokens and answers a value, or rejects the token behind the ones
it has passed: that token heads the first report. Both depend on the tokens
passed and on the next one only, so they say the same of every text that
starts with these. -/
namespace ScriptTree

/-- What every reader leaves behind: it passes over tokens from the front, it takes
no report back, and it raises the flag exactly if it adds one. -/
structure Cursor.Onward (before after : Cursor) : Prop where
  stop : after.stop = before.stop
  passed : ∃ tokens, before.unread = tokens ++ after.unread ∧
    after.consumed = before.consumed + tokens.length
  told : ∃ reports, after.reported = reports ++ before.reported ∧
    (after.hadError = true ↔ before.hadError = true ∨ reports ≠ [])

namespace Cursor

theorem Onward.hadError {before after : Cursor} (onward : before.Onward after)
    (raised : before.hadError = true) : after.hadError = true := by
  obtain ⟨reports, -, flag⟩ := onward.told
  exact flag.mpr (.inl raised)

theorem Onward.reported {before after : Cursor} (onward : before.Onward after) :
    before.reported <:+ after.reported := by
  obtain ⟨reports, added, -⟩ := onward.told
  exact ⟨reports, added.symm⟩

theorem Onward.unread_length_le {before after : Cursor} (onward : before.Onward after) :
    after.unread.length ≤ before.unread.length := by
  obtain ⟨tokens, split, -⟩ := onward.passed
  rw [split, List.length_append]
  exact Nat.le_add_left _ _

theorem Onward.refl (cursor : Cursor) : cursor.Onward cursor :=
  ⟨rfl, ⟨[], by simp⟩, ⟨[], by simp⟩⟩

theorem Onward.trans {first second third : Cursor} (before : first.Onward second)
    (after : second.Onward third) : first.Onward third := by
  obtain ⟨left, split, counted⟩ := before.passed
  obtain ⟨right, split', counted'⟩ := after.passed
  obtain ⟨reports, added, flag⟩ := before.told
  obtain ⟨reports', added', flag'⟩ := after.told
  refine ⟨after.stop.trans before.stop, ⟨left ++ right, ?_, ?_⟩, ⟨reports' ++ reports, ?_, ?_⟩⟩
  · rw [split, split', List.append_assoc]
  · rw [counted', counted, List.length_append, Nat.add_assoc]
  · rw [added', added, List.append_assoc]
  · have some : reports' ++ reports ≠ [] ↔ reports ≠ [] ∨ reports' ≠ [] := by
      cases reports <;> cases reports' <;> simp
    rw [flag', flag, some, or_assoc]

theorem onward_advance (cursor : Cursor) : cursor.Onward cursor.advance := by
  unfold advance
  split
  next => exact .refl cursor
  next token rest unread => exact ⟨rfl, ⟨[token], by simp [unread]⟩, ⟨[], by simp⟩⟩

theorem onward_report (cursor : Cursor) (token : Token) (complaint : Complaint) :
    cursor.Onward (cursor.report token complaint) := by
  unfold report
  split
  · exact .refl cursor
  · exact ⟨rfl, ⟨[], by simp⟩, ⟨[_], rfl, by simp⟩⟩

theorem report_unread (cursor : Cursor) (token : Token) (complaint : Complaint) :
    (cursor.report token complaint).unread = cursor.unread := by
  unfold report
  split <;> rfl

theorem skipStatement_append (skipped : Nat) (unread : List Token) :
    ∃ tokens, unread = tokens ++ (skipStatement skipped unread).1 ∧
      (skipStatement skipped unread).2 = skipped + tokens.length := by
  induction unread generalizing skipped with
  | nil => exact ⟨[], by simp [skipStatement]⟩
  | cons token rest ih =>
    unfold skipStatement
    split
    · exact ⟨[token], by simp⟩
    · split
      · exact ⟨[], by simp⟩
      · obtain ⟨tokens, split, counted⟩ := ih (skipped + 1)
        refine ⟨token :: tokens, ?_, ?_⟩
        · rw [List.cons_append, ← split]
        · rw [counted, List.length_cons]
          omega

theorem onward_synchronize (cursor : Cursor) : cursor.Onward cursor.synchronize := by
  obtain ⟨tokens, split, counted⟩ := skipStatement_append 0 cursor.unread
  exact ⟨rfl, ⟨tokens, split, by simp [synchronize, counted]⟩, ⟨[], rfl, by simp [synchronize]⟩⟩

theorem onward_recover (cursor : Cursor) : cursor.Onward cursor.recover := by
  unfold recover
  split
  · exact onward_synchronize cursor
  · exact .refl cursor

theorem onward_progressSince (before : Nat) (cursor : Cursor) :
    cursor.Onward (progressSince before cursor) := by
  unfold progressSince
  split
  · exact onward_advance cursor
  · exact .refl cursor

/-- A cursor behind the tokens that stood in front of `rest`. -/
def past (cursor : Cursor) (tokens rest : List Token) : Cursor :=
  { cursor with unread := rest, consumed := cursor.consumed + tokens.length }

@[simp] theorem past_unread (cursor : Cursor) (tokens rest : List Token) :
    (cursor.past tokens rest).unread = rest := rfl

@[simp] theorem past_panicking (cursor : Cursor) (tokens rest : List Token) :
    (cursor.past tokens rest).panicking = cursor.panicking := rfl

@[simp] theorem past_stop (cursor : Cursor) (tokens rest : List Token) :
    (cursor.past tokens rest).stop = cursor.stop := rfl

@[simp] theorem past_hadError (cursor : Cursor) (tokens rest : List Token) :
    (cursor.past tokens rest).hadError = cursor.hadError := rfl

@[simp] theorem past_reported (cursor : Cursor) (tokens rest : List Token) :
    (cursor.past tokens rest).reported = cursor.reported := rfl

@[simp] theorem past_consumed (cursor : Cursor) (tokens rest : List Token) :
    (cursor.past tokens rest).consumed = cursor.consumed + tokens.length := rfl

@[simp] theorem past_past (cursor : Cursor) (left right middle rest : List Token) :
    (cursor.past left middle).past right rest = cursor.past (left ++ right) rest := by
  simp [past, Nat.add_assoc]

theorem past_nil (cursor : Cursor) : cursor.past [] cursor.unread = cursor := rfl

end Cursor

namespace Read

variable {α β : Type}

theorem bind_apply (p : Read α) (f : α → Read β) (cursor : Cursor) :
    (p >>= f) cursor = f (p cursor).1 (p cursor).2 := rfl

theorem take?_of_miss {pick : Token → Option α} {cursor : Cursor}
    (miss : ∀ token ∈ cursor.unread.head?, pick token = none) :
    take? pick cursor = (none, cursor) := by
  unfold take?
  split
  next => rfl
  next token rest unread => rw [miss token (by simp [unread])]

def Onward (p : Read α) : Prop :=
  ∀ cursor : Cursor, cursor.Onward (p cursor).2

theorem Onward.pure (a : α) : Onward (pure a : Read α) := fun cursor => .refl cursor

theorem Onward.bind {p : Read α} {f : α → Read β} (first : Onward p)
    (next : ∀ a, Onward (f a)) : Onward (p >>= f) :=
  fun cursor => (first cursor).trans (next _ _)

theorem Onward.modify {change : Cursor → Cursor} (onward : ∀ cursor, Cursor.Onward cursor (change cursor)) :
    Onward (modify change : Read Unit) := onward

theorem Onward.take? (pick : Token → Option α) : Onward (take? pick) := by
  intro cursor
  unfold Read.take?
  split
  next => exact .refl cursor
  next =>
    split
    · exact cursor.onward_advance
    · exact .refl cursor

theorem Onward.complain (complaint : Complaint) : Onward (complain complaint) :=
  .modify fun cursor => cursor.onward_report cursor.next complaint

theorem Onward.expect (kind : Kind) (complaint : Complaint) : Onward (expect kind complaint) := by
  apply Onward.bind (.take? _)
  intro found
  cases found with
  | some token => exact .pure _
  | none => exact .bind (.complain complaint) fun _ => .pure _

/-- From a calm cursor in front of `tokens` and a text that starts with `look`
the reader passes over `tokens`, answers `a` and reports nothing. -/
def Accepts (p : Read α) (tokens : List Token) (a : α) (look : Option Token) : Prop :=
  ∀ (cursor : Cursor) (rest : List Token), cursor.panicking = false →
    cursor.unread = tokens ++ rest → rest.head? = look → p cursor = (a, cursor.past tokens rest)

/-- From a calm cursor in front of `tokens` and a text that starts with `look`
the first report of the reader is `complaint` at `look`, which is the end of
input if there is nothing. -/
def Rejects (p : Read α) (tokens : List Token) (complaint : Complaint) (look : Option Token) :
    Prop :=
  ∀ (cursor : Cursor) (rest : List Token), cursor.panicking = false →
    cursor.unread = tokens ++ rest → rest.head? = look →
      (p cursor).2.hadError = true ∧
        Diagnostic.ofToken (look.getD cursor.stop) complaint.message :: cursor.reported <:+
          (p cursor).2.reported

section

variable {p : Read α} {f : α → Read β} {s t : List Token} {a : α} {b : β}
  {look : Option Token} {complaint : Complaint}

theorem Accepts.congr {q : Read α} (accepted : Accepts q s a look)
    (same : ∀ cursor, cursor.panicking = false → p cursor = q cursor) : Accepts p s a look := by
  intro cursor rest calm unread ahead
  rw [same cursor calm]
  exact accepted cursor rest calm unread ahead

theorem Rejects.congr {q : Read α} (rejected : Rejects q s complaint look)
    (same : ∀ cursor, cursor.panicking = false → p cursor = q cursor) :
    Rejects p s complaint look := by
  intro cursor rest calm unread ahead
  rw [same cursor calm]
  exact rejected cursor rest calm unread ahead

theorem Accepts.pure : Accepts (pure a) [] a look := by
  intro cursor rest _ unread _
  rw [List.nil_append] at unread
  rw [← unread, cursor.past_nil]
  rfl

theorem Accepts.bind (first : Accepts p s a (t.head?.or look))
    (next : Accepts (f a) t b look) : Accepts (p >>= f) (s ++ t) b look := by
  intro cursor rest calm unread ahead
  have done := first cursor (t ++ rest) calm (by simp [unread]) (by simp [ahead])
  rw [bind_apply, done, ← Cursor.past_past]
  exact next _ rest calm rfl ahead

theorem Accepts.eq_nil (whole : Accepts p (s ++ t) a none) {b : α}
    (short : Accepts p s b t.head?) : t = [] := by
  let cursor := Cursor.start ⟨s ++ t, ⟨.endOfInput, "", 1⟩⟩
  have read := whole cursor [] rfl (List.append_nil _).symm rfl
  rw [short cursor t rfl rfl rfl] at read
  exact congrArg (fun result => result.2.unread) read

theorem Accepts.not_rejects (whole : Accepts p (s ++ t) a none) :
    ¬ Rejects p s complaint t.head? := by
  intro rejected
  let cursor := Cursor.start ⟨s ++ t, ⟨.endOfInput, "", 1⟩⟩
  obtain ⟨raised, -⟩ := rejected cursor t rfl rfl rfl
  rw [whole cursor [] rfl (List.append_nil _).symm rfl] at raised
  contradiction

theorem Rejects.bind (first : Rejects p s complaint look) (onward : ∀ a, Onward (f a)) :
    Rejects (p >>= f) s complaint look := by
  intro cursor rest calm unread ahead
  obtain ⟨failed, report⟩ := first cursor rest calm unread ahead
  have further := onward (p cursor).1 (p cursor).2
  exact ⟨further.hadError failed, report.trans further.reported⟩

theorem Accepts.bind_rejects (first : Accepts p s a (t.head?.or look))
    (next : Rejects (f a) t complaint look) :
    Rejects (p >>= f) (s ++ t) complaint look := by
  intro cursor rest calm unread ahead
  have done := first cursor (t ++ rest) calm (by simp [unread]) (by simp [ahead])
  rw [bind_apply, done]
  exact next (cursor.past s (t ++ rest)) rest calm rfl ahead

theorem Accepts.last (first : Accepts p s a look) (next : Accepts (f a) [] b look) :
    Accepts (p >>= f) s b look := by
  rw [← List.append_nil s]
  exact .bind first next

theorem Accepts.take? {pick : Token → Option α} {token : Token} (hit : pick token = some a) :
    Accepts (take? pick) [token] (some a) look := by
  intro cursor rest _ unread _
  simp [Read.take?, unread, hit, Cursor.advance, Cursor.past]

theorem Accepts.take?_miss {pick : Token → Option α} (miss : ∀ token ∈ look, pick token = none) :
    Accepts (Read.take? pick) [] none look := by
  intro cursor rest _ unread ahead
  rw [List.nil_append] at unread
  subst rest
  rw [cursor.past_nil]
  exact take?_of_miss (by rwa [ahead])

theorem Accepts.accept {kind : Kind} {token : Token} (hit : token.kind = kind) :
    Accepts (accept kind) [token] (some token) look :=
  .take? (by simp [hit])

theorem Accepts.accept_miss {kind : Kind} (miss : ∀ token ∈ look, token.kind ≠ kind) :
    Accepts (Read.accept kind) [] none look :=
  .take?_miss fun token found => by simp [miss token found]

theorem Accepts.acceptAny {kinds : List Kind} {token : Token} (hit : token.kind ∈ kinds) :
    Accepts (acceptAny kinds) [token] (some token) look :=
  .take? (by simp [hit])

theorem Accepts.acceptAny_miss {kinds : List Kind} (miss : ∀ token ∈ look, token.kind ∉ kinds) :
    Accepts (Read.acceptAny kinds) [] none look :=
  .take?_miss fun token found => by simp [miss token found]

theorem Accepts.expect {kind : Kind} {token : Token} (hit : token.kind = kind) :
    Accepts (expect kind complaint) [token] (some token) look :=
  .bind (.accept hit) .pure

theorem Accepts.nested {room inner : Nat} {body : (inner : Nat) → inner < room → Read (Option α)}
    {value : Option α} (level : room = inner + 1)
    (accepts : ∀ bound, Accepts (body inner bound) s value look) :
    Accepts (Read.nested room body) s value look := by
  subst level
  exact accepts _

theorem Rejects.complain : Rejects (complain complaint) [] complaint look := by
  intro cursor rest calm unread ahead
  have blamed : cursor.next = look.getD cursor.stop := by
    rw [Cursor.next, unread, ← ahead]
    cases rest <;> rfl
  change (cursor.report cursor.next complaint).hadError = true ∧
    _ <:+ (cursor.report cursor.next complaint).reported
  simp [Cursor.report, calm, blamed]

theorem Rejects.expect {kind : Kind} (miss : ∀ token ∈ look, token.kind ≠ kind) :
    Rejects (expect kind complaint) [] complaint look :=
  Accepts.bind_rejects (t := []) (.accept_miss (by simpa using miss)) (.bind .complain fun _ => .pure _)

end

end Read

end ScriptTree
