import ScriptTree.Proofs.Lookahead

/-! What becomes of a text under a reader that is given more or less room. Either
the reader accepts a front part of the text, or it rejects a token, and then more
room makes no difference; or the room is used up. The laws below follow a reader
step by step, with what was already passed in front. -/
namespace ScriptTree.Read

/-- A reader at the front of a text, given `room` or more. `Good` is known of what
it accepts, `Viable` of what it passes before it rejects, and it needs to pass
`depth` tokens before the room is used up. -/
inductive Verdict {α : Type} (p : Nat → Read α) (room : Nat) (unread : List Token)
    (Good : List Token → α → Option Token → Prop) (Viable : List Token → Prop) (depth : Nat) :
    Prop where
  | accepts {s : List Token} {a : α} {t : List Token} :
      unread = s ++ t → (∀ more, room ≤ more → Accepts (p more) s a t.head?) →
      Good s a t.head? → Verdict p room unread Good Viable depth
  | rejects {s : List Token} {complaint : Complaint} {t : List Token} :
      unread = s ++ t → (∀ more, room ≤ more → Rejects (p more) s complaint t.head?) →
      Viable s → Verdict p room unread Good Viable depth
  | tooDeep {s t : List Token} :
      unread = s ++ t → Rejects (p room) s .tooMuchNesting t.head? → depth ≤ s.length →
      Verdict p room unread Good Viable depth

namespace Verdict

variable {α β : Type} {room depth depth' : Nat} {unread : List Token}
  {Good : List Token → β → Option Token → Prop} {Viable : List Token → Prop}

theorem pure {b : β} (good : Good [] b unread.head?) :
    Verdict (fun _ => pure b) room unread Good Viable depth :=
  .accepts rfl (fun _ _ => .pure) good

theorem after {p : Nat → Read α} {f : Nat → α → Read β} {s t : List Token} {a : α}
    (split : unread = s ++ t) (accepted : ∀ more, room ≤ more → Accepts (p more) s a t.head?)
    (next : Verdict (fun more => f more a) room t (fun r => Good (s ++ r))
      (fun r => Viable (s ++ r)) (depth - s.length)) :
    Verdict (fun more => p more >>= f more) room unread Good Viable depth := by
  cases next with
  | @accepts r b t' split' accepted' good =>
    subst t
    have accepted'' : ∀ more, room ≤ more → Accepts (p more >>= f more) (s ++ r) b t'.head? := by
      intro more enough
      exact .bind (by simpa using accepted more enough) (accepted' more enough)
    exact .accepts (by simp [split]) accepted'' good
  | @rejects r complaint t' split' rejected viable =>
    subst t
    have rejected' : ∀ more, room ≤ more →
        Rejects (p more >>= f more) (s ++ r) complaint t'.head? := by
      intro more enough
      exact Accepts.bind_rejects (by simpa using accepted more enough) (rejected more enough)
    exact .rejects (by simp [split]) rejected' viable
  | @tooDeep r t' split' rejected passed =>
    subst t
    refine .tooDeep (s := s ++ r) (t := t') (by simp [split]) ?_ ?_
    · exact Accepts.bind_rejects (by simpa using accepted room (Nat.le_refl room)) rejected
    · rw [List.length_append]
      omega

theorem bind {p : Nat → Read α} {f : Nat → α → Read β}
    {First : List Token → α → Option Token → Prop} {Start : List Token → Prop}
    (first : Verdict p room unread First Start depth') (onward : ∀ more a, Onward (f more a))
    (viable : ∀ s, Start s → Viable s) (deeper : depth ≤ depth')
    (next : ∀ s a t, unread = s ++ t → First s a t.head? →
      Verdict (fun more => f more a) room t (fun r => Good (s ++ r)) (fun r => Viable (s ++ r))
        (depth - s.length)) :
    Verdict (fun more => p more >>= f more) room unread Good Viable depth := by
  cases first with
  | accepts split accepted good => exact after split accepted (next _ _ _ split good)
  | rejects split rejected start =>
    exact .rejects split (fun more enough => (rejected more enough).bind (onward more))
      (viable _ start)
  | tooDeep split rejected passed =>
    exact .tooDeep split (rejected.bind (onward room)) (Nat.le_trans deeper passed)

theorem congr {p q : Nat → Read β}
    (same : ∀ more cursor, cursor.panicking = false → p more cursor = q more cursor)
    (verdict : Verdict q room unread Good Viable depth) :
    Verdict p room unread Good Viable depth := by
  cases verdict with
  | accepts split accepted good =>
    exact .accepts split (fun more enough => (accepted more enough).congr (same more)) good
  | rejects split rejected viable =>
    exact .rejects split (fun more enough => (rejected more enough).congr (same more)) viable
  | tooDeep split rejected passed => exact .tooDeep split (rejected.congr (same room)) passed

theorem imp {p : Nat → Read β} {Better : List Token → β → Option Token → Prop}
    {Start : List Token → Prop} (verdict : Verdict p room unread Better Start depth')
    (good : ∀ s b t, unread = s ++ t → Better s b t.head? → Good s b t.head?)
    (viable : ∀ s, Start s → Viable s) (deeper : depth ≤ depth') :
    Verdict p room unread Good Viable depth := by
  cases verdict with
  | accepts split accepted better => exact .accepts split accepted (good _ _ _ split better)
  | rejects split rejected start => exact .rejects split rejected (viable _ start)
  | tooDeep split rejected passed => exact .tooDeep split rejected (Nat.le_trans deeper passed)

theorem take? {pick : Token → Option α} {f : Nat → Option α → Read β}
    (hit : ∀ token a t, unread = token :: t → pick token = some a →
      Verdict (fun more => f more (some a)) room t (fun r => Good (token :: r))
        (fun r => Viable (token :: r)) (depth - 1))
    (miss : (∀ token ∈ unread.head?, pick token = none) →
      Verdict (fun more => f more none) room unread Good Viable depth) :
    Verdict (fun more => Read.take? pick >>= f more) room unread Good Viable depth := by
  by_cases missed : ∀ token ∈ unread.head?, pick token = none
  · exact after (s := []) rfl (fun _ _ => .take?_miss missed) (miss missed)
  · obtain ⟨token, t, a, rfl, picked⟩ :
        ∃ token t a, unread = token :: t ∧ pick token = some a := by
      cases unread with
      | nil => simp at missed
      | cons token t => simpa [Option.ne_none_iff_exists'] using missed
    exact after (s := [token]) rfl (fun _ _ => .take? picked) (hit token a t rfl picked)

theorem accept {kind : Kind} {f : Nat → Option Token → Read β}
    (hit : ∀ token t, unread = token :: t → token.kind = kind →
      Verdict (fun more => f more (some token)) room t (fun r => Good (token :: r))
        (fun r => Viable (token :: r)) (depth - 1))
    (miss : (∀ token ∈ unread.head?, token.kind ≠ kind) →
      Verdict (fun more => f more none) room unread Good Viable depth) :
    Verdict (fun more => Read.accept kind >>= f more) room unread Good Viable depth := by
  refine take? ?_ (fun missed => miss (by simpa using missed))
  intro token a t split picked
  obtain ⟨here, rfl⟩ : token.kind = kind ∧ token = a := by simpa using picked
  exact hit token t split here

theorem acceptAny {kinds : List Kind} {f : Nat → Option Token → Read β}
    (hit : ∀ token t, unread = token :: t → token.kind ∈ kinds →
      Verdict (fun more => f more (some token)) room t (fun r => Good (token :: r))
        (fun r => Viable (token :: r)) (depth - 1))
    (miss : (∀ token ∈ unread.head?, token.kind ∉ kinds) →
      Verdict (fun more => f more none) room unread Good Viable depth) :
    Verdict (fun more => Read.acceptAny kinds >>= f more) room unread Good Viable depth := by
  refine take? ?_ (fun missed => miss (by simpa using missed))
  intro token a t split picked
  obtain ⟨here, rfl⟩ : token.kind ∈ kinds ∧ token = a := by simpa using picked
  exact hit token t split here

theorem complain {complaint : Complaint} {f : Nat → Unit → Read β}
    (onward : ∀ more a, Onward (f more a)) (viable : Viable []) :
    Verdict (fun more => complain complaint >>= f more) room unread Good Viable depth :=
  .rejects (s := []) rfl (fun more _ => Rejects.complain.bind (onward more)) viable

theorem expect {kind : Kind} {complaint : Complaint} {f : Nat → Option Token → Read β}
    (onward : ∀ more a, Onward (f more a)) (viable : Viable [])
    (next : ∀ token t, unread = token :: t → token.kind = kind →
      Verdict (fun more => f more (some token)) room t (fun r => Good (token :: r))
        (fun r => Viable (token :: r)) (depth - 1)) :
    Verdict (fun more => Read.expect kind complaint >>= f more) room unread Good Viable depth := by
  by_cases missed : ∀ token ∈ unread.head?, token.kind ≠ kind
  · exact .rejects (s := []) rfl (fun more _ => (Rejects.expect missed).bind (onward more)) viable
  · obtain ⟨token, t, rfl, hit⟩ : ∃ token t, unread = token :: t ∧ token.kind = kind := by
      cases unread with
      | nil => simp at missed
      | cons token t => simpa using missed
    exact after (s := [token]) rfl (fun _ _ => .expect hit) (next token t rfl hit)

theorem deeper {p q : Nat → Read β} {inner : Nat} (level : ∀ inner, q (inner + 1) = p inner)
    (body : Verdict p inner unread Good Viable depth) :
    Verdict q (inner + 1) unread Good Viable depth := by
  have unfolded : ∀ more, inner + 1 ≤ more → ∃ further, inner ≤ further ∧ q more = p further := by
    intro more enough
    obtain ⟨further, rfl⟩ : ∃ further, more = further + 1 := ⟨more - 1, by omega⟩
    exact ⟨further, by omega, level further⟩
  cases body with
  | accepts split accepted good =>
    refine .accepts split (fun more enough => ?_) good
    obtain ⟨further, wide, same⟩ := unfolded more enough
    exact same ▸ accepted further wide
  | @rejects s complaint t split rejected viable =>
    have rejected' : ∀ more, inner + 1 ≤ more → Rejects (q more) s complaint t.head? := by
      intro more enough
      obtain ⟨further, wide, same⟩ := unfolded more enough
      exact same ▸ rejected further wide
    exact .rejects split rejected' viable
  | tooDeep split rejected passed => exact .tooDeep split (level inner ▸ rejected) passed

/-- Without room for one level more the reader stops where it stands. -/
theorem nested {p : Nat → Read (Option α)} {Good : List Token → Option α → Option Token → Prop}
    (body : ∀ inner, room = inner + 1 → Verdict p inner unread Good Viable room) :
    Verdict (fun more => Read.nested more fun inner _ => p inner) room unread Good Viable room := by
  cases room with
  | zero => exact .tooDeep (s := []) rfl (Rejects.complain.bind fun _ => .pure _) (Nat.zero_le _)
  | succ inner => exact .deeper (fun _ => rfl) (body inner rfl)

end Verdict

end ScriptTree.Read
