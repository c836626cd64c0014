import Mathlib.Algebra.GroupWithZero.Nat
import Mathlib.Algebra.Order.Group.Nat
import Mathlib.Order.Bounds.Defs
import ScriptTree.Proofs.PrintedForm

/-! How many slots a sequence has. Slots are taken only when all of them are full, and how many
is told from those that were there before; still their number depends on nothing but the number
of items. It is the least of eight, sixteen, thirty-two and so on that holds them, whatever was
pushed, taken and cleared before, and so it is in every tree that is read. -/
namespace ScriptTree

namespace Slots

variable {α : Type}

/-- No slots for no items, and otherwise the least number of them that growing can give. -/
def Snug (slots : Slots α) : Prop :=
  if slots.size = 0 then slots.capacity = 0
  else IsLeast {capacity | (∃ j, capacity = 8 * 2 ^ j) ∧ slots.size ≤ capacity} slots.capacity

theorem snug_empty : (empty : Slots α).Snug := rfl

theorem snug_of_size_ne_zero {slots : Slots α} (some : slots.size ≠ 0) :
    slots.Snug ↔
      IsLeast {capacity | (∃ j, capacity = 8 * 2 ^ j) ∧ slots.size ≤ capacity} slots.capacity := by
  rw [Snug, if_neg some]

theorem capacity_push (slots : Slots α) (item : α) :
    (slots.push item).capacity =
      if slots.size = slots.capacity then grown slots.capacity else slots.capacity := rfl

theorem isLeast_grown {capacity : Nat} (reached : capacity = 0 ∨ ∃ j, capacity = 8 * 2 ^ j) :
    IsLeast {larger | (∃ j, larger = 8 * 2 ^ j) ∧ capacity + 1 ≤ larger} (grown capacity) := by
  obtain rfl | ⟨j, rfl⟩ := reached
  · refine ⟨⟨⟨0, rfl⟩, by decide⟩, ?_⟩
    rintro _ ⟨⟨j, rfl⟩, -⟩
    have positive : 0 < 2 ^ j := Nat.two_pow_pos j
    change 8 ≤ 8 * 2 ^ j
    omega
  · have positive : 0 < 2 ^ j := Nat.two_pow_pos j
    have doubled : grown (8 * 2 ^ j) = 8 * 2 ^ (j + 1) := by
      rw [grown, if_neg (by omega), pow_succ, mul_assoc]
    rw [doubled]
    refine ⟨⟨⟨j + 1, rfl⟩, by rw [pow_succ]; omega⟩, ?_⟩
    rintro _ ⟨⟨k, rfl⟩, larger⟩
    have higher : j < k := (Nat.pow_lt_pow_iff_right (by decide)).mp (by omega : 2 ^ j < 2 ^ k)
    exact Nat.mul_le_mul_left 8 (Nat.pow_le_pow_right (by decide) higher)

theorem Snug.push {slots : Slots α} (snug : slots.Snug) (item : α) : (slots.push item).Snug := by
  rw [snug_of_size_ne_zero (by simp), size_push, capacity_push]
  split
  next full =>
    rw [full]
    apply isLeast_grown
    unfold Snug at snug
    split at snug
    · exact .inl snug
    · exact .inr snug.1.1
  next room =>
    have some : slots.size ≠ 0 := by
      intro none
      rw [Snug, if_pos none] at snug
      exact room (none.trans snug.symm)
    obtain ⟨⟨form, enough⟩, least⟩ := (snug_of_size_ne_zero some).mp snug
    refine ⟨⟨form, by omega⟩, ?_⟩
    rintro larger ⟨form', enough'⟩
    exact least ⟨form', by omega⟩

theorem Snug.foldl_push {slots : Slots α} (snug : slots.Snug) (items : List α) :
    (items.foldl Slots.push slots).Snug := by
  induction items generalizing slots with
  | nil => exact snug
  | cons item rest ih => exact ih (snug.push item)

/-- What can be done to a sequence. Collecting items puts a new sequence in its place. -/
inductive Act (α : Type) where
  | push (item : α)
  | clear
  | collect (items : List α)
  | take

def act (slots : Slots α) : Act α → Slots α
  | .push item => slots.push item
  | .clear => slots.clear
  | .collect items => .ofList items
  | .take => slots.take.2

/-- An act as a row of items that are pushed and of times at which all are dropped. -/
def Act.trace : Act α → List (Option α)
  | push item => [some item]
  | clear | take => [none]
  | collect items => none :: items.map some

def pushedSince (history : List (Act α)) : List α :=
  ((history.flatMap Act.trace).reverse.takeWhile Option.isSome).reverse.filterMap id

def word? (number : Nat) : Option Nat :=
  if number < UInt64.size then some number else none

def less? (number part : Nat) : Option Nat :=
  if part ≤ number then some (number - part) else none

def grown? (capacity : Nat) : Option Nat :=
  if capacity < 8 then some 8 else word? (capacity * 2)

/-- A push in machine words, unless a number on the way is none. What is asked for are slots
beyond the items. -/
def push? (slots : Slots α) (item : α) : Option (Slots α) :=
  if slots.size = slots.capacity then do
    let target ← grown? slots.capacity
    let more ← less? target slots.size
    let capacity ← word? (slots.size + more)
    return ⟨slots.items.push item, capacity⟩
  else some ⟨slots.items.push item, slots.capacity⟩

def act? (slots : Slots α) : Act α → Option (Slots α)
  | .push item => slots.push? item
  | .clear => some slots.clear
  | .collect items => items.foldlM push? empty
  | .take => some slots.take.2

theorem snug_act {slots : Slots α} (snug : slots.Snug) (act : Act α) : (slots.act act).Snug := by
  cases act with
  | push item => exact snug.push item
  | collect items => exact snug_empty.foldl_push items
  | clear | take => exact snug_empty

theorem pushedSince_concat (history : List (Act α)) (act : Act α) :
    pushedSince (history ++ [act]) =
      match act with
      | .push item => pushedSince history ++ [item]
      | .collect items => items
      | .clear | .take => [] := by
  have dropped (items : List α) : ((items.map some).reverse ++
      none :: (history.flatMap Act.trace).reverse).takeWhile Option.isSome =
        (items.map some).reverse := by
    rw [List.takeWhile_append_of_pos (by simp), List.takeWhile_cons_of_neg (by simp),
      List.append_nil]
  cases act with
  | push item => simp [pushedSince, Act.trace]
  | collect items => simp [pushedSince, Act.trace, dropped]
  | clear | take => simp [pushedSince, Act.trace]

theorem toList_foldl_act (history : List (Act α)) :
    (history.foldl act empty).toList = pushedSince history := by
  induction history using List.reverseRecOn with
  | nil => rfl
  | append_singleton history last ih =>
    rw [List.foldl_concat, pushedSince_concat]
    cases last with
    | push item => exact (toList_push _ _).trans (congrArg (· ++ [item]) ih)
    | collect items => exact toList_ofList items
    | clear | take => rfl

theorem word?_eq {number : Nat} (fits : number < UInt64.size) : word? number = some number :=
  if_pos fits

theorem grown?_eq {capacity : Nat} (fits : grown capacity < UInt64.size) :
    grown? capacity = some (grown capacity) := by
  unfold grown? grown at *
  split
  · rfl
  next large =>
    rw [if_neg large] at fits
    exact word?_eq fits

theorem le_grown (capacity : Nat) : capacity ≤ grown capacity := by
  unfold grown
  split <;> omega

theorem grown_le (capacity : Nat) : grown capacity ≤ 8 + capacity * 2 := by
  unfold grown
  split <;> omega

theorem push?_eq {slots : Slots α} (short : slots.size < 2 ^ 62) (item : α) :
    slots.push? item = some (slots.push item) := by
  have wide : 8 + 2 ^ 62 * 2 < UInt64.size := by decide
  have pushed : slots.push item = ⟨slots.items.push item, (slots.push item).capacity⟩ := rfl
  rw [pushed, capacity_push]
  unfold push?
  split
  next full =>
    have upper := grown_le slots.capacity
    have lower := le_grown slots.capacity
    have target := @grown?_eq slots.capacity (by omega)
    have more : less? (grown slots.capacity) slots.size = some (grown slots.capacity - slots.size) :=
      if_pos (by omega)
    have sum : slots.size + (grown slots.capacity - slots.size) = grown slots.capacity := by omega
    simp only [target, more, Option.bind_eq_bind, Option.bind_some, sum]
    rw [word?_eq (by omega)]
    rfl
  next => rfl

theorem foldlM_push?_eq {slots : Slots α} {items : List α}
    (short : slots.size + items.length < 2 ^ 62) :
    items.foldlM push? slots = some (items.foldl Slots.push slots) := by
  induction items generalizing slots with
  | nil => rfl
  | cons item rest ih =>
    rw [List.length_cons] at short
    have further : (slots.push item).size + rest.length < 2 ^ 62 := by
      rw [size_push]
      omega
    rw [List.foldlM_cons, push?_eq (by omega), Option.bind_eq_bind, Option.bind_some, ih further]
    rfl

theorem size_eq_length (slots : Slots α) : slots.size = slots.toList.length :=
  Array.length_toList.symm

theorem act?_eq {slots : Slots α} {act : Act α} (short : slots.size < 2 ^ 62)
    (short' : (slots.act act).size < 2 ^ 62) : slots.act? act = some (slots.act act) := by
  cases act with
  | push item => exact push?_eq short item
  | collect items =>
    apply foldlM_push?_eq
    rw [size_eq_length, Slots.act, toList_ofList] at short'
    exact (Nat.zero_add _).symm ▸ short'
  | clear | take => rfl

/-- What a history comes to: the items that were pushed since the sequence was last emptied, in
no more slots than these need, and while there are fewer than `2 ^ 62` of them, without a number
on the way that a machine word could not hold. -/
structure Outcome (history : List (Act α)) (slots : Slots α) : Prop where
  items : slots.toList = pushedSince history
  snug : slots.Snug
  words : (∀ before, before <+: history → (pushedSince before).length < 2 ^ 62) →
    history.foldlM act? empty = some slots

theorem outcome (history : List (Act α)) : Outcome history (history.foldl act empty) := by
  induction history using List.reverseRecOn with
  | nil => exact ⟨rfl, snug_empty, fun _ => rfl⟩
  | append_singleton history last ih =>
    refine ⟨toList_foldl_act _, ?_, fun short => ?_⟩
    · rw [List.foldl_concat]
      exact snug_act ih.snug last
    · have earlier := ih.words fun before ahead => short before (ahead.trans (List.prefix_append _ _))
      have size (before : List (Act α)) (ahead : before <+: history ++ [last]) :
          (before.foldl act empty).size < 2 ^ 62 := by
        rw [size_eq_length, toList_foldl_act]
        exact short before ahead
      have last_size := size _ List.prefix_rfl
      rw [List.foldl_concat] at last_size
      rw [List.foldlM_append, earlier, List.foldl_concat]
      change (List.foldlM act? _ [last] : Option (Slots α)) = _
      rw [List.foldlM_cons, act?_eq (size _ (List.prefix_append _ _)) last_size]
      rfl

theorem short_of_trace {history : List (Act α)}
    (total : (history.flatMap Act.trace).length < 2 ^ 62) :
    ∀ before, before <+: history → (pushedSince before).length < 2 ^ 62 := by
  rintro before ⟨behind, rfl⟩
  rw [List.flatMap_append, List.length_append] at total
  have some : (pushedSince before).length ≤ (before.flatMap Act.trace).length := by
    calc
      (pushedSince before).length ≤
          ((before.flatMap Act.trace).reverse.takeWhile Option.isSome).reverse.length :=
        List.length_filterMap_le _ _
      _ ≤ (before.flatMap Act.trace).length := by
        rw [List.length_reverse]
        exact (List.takeWhile_sublist _).length_le.trans_eq List.length_reverse
  omega

theorem outcome_of_pushed {slots : Slots α} (pushed : slots = ofList slots.toList) :
    Outcome (slots.toList.map .push) slots := by
  have run : (slots.toList.map .push).foldl act empty = slots := by
    rw [List.foldl_map]
    exact pushed.symm
  have outcome := outcome (slots.toList.map .push)
  rwa [run] at outcome

theorem ofList_concat (items : List α) (item : α) :
    ofList (items ++ [item]) = (ofList items).push item :=
  List.foldl_concat _ _ _ _

end Slots

theorem Read.program_pushed (room : Nat) (cursor : Cursor) :
    (program room cursor).1 = .ofList (program room cursor).1.toList := by
  refine sequence_keeps (fun done _ => done = .ofList done.toList) (fun done _ _ pushed => ?_) rfl
  rw [Slots.toList_push, Slots.ofList_concat, ← pushed]

theorem StmtRemains.pushed {tokens : List Token} {body : Slots Stmt}
    (remains : StmtRemains tokens (.block body)) : body = .ofList body.toList := by
  generalize whole : Stmt.block body = stmt at remains
  induction remains with
  | among _ _ ih => exact ih whole
  | block =>
    cases whole
    rw [Slots.toList_ofList]
  | _ => cases whole

def Program.HasSequence (program : Program) (slots : Slots Stmt) : Prop :=
  slots = program.statements ∨ .block slots ∈ Stmt.partsAll program.statements.toList

theorem Program.HasSequence.pushed {source : String} {limits : Limits} {slots : Slots Stmt}
    (has : (parse source limits).HasSequence slots) : slots = .ofList slots.toList := by
  obtain rfl | member := has
  · exact Read.program_pushed limits.maxDepth (.start (tokenize source))
  · exact (remains_of_mem_parts member).pushed

/-- How many slots a sequence has depends on nothing but the number of its items, whatever was
done to it before, and no machine word overflows on the way. The same holds of the statements
of every text, and of every block in them, as if they had been pushed one by one. -/
theorem slots_of_history (α : Type) :
    (∀ history : List (Slots.Act α), Slots.Outcome history (history.foldl Slots.act .empty)) ∧
      ∀ source limits slots, (parse source limits).HasSequence slots →
        Slots.Outcome (slots.toList.map .push) slots :=
  ⟨Slots.outcome, fun _ _ _ has => Slots.outcome_of_pushed has.pushed⟩

/-- The ninth statement of a block, in a text with an error, doubles its slots. -/
theorem slots_of_nine_statements :
    let body := Slots.ofList (List.replicate 9 (Stmt.expr (some (.name ⟨.identifier, "a", 1⟩))))
    (parse "\x7b a; a; a; a; a; a; a; a; a;" {}).HasSequence body ∧ body.capacity = 16 ∧
      Slots.Outcome (body.toList.map .push) body ∧
      (∀ before, before <+: body.toList.map .push → (Slots.pushedSince before).length < 2 ^ 62) ∧
      (body.toList.map .push).foldlM Slots.act? .empty = some body := by
  intro body
  have has : (parse "\x7b a; a; a; a; a; a; a; a; a;" {}).HasSequence body := by
    right
    decide +kernel
  have outcome := (slots_of_history Stmt).2 _ _ body has
  have short := @Slots.short_of_trace _ (body.toList.map .push) (by decide +kernel)
  exact ⟨has, rfl, outcome, short, outcome.words short⟩

end ScriptTree
