/-! A sequence kept in slots. It starts with no slots and takes more only when
every slot is full: eight at first, and then twice as many each time. -/
namespace ScriptTree

def grown (capacity : Nat) : Nat :=
  if capacity < 8 then 8 else capacity * 2

structure Slots (α : Type) where
  items : Array α := #[]
  capacity : Nat := 0

namespace Slots

variable {α : Type}

def empty : Slots α := {}

def size (slots : Slots α) : Nat :=
  slots.items.size

def toList (slots : Slots α) : List α :=
  slots.items.toList

def push : Slots α → α → Slots α
  | ⟨items, capacity⟩, item =>
    let after := if items.size = capacity then grown capacity else capacity
    ⟨items.push item, after⟩

def ofList (items : List α) : Slots α :=
  items.foldl push empty

/-- Dropping the items gives the slots back too. -/
def clear (_ : Slots α) : Slots α := empty

def take (slots : Slots α) : List α × Slots α :=
  (slots.toList, empty)

@[simp] theorem toList_empty : (empty : Slots α).toList = [] := rfl

@[simp] theorem toList_push (slots : Slots α) (item : α) :
    (slots.push item).toList = slots.toList ++ [item] := by
  simp [toList, push]

@[simp] theorem size_push (slots : Slots α) (item : α) :
    (slots.push item).size = slots.size + 1 := by
  simp [size, push]

end Slots

end ScriptTree
