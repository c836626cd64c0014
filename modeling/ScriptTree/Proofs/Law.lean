import ScriptTree.Proofs.Lookahead
import ScriptTree.Proofs.Precedence

/-! Laws of readers. What holds of every primitive step and is kept when readers
are put in a row holds of every reader of expressions. -/
namespace ScriptTree

namespace Read

/-- An assignment after what stands in the place of its target, given the reader of a value. -/
def assignTo (value : Read (Option Expr)) : Option Expr → Read (Option Expr)
  | none => return none
  | some target => do
    let some equals ← accept .equal | return some target
    match target with
    | .name name =>
      let some value ← value | return none
      return some (.assign name value)
    | _ =>
      modify (·.report equals .invalidTarget)
      return some target

theorem assignment_eq (room : Nat) :
    assignment room = chain room binaryTiers >>= assignTo (expression room) := by
  unfold assignment
  congr
  funext target
  rcases target with _ | target
  · rfl
  · cases target <;> rfl

/-- A property of readers that is kept when readers are put in a row. A step that
consumes has it unless it could pass over a token of a kind that `stops`, which is
no kind of an expression. -/
structure Law (Lawful : ∀ {α : Type}, Read α → Prop) (stops : Kind → Prop) : Prop where
  passes : ∀ kind ∈ expressionKinds, ¬ stops kind
  pure : ∀ {α : Type} (a : α), Lawful (pure a)
  bind : ∀ {α β : Type} {p : Read α} {f : α → Read β}, Lawful p → (∀ a, Lawful (f a)) →
    Lawful (p >>= f)
  take? : ∀ {α : Type} {pick : Token → Option α},
    (∀ token, stops token.kind → pick token = none) → Lawful (take? pick)
  report : ∀ (found : Cursor → Token) (complaint : Complaint),
    Lawful (modify fun cursor => cursor.report (found cursor) complaint)

namespace Law

variable {Lawful : ∀ {α : Type}, Read α → Prop} {stops : Kind → Prop} {α : Type}

theorem complain (law : Law Lawful stops) (complaint : Complaint) : Lawful (complain complaint) :=
  law.report Cursor.next complaint

theorem accept (law : Law Lawful stops) {kind : Kind} (passes : ¬ stops kind) :
    Lawful (accept kind) := by
  apply law.take?
  intro token stop
  apply if_neg
  intro same
  exact passes (same ▸ stop)

theorem acceptAny (law : Law Lawful stops) {kinds : List Kind} (passes : ∀ kind ∈ kinds, ¬ stops kind) :
    Lawful (acceptAny kinds) := by
  apply law.take?
  intro token stop
  apply if_neg
  intro found
  exact passes _ found stop

theorem expect (law : Law Lawful stops) {kind : Kind} (passes : ¬ stops kind)
    (complaint : Complaint) : Lawful (expect kind complaint) := by
  apply law.bind (law.accept passes)
  intro found
  cases found with
  | some token => exact law.pure _
  | none => exact law.bind (law.complain complaint) fun _ => law.pure _

theorem nested (law : Law Lawful stops) {room : Nat}
    {body : (inner : Nat) → inner < room → Read (Option α)}
    (lawful : ∀ inner bound, Lawful (body inner bound)) : Lawful (nested room body) := by
  cases room with
  | zero => exact law.bind (law.complain _) fun _ => law.pure _
  | succ inner => exact lawful inner _

theorem leaf (law : Law Lawful stops) : Lawful (Read.take? leaf?) := by
  apply law.take?
  intro token stop
  have apart : token.kind ∉ expressionKinds := fun found => law.passes _ found stop
  revert apart
  unfold leaf?
  cases token.kind <;> first | exact fun _ => rfl | exact fun apart => absurd (by decide) apart

theorem assignTo (law : Law Lawful stops) {value : Read (Option Expr)} (lawful : Lawful value)
    (target : Option Expr) : Lawful (assignTo value target) := by
  cases target with
  | none => exact law.pure _
  | some target =>
    apply law.bind (law.accept (law.passes _ (by decide)))
    intro equals
    cases equals with
    | none => exact law.pure _
    | some equals =>
      cases target with
      | name name =>
        apply law.bind lawful
        intro value
        cases value <;> exact law.pure _
      | _ => exact law.bind (law.report (fun _ => equals) _) fun _ => law.pure _

mutual

theorem assignment (law : Law Lawful stops) (room : Nat) : Lawful (assignment room) := by
  rw [assignment_eq]
  apply law.bind (law.chain room binaryTiers List.suffix_rfl)
  intro target
  exact law.assignTo (law.nested fun inner _ => law.assignment inner) target
termination_by room * 8 + 7
decreasing_by
  · simp only [binaryTiers, List.length_cons, List.length_nil]
    omega
  · omega

theorem chain (law : Law Lawful stops) (room : Nat) : ∀ tiers, tiers <:+ binaryTiers → Lawful (chain room tiers)
  | [], _ => by
    unfold Read.chain
    exact law.unary room
  | operators :: tighter, listed => by
    unfold Read.chain
    apply law.bind (law.chain room tighter ((List.suffix_cons _ _).trans listed))
    intro left
    cases left with
    | none => exact law.pure _
    | some left => exact law.chainRest room operators tighter listed left
termination_by tiers => room * 8 + 2 + tiers.length

theorem chainRest (law : Law Lawful stops) (room : Nat) (operators : List Kind) (tighter : List (List Kind))
    (listed : (operators :: tighter) <:+ binaryTiers) (left : Expr) :
    Lawful (chainRest room operators tighter left) := by
  have known : ∀ tier ∈ binaryTiers, ∀ kind ∈ tier, kind ∈ expressionKinds := by decide
  unfold Read.chainRest
  apply law.bind (law.acceptAny fun kind found =>
    law.passes _ (known _ (listed.subset List.mem_cons_self) _ found))
  intro operator
  cases operator with
  | none => exact law.pure _
  | some operator =>
    apply law.nested
    intro inner _
    apply law.bind (law.chain inner tighter ((List.suffix_cons _ _).trans listed))
    intro right
    cases right with
    | none => exact law.pure _
    | some right => exact law.chainRest inner operators tighter listed _
termination_by room * 8 + 2 + tighter.length

theorem unary (law : Law Lawful stops) (room : Nat) : Lawful (unary room) := by
  have known : ∀ kind ∈ [Kind.bang, Kind.minus], kind ∈ expressionKinds := by decide
  unfold Read.unary
  apply law.bind (law.acceptAny fun kind found => law.passes _ (known _ found))
  intro operator
  cases operator with
  | none => exact law.primary room
  | some operator =>
    apply law.bind (law.nested fun inner _ => law.unary inner)
    intro right
    cases right <;> exact law.pure _
termination_by room * 8 + 1

theorem primary (law : Law Lawful stops) (room : Nat) : Lawful (primary room) := by
  unfold Read.primary
  apply law.bind law.leaf
  intro found
  cases found with
  | some leaf => exact law.pure _
  | none =>
    apply law.bind (law.accept (law.passes _ (by decide)))
    intro opening
    cases opening with
    | none => exact law.bind (law.complain _) fun _ => law.pure _
    | some opening =>
      apply law.bind (law.nested fun inner _ => law.assignment inner)
      intro inner
      cases inner with
      | none => exact law.pure _
      | some inner => exact law.bind (law.expect (law.passes _ (by decide)) _) fun _ => law.pure _
termination_by room * 8

end

theorem expression (law : Law Lawful stops) (room : Nat) : Lawful (expression room) :=
  law.nested fun inner _ => law.assignment inner

end Law

end Read

end ScriptTree
