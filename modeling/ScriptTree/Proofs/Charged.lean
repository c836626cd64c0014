import ScriptTree.Proofs.Likeness
import ScriptTree.Program

/-! Readers that count. The readers of a script are told how many levels they may still
enter; these keep the number of levels they are in and ask the limit at each one. They read
the same, they leave every level that they enter, and they are never in more levels than the
limit. If the limit is no less than the number of tokens, and two more for the statement and
the expression around them, no level is ever refused: each of the others has a token. -/
namespace ScriptTree

namespace Account

def enter (account : Account) : Account :=
  { account with
    depth := account.depth + 1
    deepest := max account.deepest (account.depth + 1) }

def leave (account : Account) : Account :=
  { account with depth := account.depth - 1 }

def refuse (account : Account) : Account :=
  { account with refusals := account.refusals + 1 }

end Account

namespace Cursor

def charge (change : Account → Account) (cursor : Cursor) : Cursor :=
  { cursor with account := change cursor.account }

section

variable (cursor : Cursor) (change : Account → Account)

theorem charge_advance : (cursor.charge change).advance = cursor.advance.charge change := by
  obtain ⟨_ | ⟨token, rest⟩, _⟩ := cursor <;> rfl

theorem charge_report (token : Token) (complaint : Complaint) :
    (cursor.charge change).report token complaint = (cursor.report token complaint).charge change := by
  obtain ⟨_, _, _, _ | _, _⟩ := cursor <;> rfl

theorem charge_recover : (cursor.charge change).recover = cursor.recover.charge change := by
  obtain ⟨_, _, _, _ | _, _⟩ := cursor <;> rfl

end

end Cursor

namespace Charged

open Read

variable {α β γ : Type}

def refuse : Read (Option α) := do
  modify (·.charge .refuse)
  complain .tooMuchNesting
  return none

/-- Enters a level unless the limit is reached. The bound is on the levels that are left; it
runs out no sooner than the limit is reached. -/
def deeper (limit bound : Nat) (body : (inner : Nat) → inner < bound → Read (Option α)) :
    Read (Option α) :=
  match bound with
  | 0 => refuse
  | inner + 1 => do
    if limit ≤ (← get).account.depth then
      refuse
    else
      modify (·.charge .enter)
      body inner (Nat.lt_succ_self inner)

def nested (limit bound : Nat) (body : (inner : Nat) → inner < bound → Read (Option α)) :
    Read (Option α) :=
  deeper limit bound fun inner small => do
    let result ← body inner small
    modify (·.charge .leave)
    return result

/-- Leaves all the levels that the body did not leave itself. -/
def settled (body : Read α) : Read α := do
  let depth := (← get).account.depth
  let result ← body
  modify (·.charge fun account => { account with depth })
  return result

mutual

def assignment (limit bound : Nat) : Read (Option Expr) :=
  chain limit bound tiers >>=
    assignTo (nested limit bound fun inner _ => assignment limit inner)
termination_by bound * 8 + 7
decreasing_by
  · simp only [length_tiers]; omega
  · omega

def chain (limit bound : Nat) : List (List Kind) → Read (Option Expr)
  | [] => unary limit bound
  | operators :: tighter => settled do
    let some left ← chain limit bound tighter | return none
    chainRest limit bound operators tighter left
termination_by levels => bound * 8 + 2 + levels.length

/-- Every operator takes a level that the chain leaves only at its end. -/
def chainRest (limit bound : Nat) (operators : List Kind) (tighter : List (List Kind))
    (left : Expr) : Read (Option Expr) := do
  let some operator ← acceptAny operators | return some left
  deeper limit bound fun inner _ => do
    let some right ← chain limit inner tighter | return none
    chainRest limit inner operators tighter (.binary operator left right)
termination_by bound * 8 + 2 + tighter.length

def unary (limit bound : Nat) : Read (Option Expr) := do
  let some operator ← acceptAny [.bang, .minus] | primary limit bound
  let some right ← nested limit bound fun inner _ => unary limit inner | return none
  return some (.unary operator right)
termination_by bound * 8 + 1

def primary (limit bound : Nat) : Read (Option Expr) := do
  match ← take? leaf? with
  | some leaf => return some leaf
  | none =>
    match ← accept .leftParen with
    | some _ =>
      let some inner ← nested limit bound fun inner _ => assignment limit inner | return none
      let _ ← expect .rightParen .expectEndOfGroup
      return some (.grouping inner)
    | none =>
      complain .expectExpression
      return none
termination_by bound * 8

end

def expression (limit bound : Nat) : Read (Option Expr) :=
  nested limit bound fun inner _ => assignment limit inner

def statement (limit bound : Nat) : Read Stmt := do
  let result ← nested limit bound fun inner _ => do
    return some (← statementWith (expression limit inner) (statement limit inner))
  return result.getD .missing
termination_by bound

def program (limit : Nat) : Read (Slots Stmt) := do
  declarations (declaration (expression limit limit) (statement limit limit)) (fun _ => false)
    (← get).unread .empty

/-- The reader that counts stands where the other one does. Either both have the same room,
or each has room for every token that is left and for some levels more, and none was refused. -/
structure Follows (roomy : Prop) (limit room bound more : Nat) (cursor other : Cursor) : Prop where
  same : other = cursor.charge fun _ => other.account
  deepest : other.account.deepest ≤ limit
  affords : roomy ∧ other.account.refusals = 0 ∧
      cursor.unread.length + more ≤ room ∧ cursor.unread.length + more ≤ bound ∨
    ¬ roomy ∧ room = bound

/-- And it is in as many levels as it should be. -/
structure Tracks (roomy : Prop) (limit room bound more : Nat) (cursor other : Cursor) : Prop
    extends Follows roomy limit room bound more cursor other where
  level : other.account.depth + bound = limit

section

variable {roomy : Prop} {limit room bound more : Nat} {cursor other : Cursor}

theorem Follows.less (follows : Follows roomy limit room bound (more + 1) cursor other) :
    Follows roomy limit room bound more cursor other where
  same := follows.same
  deepest := follows.deepest
  affords := follows.affords.imp_left fun ⟨spare, never, left, right⟩ =>
    ⟨spare, never, Nat.le_of_succ_le left, Nat.le_of_succ_le right⟩

theorem Tracks.less (tracks : Tracks roomy limit room bound (more + 1) cursor other) :
    Tracks roomy limit room bound more cursor other :=
  ⟨tracks.toFollows.less, tracks.level⟩

theorem Follows.outside (follows : Follows roomy limit room bound more cursor other) :
    Follows roomy limit (room + 1) (bound + 1) (more + 1) cursor other where
  same := follows.same
  deepest := follows.deepest
  affords := follows.affords.imp
    (fun ⟨spare, never, left, right⟩ =>
      ⟨spare, never, Nat.succ_le_succ left, Nat.succ_le_succ right⟩)
    (fun ⟨tight, same⟩ => ⟨tight, congrArg Nat.succ same⟩)

theorem Follows.settle (follows : Follows roomy limit room bound more cursor other) {depth : Nat}
    (level : depth + bound = limit) :
    Tracks roomy limit room bound more cursor
      (other.charge fun account => { account with depth }) where
  same := by rw [follows.same]; rfl
  deepest := follows.deepest
  affords := follows.affords
  level := level

theorem Tracks.enter (tracks : Tracks roomy limit (room + 1) (bound + 1) (more + 1) cursor other) :
    Tracks roomy limit room bound more cursor (other.charge .enter) where
  same := by rw [tracks.same]; rfl
  deepest := by
    have level := tracks.level
    exact max_le tracks.deepest (by omega)
  affords := tracks.affords.imp
    (fun ⟨spare, never, left, right⟩ =>
      ⟨spare, never, Nat.le_of_succ_le_succ left, Nat.le_of_succ_le_succ right⟩)
    (fun ⟨tight, same⟩ => ⟨tight, Nat.succ.inj same⟩)
  level := by
    have level := tracks.level
    change other.account.depth + 1 + bound = limit
    omega

theorem Tracks.leave (tracks : Tracks roomy limit room bound more cursor other)
    (inside : bound < limit) :
    Tracks roomy limit (room + 1) (bound + 1) (more + 1) cursor (other.charge .leave) :=
  tracks.toFollows.outside.settle (by have level := tracks.level; omega)

theorem Tracks.room_cases (tracks : Tracks roomy limit room bound (more + 1) cursor other) :
    (∃ inner inner', room = inner + 1 ∧ bound = inner' + 1) ∨ ¬ roomy ∧ room = 0 ∧ bound = 0 := by
  rcases tracks.affords with ⟨-, -, left, right⟩ | ⟨tight, same⟩
  · exact .inl ⟨room - 1, bound - 1, by omega, by omega⟩
  · cases room with
    | zero => exact .inr ⟨tight, rfl, same.symm⟩
    | succ inner => exact .inl ⟨inner, inner, rfl, same.symm⟩

theorem Tracks.refuse (tight : ¬ roomy) (tracks : Tracks roomy limit room bound more cursor other) :
    Tracks roomy limit room bound more cursor (other.charge .refuse) where
  same := by rw [tracks.same]; rfl
  deepest := tracks.deepest
  affords := .inr ⟨tight, (tracks.affords.resolve_left fun spare => tight spare.1).2⟩
  level := tracks.level

theorem Tracks.step {more' : Nat} (tracks : Tracks roomy limit room bound more cursor other)
    {after after' : Cursor} (same : after' = after.charge fun _ => other.account)
    (shorter : after.unread.length + more' ≤ cursor.unread.length + more) :
    Tracks roomy limit room bound more' after after' := by
  have account : after'.account = other.account := by rw [same]; rfl
  refine ⟨⟨by rw [same]; rfl, account ▸ tracks.deepest, ?_⟩, account ▸ tracks.level⟩
  rw [account]
  exact tracks.affords.imp_left fun ⟨spare, never, left, right⟩ =>
    ⟨spare, never, shorter.trans left, shorter.trans right⟩

theorem Tracks.advance (tracks : Tracks roomy limit room bound more cursor other) :
    Tracks roomy limit room bound more cursor.advance other.advance :=
  tracks.step (by rw [tracks.same]; exact cursor.charge_advance _)
    (Nat.add_le_add_right cursor.onward_advance.unread_length_le _)

theorem Tracks.pass {token : Token} {rest : List Token}
    (tracks : Tracks roomy limit room bound more cursor other) (ahead : cursor.unread = token :: rest) :
    Tracks roomy limit room bound (more + 1) cursor.advance other.advance := by
  apply tracks.step
  · rw [tracks.same]
    exact cursor.charge_advance _
  · rw [Cursor.advance, ahead, List.length_cons]
    change rest.length + (more + 1) ≤ rest.length + 1 + more
    omega

theorem Tracks.report (tracks : Tracks roomy limit room bound more cursor other) (token : Token)
    (complaint : Complaint) :
    Tracks roomy limit room bound more (cursor.report token complaint)
      (other.report token complaint) :=
  tracks.step (by rw [tracks.same]; exact cursor.charge_report _ token complaint)
    (Nat.add_le_add_right (cursor.onward_report token complaint).unread_length_le _)

theorem Tracks.recover (tracks : Tracks roomy limit room bound more cursor other) :
    Tracks roomy limit room bound more cursor.recover other.recover :=
  tracks.step (by rw [tracks.same]; exact cursor.charge_recover _)
    (Nat.add_le_add_right cursor.onward_recover.unread_length_le _)

theorem likeness (roomy : Prop) (limit room bound more : Nat) :
    Likeness id (Tracks roomy limit room bound more) where
  kind _ := rfl
  lexeme _ := rfl
  unread tracks := by rw [tracks.same, List.map_id]; rfl
  stop tracks := by rw [tracks.same]; rfl
  advance tracks := tracks.advance
  complain {cursor other} tracks complaint := by
    have next : other.next = cursor.next := by rw [tracks.same]; rfl
    rw [next]
    exact tracks.report _ complaint
  refuse tracks _ _ := tracks.advance.report _ _

theorem lasting (roomy : Prop) (limit room bound more : Nat) :
    Likeness.Lasting (Tracks roomy limit room bound more) where
  recover tracks := tracks.recover
  progress tracks further := by rw [tracks.same, further.same]; rfl

end

section

variable {roomy : Prop} {limit room bound more : Nat} {After : Cursor → Cursor → Prop}

theorem took {pick : Token → Option α} {f : Option α → Read β} {g : Option α → Read γ}
    {carry : β → γ}
    (hit : ∀ a, Leads (Tracks roomy limit room bound (more + 1)) After carry (f (some a)) (g (some a)))
    (miss : Leads (Tracks roomy limit room bound more) After carry (f none) (g none)) :
    Leads (Tracks roomy limit room bound more) After carry (take? pick >>= f) (take? pick >>= g) := by
  intro cursor other tracks
  have unread : other.unread = cursor.unread := by rw [tracks.same]; rfl
  by_cases missed : ∀ token ∈ cursor.unread.head?, pick token = none
  · rw [bind_apply, bind_apply, take?_of_miss missed, take?_of_miss (unread ▸ missed)]
    exact miss cursor other tracks
  · obtain ⟨token, rest, ahead, a, found⟩ :
        ∃ token rest, cursor.unread = token :: rest ∧ ∃ a, pick token = some a := by
      cases ahead : cursor.unread with
      | nil => simp [ahead] at missed
      | cons token rest =>
        rw [ahead] at missed
        exact ⟨token, rest, rfl, by simpa [← Option.ne_none_iff_exists'] using missed⟩
    have passed (any : Cursor) (same : any.unread = token :: rest) :
        take? pick any = (some a, any.advance) := by
      simp [take?, same, found]
    rw [bind_apply, bind_apply, passed cursor ahead, passed other (unread.trans ahead)]
    exact hit a _ _ (tracks.pass ahead)

theorem refused_alike (tight : ¬ roomy) :
    Alike (Tracks roomy limit room bound more) id
      (do complain .tooMuchNesting; return none : Read (Option α)) refuse := by
  intro cursor other tracks
  exact ⟨rfl, (likeness ..).complain (tracks.refuse tight) _⟩

theorem deeper_leads {p : (inner : Nat) → inner < room → Read (Option α)}
    {q : (inner : Nat) → inner < bound → Read (Option α)}
    (each : ∀ inner inner' small small', room = inner + 1 → bound = inner' + 1 → inner' < limit →
      Leads (Tracks roomy limit inner inner' more) After id (p inner small) (q inner' small'))
    (refused : ∀ {cursor other}, Tracks roomy limit room bound (more + 1) cursor other →
      After cursor other) :
    Leads (Tracks roomy limit room bound (more + 1)) After id (Read.nested room p)
      (deeper limit bound q) := by
  intro cursor other tracks
  rcases tracks.room_cases with ⟨inner, inner', rfl, rfl⟩ | ⟨tight, rfl, rfl⟩
  · have level := tracks.level
    have below : ¬ limit ≤ other.account.depth := by omega
    have entered : deeper limit (inner' + 1) q other =
        q inner' (Nat.lt_succ_self inner') (other.charge .enter) := by
      change (if limit ≤ other.account.depth then _ else _ : Read _) other = _
      rw [if_neg below]
      rfl
    rw [entered]
    exact each inner inner' _ _ rfl rfl (by omega) cursor _ tracks.enter
  · obtain ⟨same, after⟩ := refused_alike tight cursor other tracks
    exact ⟨same, refused after⟩

theorem nested_alike {p : (inner : Nat) → inner < room → Read (Option α)}
    {q : (inner : Nat) → inner < bound → Read (Option α)}
    (each : ∀ inner inner' small small',
      Alike (Tracks roomy limit inner inner' more) id (p inner small) (q inner' small')) :
    Alike (Tracks roomy limit room bound (more + 1)) id (Read.nested room p)
      (nested limit bound q) := by
  refine deeper_leads (fun inner inner' small small' here here' inside => ?_) id
  intro cursor other tracks
  obtain ⟨same, after⟩ := each inner inner' small small' cursor other tracks
  subst here here'
  exact ⟨same, after.leave inside⟩

theorem settled_alike {p q : Read α}
    (body : Leads (Tracks roomy limit room bound more) (Follows roomy limit room bound more) id p q) :
    Alike (Tracks roomy limit room bound more) id p (settled q) := by
  intro cursor other tracks
  obtain ⟨same, after⟩ := body cursor other tracks
  exact ⟨same, after.settle tracks.level⟩

theorem assignTo_alike {value value' : Read (Option Expr)}
    (alike : Alike (Tracks roomy limit room bound (more + 1)) id value value')
    (target : Option Expr) :
    Alike (Tracks roomy limit room bound more) id (assignTo value target)
      (assignTo value' target) := by
  cases target with
  | none => exact .pure rfl
  | some target =>
    cases target with
    | name name =>
      refine took (fun equals => ?_) (.pure rfl)
      refine (alike.bind fun value => ?_).after Tracks.less
      cases value <;> exact .pure rfl
    | _ =>
      have refused := (likeness roomy limit room bound more).refused
      simp only [Expr.map_id, Option.map_id, id] at refused
      exact refused _

-- By recursion on the bound, as the readers themselves. Behind an operator the account is one
-- level off until the chain is settled, so of the rest of a chain only `Follows` is shown.
mutual

theorem assignment_alike (room bound more : Nat) :
    Alike (Tracks roomy limit room bound more) id (Read.assignment room)
      (assignment limit bound) := by
  rw [Read.assignment_eq]
  unfold assignment
  refine (chain_alike room bound more tiers).bind (assignTo_alike ?_)
  exact nested_alike fun inner inner' _ _ => assignment_alike inner inner' more
termination_by bound * 8 + 7
decreasing_by
  · simp only [length_tiers]; omega
  · omega

theorem chain_alike (room bound more : Nat) : ∀ tiers,
    Alike (Tracks roomy limit room bound more) id (Read.chain room tiers) (chain limit bound tiers)
  | [] => by
    unfold Read.chain chain
    exact unary_alike room bound more
  | operators :: tighter => by
    unfold Read.chain chain
    apply settled_alike
    apply (chain_alike room bound more tighter).bind
    intro left
    cases left with
    | none => exact fun _ _ tracks => ⟨rfl, tracks.toFollows⟩
    | some left => exact chainRest_leads room bound more operators tighter left
termination_by tiers => bound * 8 + 2 + tiers.length

theorem chainRest_leads (room bound more : Nat) (operators : List Kind)
    (tighter : List (List Kind)) (left : Expr) :
    Leads (Tracks roomy limit room bound more) (Follows roomy limit room bound more) id
      (Read.chainRest room operators tighter left)
      (chainRest limit bound operators tighter left) := by
  unfold Read.chainRest chainRest
  refine took (fun operator => ?_) fun _ _ tracks => ⟨rfl, tracks.toFollows⟩
  refine deeper_leads (fun inner inner' _ _ here here' _ => ?_) fun tracks => tracks.toFollows.less
  subst here here'
  apply (chain_alike inner inner' more tighter).bind
  intro right
  cases right with
  | none => exact fun _ _ tracks => ⟨rfl, tracks.toFollows.outside.less⟩
  | some right =>
    exact (chainRest_leads inner inner' more operators tighter _).after
      fun follows => follows.outside.less
termination_by bound * 8 + 2 + tighter.length

theorem unary_alike (room bound more : Nat) :
    Alike (Tracks roomy limit room bound more) id (Read.unary room) (unary limit bound) := by
  unfold Read.unary unary
  refine took (fun operator => ?_) (primary_alike room bound more)
  refine ((nested_alike fun inner inner' _ _ => unary_alike inner inner' more).bind
    fun right => ?_).after Tracks.less
  cases right <;> exact .pure rfl
termination_by bound * 8 + 1

theorem primary_alike (room bound more : Nat) :
    Alike (Tracks roomy limit room bound more) id (Read.primary room) (primary limit bound) := by
  have like (more : Nat) := likeness roomy limit room bound more
  unfold Read.primary primary
  refine took (fun leaf => fun _ _ tracks => ⟨rfl, tracks.less⟩) ?_
  refine took (fun opening => ?_) (((like more).complains _).bind fun _ => .pure rfl)
  refine Leads.after ?_ Tracks.less
  apply (nested_alike fun inner inner' _ _ => assignment_alike inner inner' more).bind
  intro inner
  cases inner with
  | none => exact .pure rfl
  | some inner => exact ((like _).expect .rightParen _).bind fun _ => .pure rfl
termination_by bound * 8

end

theorem expression_alike (room bound more : Nat) :
    Alike (Tracks roomy limit room bound (more + 1)) (Option.map (Expr.map id))
      (Read.expression room) (expression limit bound) := by
  rw [Expr.map_id, Option.map_id]
  exact nested_alike fun inner inner' _ _ => assignment_alike inner inner' more

theorem statementWith_alike {value value' : Read (Option Expr)} {part part' : Read Stmt}
    (whole : ∀ more, Alike (Tracks roomy limit room bound (more + 1)) (Option.map (Expr.map id))
      value value')
    (inner : Alike (Tracks roomy limit room bound (more + 2)) (Stmt.map id) part part') :
    Alike (Tracks roomy limit room bound (more + 1)) (Stmt.map id) (statementWith value part)
      (statementWith value' part') := by
  have like (more : Nat) := likeness roomy limit room bound more
  have lasting := lasting roomy limit room bound (more + 2)
  refine took (fun opening => Leads.after ?_ Tracks.less) ((like _).expressionStatement (whole more))
  cases opening with
  | forLoop => exact (like _).forStatement (whole _) inner
  | whileLoop => exact (like _).whileStatement (whole _) inner
  | branch => exact (like _).ifStatement (whole _) inner
  | block => exact (like _).block lasting ((like _).declaration lasting (whole _) inner)

theorem statement_eq (room : Nat) :
    Read.statement room = do
      let result ← Read.nested room fun inner _ => do
        return some (← statementWith (Read.expression inner) (Read.statement inner))
      return result.getD .missing := by
  cases room <;> rfl

theorem statement_alike (room bound more : Nat) :
    Alike (Tracks roomy limit room bound (more + 2)) (Stmt.map id) (Read.statement room)
      (statement limit bound) := by
  rw [statement_eq, statement, Stmt.map_id]
  refine (nested_alike fun inner inner' _ _ => ?_).bind fun _ => .pure rfl
  have dispatched := statementWith_alike (expression_alike inner inner')
    (statement_alike inner inner' more)
  rw [Stmt.map_id] at dispatched
  exact dispatched.bind fun _ => .pure rfl
termination_by bound

end

/-- The reader that counts reads what the reader that is told its room does. It leaves every
level it enters, and it is never in more of them than the limit allows. With room for all the
tokens and for two levels more none is refused, and neither reader can tell how much room it
has. -/
theorem program_eq (roomy : Prop) {limit room : Nat} {tokens : Tokens}
    (affords : roomy ∧ tokens.body.length + 2 ≤ room ∧ tokens.body.length + 2 ≤ limit ∨
      ¬ roomy ∧ room = limit) :
    ∃ account, program limit (.start tokens) =
        ((Read.program room (.start tokens)).1,
          (Read.program room (.start tokens)).2.charge fun _ => account) ∧
      account.depth = 0 ∧ account.deepest ≤ limit ∧ (roomy → account.refusals = 0) := by
  have like := likeness roomy limit room limit 2
  have lasting := lasting roomy limit room limit 2
  have each := like.declaration lasting (expression_alike room limit 1) (statement_alike room limit 0)
  have starts : Tracks roomy limit room limit 2 (.start tokens) (.start tokens) :=
    ⟨⟨rfl, Nat.zero_le limit, affords.imp_left fun ⟨spare, enough⟩ => ⟨spare, rfl, enough⟩⟩,
      Nat.zero_add limit⟩
  obtain ⟨read, ends⟩ := like.sequence lasting each (fun _ => false) .empty _ _ starts
  rw [Slots.map_empty] at read ends
  rw [Stmt.map_id, Slots.map_id] at read
  refine ⟨(program limit (.start tokens)).2.account, Prod.ext read ends.same, ?_, ends.deepest, ?_⟩
  · exact Nat.add_right_cancel (ends.level.trans (Nat.zero_add limit).symm)
  · exact fun spare => (ends.affords.resolve_right fun tight => tight.1 spare).2.1

/-- The program of a text, and the account that was kept while it was read. -/
def parse (source : String) (limits : Limits) : Program × Account :=
  let (statements, cursor) := program limits.maxDepth (.start (tokenize source))
  (.ofReading statements cursor, cursor.account)

theorem program_balanced (limit : Nat) (tokens : Tokens) :
    ∃ account, program limit (.start tokens) =
        ((Read.program limit (.start tokens)).1,
          (Read.program limit (.start tokens)).2.charge fun _ => account) ∧
      account.depth = 0 ∧ account.deepest ≤ limit := by
  obtain ⟨account, read, level, deepest, -⟩ := program_eq False (.inr ⟨not_false, rfl⟩)
  exact ⟨account, read, level, deepest⟩

theorem parse_unrefused {source : String} {limits limits' : Limits}
    (roomy : (tokenize source).toList.length + 1 ≤ limits.maxDepth)
    (roomy' : (tokenize source).toList.length + 1 ≤ limits'.maxDepth) :
    ∃ account, parse source limits = (ScriptTree.parse source limits', account) ∧
      account.refusals = 0 := by
  rw [Tokens.toList, List.length_append, List.length_singleton] at roomy roomy'
  obtain ⟨account, read, -, -, never⟩ := program_eq True (.inl ⟨trivial, roomy', roomy⟩)
  refine ⟨account, ?_, never trivial⟩
  rw [parse, read]
  rfl

end Charged

/-- A limit above the number of tokens is never met: any two such limits give the same program,
and no level is refused on the way. -/
theorem parse_roomy {source : String} {limits limits' : Limits}
    (roomy : (tokenize source).toList.length + 1 ≤ limits.maxDepth)
    (roomy' : (tokenize source).toList.length + 1 ≤ limits'.maxDepth) :
    parse source limits = parse source limits' ∧
      ∃ account, Charged.parse source limits = (parse source limits, account) ∧
        account.refusals = 0 := by
  obtain ⟨account, read, never⟩ := Charged.parse_unrefused roomy roomy
  obtain ⟨account', read', -⟩ := Charged.parse_unrefused roomy roomy'
  exact ⟨congrArg Prod.fst (read.symm.trans read'), account, read, never⟩

/-- Three tokens, each of them a level, and the end of input. -/
theorem parse_roomy_of_prefixes : (tokenize "-(-").toList.length + 1 ≤ 5 ∧
    parse "-(-" ⟨5⟩ = parse "-(-" ⟨9⟩ ∧
      ∃ account, Charged.parse "-(-" ⟨5⟩ = (parse "-(-" ⟨5⟩, account) ∧ account.refusals = 0 :=
  ⟨by decide +kernel, parse_roomy (by decide +kernel) (by decide +kernel)⟩

/-- One level less, and the last of them is refused. -/
example : (Charged.parse "-(-" ⟨4⟩).2.refusals = 1 := by decide +kernel

end ScriptTree
