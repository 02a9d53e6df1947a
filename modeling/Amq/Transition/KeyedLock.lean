import Amq.Transition.Machine
import Mathlib.Data.List.Nodup
import Mathlib.Logic.Function.Basic

/-!
# A keyed lock that remembers the latest tag

Deliveries carry a key, a fresh tag and possibly a label.  A delivery whose key
is free takes the lock and becomes a holder; a delivery whose key is taken is
swallowed, yet its tag replaces the stored one.  A holder that has completed its
work acknowledges *the tag which is stored at that moment*, and releases the
key when the acknowledgement has settled.  All keys can be released at once,
also while holders are still working.

Two questions are answered for arbitrary keys, labels and tags:

* when is every tag acknowledged at most once
  (`acknowledged_nodup_iff_no_overlap`), and
* when is an acknowledged delivery one whose label some holder of its key has
  completed (`acknowledged_labels_completed`).
-/


namespace Amq.Transition.KeyedLock

open Function

universe u v w

inductive Phase (τ : Type u) where
  | working
  | completed
  | acknowledging (tag : τ)
  | finished
  deriving DecidableEq, Repr

structure Holder (κ : Type u) (ℓ : Type v) (τ : Type w) where
  key : κ
  label : Option ℓ
  phase : Phase τ
  hasCompleted : Bool

structure Delivery (κ : Type u) (ℓ : Type v) (τ : Type w) where
  tag : τ
  key : κ
  label : Option ℓ

structure State (κ : Type u) (ℓ : Type v) (τ : Type w) where
  stored : κ → Option τ
  holders : List (Holder κ ℓ τ)
  deliveries : List (Delivery κ ℓ τ)
  /-- Acknowledged tags, the latest one first. -/
  acknowledged : List τ

inductive Event (κ : Type u) (ℓ : Type v) (τ : Type w) where
  | deliver (key : κ) (label : Option ℓ) (tag : τ)
  | complete (holder : ℕ)
  | acknowledge (holder : ℕ)
  | release (holder : ℕ)
  | leave (holder : ℕ)
  | releaseAll

variable {κ : Type u} {ℓ : Type v} {τ : Type w}
variable [DecidableEq κ] [DecidableEq τ]

namespace State

def deliver
    (state : State κ ℓ τ) (key : κ) (label : Option ℓ) (tag : τ) :
    Option (State κ ℓ τ) :=
  if tag ∈ state.deliveries.map Delivery.tag then
    none
  else
    some
      { state with
        stored := update state.stored key (some tag)
        deliveries := ⟨tag, key, label⟩ :: state.deliveries
        holders :=
          match state.stored key with
          | some _ => state.holders
          | none => state.holders ++ [⟨key, label, .working, false⟩] }

def complete (state : State κ ℓ τ) (index : ℕ) : Option (State κ ℓ τ) :=
  match state.holders[index]? with
  | none => none
  | some holder =>
      match holder.phase with
      | .working =>
          some
            { state with
              holders :=
                state.holders.set index
                  { holder with phase := .completed, hasCompleted := true } }
      | _ => none

def acknowledge (state : State κ ℓ τ) (index : ℕ) : Option (State κ ℓ τ) :=
  match state.holders[index]? with
  | none => none
  | some holder =>
      match holder.phase, state.stored holder.key with
      | .completed, some tag =>
          some
            { state with
              holders :=
                state.holders.set index
                  { holder with phase := .acknowledging tag }
              acknowledged := tag :: state.acknowledged }
      | _, _ => none

def release (state : State κ ℓ τ) (index : ℕ) : Option (State κ ℓ τ) :=
  match state.holders[index]? with
  | none => none
  | some holder =>
      match holder.phase with
      | .completed | .acknowledging _ =>
          some
            { state with
              holders :=
                state.holders.set index { holder with phase := .finished }
              stored := update state.stored holder.key none }
      | _ => none

def leave (state : State κ ℓ τ) (index : ℕ) : Option (State κ ℓ τ) :=
  match state.holders[index]? with
  | none => none
  | some holder =>
      match holder.phase with
      | .working | .completed =>
          some
            { state with
              holders :=
                state.holders.set index { holder with phase := .finished } }
      | _ => none

def releaseAll (state : State κ ℓ τ) : State κ ℓ τ :=
  { state with stored := fun _ => none }

end State

/-- The lock as an event-driven machine. -/
def machine : Machine (State κ ℓ τ) (Event κ ℓ τ) where
  initial := ⟨fun _ => none, [], [], []⟩
  step state event :=
    match event with
    | .deliver key label tag => state.deliver key label tag
    | .complete index => state.complete index
    | .acknowledge index => state.acknowledge index
    | .release index => state.release index
    | .leave index => state.leave index
    | .releaseAll => some state.releaseAll

/-! ## What one step can do -/

theorem deliver_eq_some_iff
    {state next : State κ ℓ τ} {key : κ} {label : Option ℓ} {tag : τ} :
    state.deliver key label tag = some next ↔
      tag ∉ state.deliveries.map Delivery.tag ∧
        next =
          { state with
            stored := update state.stored key (some tag)
            deliveries := ⟨tag, key, label⟩ :: state.deliveries
            holders :=
              match state.stored key with
              | some _ => state.holders
              | none => state.holders ++ [⟨key, label, .working, false⟩] } := by
  unfold State.deliver
  split
  · rename_i present
    simp [present]
  · rename_i fresh
    simp only [Option.some.injEq, fresh, not_false_eq_true, true_and]
    exact eq_comm

omit [DecidableEq κ] [DecidableEq τ] in
theorem complete_cases
    {state next : State κ ℓ τ} {index : ℕ}
    (stepped : state.complete index = some next) :
    ∃ holder, state.holders[index]? = some holder ∧
      holder.phase = .working ∧
      next =
        { state with
          holders :=
            state.holders.set index
              { holder with phase := .completed, hasCompleted := true } } := by
  unfold State.complete at stepped
  split at stepped
  · cases stepped
  · rename_i holder present
    split at stepped
    · rename_i working
      exact ⟨holder, present, working, (Option.some.inj stepped).symm⟩
    · cases stepped

omit [DecidableEq κ] [DecidableEq τ] in
theorem acknowledge_cases
    {state next : State κ ℓ τ} {index : ℕ}
    (stepped : state.acknowledge index = some next) :
    ∃ holder tag, state.holders[index]? = some holder ∧
      holder.phase = .completed ∧
      state.stored holder.key = some tag ∧
      next =
        { state with
          holders :=
            state.holders.set index
              { holder with phase := .acknowledging tag }
          acknowledged := tag :: state.acknowledged } := by
  unfold State.acknowledge at stepped
  split at stepped
  · cases stepped
  · rename_i holder present
    split at stepped
    · rename_i tag completed stored
      exact ⟨holder, tag, present, completed, stored,
        (Option.some.inj stepped).symm⟩
    · cases stepped

omit [DecidableEq τ] in
theorem release_cases
    {state next : State κ ℓ τ} {index : ℕ}
    (stepped : state.release index = some next) :
    ∃ holder, state.holders[index]? = some holder ∧
      next =
        { state with
          holders := state.holders.set index { holder with phase := .finished }
          stored := update state.stored holder.key none } := by
  unfold State.release at stepped
  split at stepped
  · cases stepped
  · rename_i holder present
    split at stepped
    · exact ⟨holder, present, (Option.some.inj stepped).symm⟩
    · exact ⟨holder, present, (Option.some.inj stepped).symm⟩
    · cases stepped

omit [DecidableEq κ] [DecidableEq τ] in
theorem leave_cases
    {state next : State κ ℓ τ} {index : ℕ}
    (stepped : state.leave index = some next) :
    ∃ holder, state.holders[index]? = some holder ∧
      (holder.phase = .working ∨ holder.phase = .completed) ∧
      next =
        { state with
          holders :=
            state.holders.set index { holder with phase := .finished } } := by
  unfold State.leave at stepped
  split at stepped
  · cases stepped
  · rename_i holder present
    split at stepped
    · rename_i working
      exact ⟨holder, present, Or.inl working, (Option.some.inj stepped).symm⟩
    · rename_i completed
      exact ⟨holder, present, Or.inr completed, (Option.some.inj stepped).symm⟩
    · cases stepped

/-! ## Moves of one holder

A program whose processes hold the keys refines the lock when each step of a
process is a move of its holder. -/

inductive Move (τ : Type w) where
  | keep
  | complete
  | acknowledge (tag : τ)
  | release
  | leave

namespace Move

/-- The events of a move of the holder at `index`. -/
def events (index : ℕ) : Move τ → List (Event κ ℓ τ)
  | .keep => []
  | .complete => [.complete index]
  | .acknowledge _ => [.acknowledge index]
  | .release => [.release index]
  | .leave => [.leave index]

/-- The move of a holder whose phases are given and which neither acknowledges a
tag nor releases its key. -/
def between : Phase τ → Phase τ → Move τ
  | .working, .completed => .complete
  | .working, .finished => .leave
  | .completed, .finished => .leave
  | _, _ => .keep

omit [DecidableEq τ] in
@[simp]
theorem between_self (phase : Phase τ) : between phase phase = .keep := by
  cases phase <;> rfl

omit [DecidableEq τ] in
theorem between_ne_acknowledge (first second : Phase τ) (tag : τ) :
    between first second ≠ .acknowledge tag := by
  cases first <;> cases second <;> exact nofun

/-- The tags that a move acknowledges. -/
def tags : Move τ → List τ
  | .acknowledge tag => [tag]
  | _ => []

/-- The stored tags after a move of a holder of `key`. -/
def stored (key : κ) (before : κ → Option τ) : Move τ → κ → Option τ
  | .release => update before key none
  | _ => before

omit [DecidableEq τ] in
@[simp]
theorem tags_between (first second : Phase τ) :
    (between first second).tags = [] := by
  cases first <;> cases second <;> rfl

omit [DecidableEq τ] in
@[simp]
theorem stored_between
    (key : κ) (before : κ → Option τ) (first second : Phase τ) :
    (between first second).stored key before = before := by
  cases first <;> cases second <;> rfl

end Move

/-- `new` is `old` after a move while `stored` is the tag of its key. -/
inductive HolderStep (stored : Option τ) (old : Holder κ ℓ τ) :
    Move τ → Holder κ ℓ τ → Prop where
  | keep : HolderStep stored old .keep old
  | complete (working : old.phase = .working) :
      HolderStep stored old .complete
        { old with phase := .completed, hasCompleted := true }
  | acknowledge (tag : τ) (completed : old.phase = .completed)
      (actual : stored = some tag) :
      HolderStep stored old (.acknowledge tag)
        { old with phase := .acknowledging tag }
  | release
      (releasable :
        old.phase = .completed ∨ ∃ tag, old.phase = .acknowledging tag) :
      HolderStep stored old .release { old with phase := .finished }
  | leave (leavable : old.phase = .working ∨ old.phase = .completed) :
      HolderStep stored old .leave { old with phase := .finished }

theorem run_move
    {state : State κ ℓ τ} {index : ℕ} {old new : Holder κ ℓ τ} {move : Move τ}
    (present : state.holders[index]? = some old)
    (moved : HolderStep (state.stored old.key) old move new) :
    machine.run state (move.events index) =
      some
        { state with
          holders := state.holders.set index new
          stored := move.stored old.key state.stored
          acknowledged := move.tags ++ state.acknowledged } := by
  cases moved with
  | keep =>
      obtain ⟨inside, found⟩ := List.getElem?_eq_some_iff.mp present
      have same : state.holders.set index old = state.holders := by
        rw [← found]
        exact List.set_getElem_self inside
      simp [Move.events, Move.stored, Move.tags, same]
  | complete working =>
      simp [Move.events, Move.stored, Move.tags, machine, State.complete,
        present, working]
  | acknowledge tag completed actual =>
      simp [Move.events, Move.stored, Move.tags, machine, State.acknowledge,
        present, completed, actual]
  | release releasable =>
      rcases releasable with completed | ⟨tag, acknowledging⟩
      · simp [Move.events, Move.stored, Move.tags, machine, State.release,
          present, completed]
      · simp [Move.events, Move.stored, Move.tags, machine, State.release,
          present, acknowledging]
  | leave leavable =>
      rcases leavable with working | completed
      · simp [Move.events, Move.stored, Move.tags, machine, State.leave,
          present, working]
      · simp [Move.events, Move.stored, Move.tags, machine, State.leave,
          present, completed]

/-- A delivery whose key is free, and the first move of its holder. -/
theorem run_deliver_move
    (state : State κ ℓ τ) {key : κ} {label : Option ℓ} {tag : τ}
    {new : Holder κ ℓ τ} {move : Move τ}
    (fresh : tag ∉ state.deliveries.map Delivery.tag)
    (free : state.stored key = none)
    (moved : HolderStep (some tag) ⟨key, label, .working, false⟩ move new) :
    machine.run state
        (.deliver key label tag :: move.events state.holders.length) =
      some
        { state with
          holders := state.holders ++ [new]
          deliveries := ⟨tag, key, label⟩ :: state.deliveries
          stored := move.stored key (update state.stored key (some tag))
          acknowledged := move.tags ++ state.acknowledged } := by
  have delivered :
      state.deliver key label tag =
        some
          { state with
            stored := update state.stored key (some tag)
            deliveries := ⟨tag, key, label⟩ :: state.deliveries
            holders := state.holders ++ [⟨key, label, .working, false⟩] } := by
    rw [deliver_eq_some_iff]
    exact ⟨fresh, by simp [free]⟩
  rw [Machine.run_cons_iff]
  refine ⟨_, delivered, ?_⟩
  have placed :
      (state.holders ++ [⟨key, label, .working, false⟩])[state.holders.length]? =
        some ⟨key, label, .working, false⟩ := by simp
  have storedTag :
      HolderStep (update state.stored key (some tag) key)
        ⟨key, label, .working, false⟩ move new := by
    simpa using moved
  rw [run_move placed storedTag]
  simp

/-- A delivery whose key is taken. -/
theorem run_deliver_taken
    (state : State κ ℓ τ) {key : κ} (label : Option ℓ) {tag : τ}
    (fresh : tag ∉ state.deliveries.map Delivery.tag)
    (taken : state.stored key ≠ none) :
    machine.run state [.deliver key label tag] =
      some
        { state with
          stored := update state.stored key (some tag)
          deliveries := ⟨tag, key, label⟩ :: state.deliveries } := by
  obtain ⟨other, stored⟩ := Option.ne_none_iff_exists'.mp taken
  rw [Machine.run_singleton]
  refine deliver_eq_some_iff.mpr ⟨fresh, ?_⟩
  simp [stored]

/-! ## Holder lists -/

section HolderLists

variable {α : Type*}

theorem mem_set_of_mem
    {items : List α} {index : ℕ} {old item : α} (new : α)
    (present : items[index]? = some old) (member : item ∈ items) :
    item ∈ items.set index new ∨ item = old := by
  obtain ⟨position, found⟩ := List.mem_iff_getElem?.mp member
  by_cases same : position = index
  · subst position
    exact Or.inr (Option.some.inj (found.symm.trans present))
  · refine Or.inl (List.mem_iff_getElem?.mpr ⟨position, ?_⟩)
    rw [List.getElem?_set_ne (Ne.symm same)]
    exact found

theorem new_mem_set
    {items : List α} {index : ℕ} {old new : α}
    (present : items[index]? = some old) :
    new ∈ items.set index new := by
  obtain ⟨inside, _⟩ := List.getElem?_eq_some_iff.mp present
  exact List.mem_set inside new

end HolderLists

/-! ## Tags and their deliveries -/

/-- Every stored tag was delivered under its key, and a tag is delivered once. -/
structure DeliveryInvariant (state : State κ ℓ τ) : Prop where
  stored_delivered :
    ∀ key tag, state.stored key = some tag →
      ∃ delivery ∈ state.deliveries,
        delivery.tag = tag ∧ delivery.key = key
  delivered_once :
    ∀ first ∈ state.deliveries, ∀ second ∈ state.deliveries,
      first.tag = second.tag → first = second

section

omit [DecidableEq κ] [DecidableEq τ]

theorem DeliveryInvariant.of_stored
    {state next : State κ ℓ τ}
    (invariant : DeliveryInvariant state)
    (sameDeliveries : next.deliveries = state.deliveries)
    (fewerStored :
      ∀ key tag, next.stored key = some tag → state.stored key = some tag) :
    DeliveryInvariant next where
  stored_delivered key tag stored := by
    rw [sameDeliveries]
    exact invariant.stored_delivered key tag (fewerStored key tag stored)
  delivered_once := by
    rw [sameDeliveries]
    exact invariant.delivered_once

theorem DeliveryInvariant.key_eq
    {state : State κ ℓ τ} (invariant : DeliveryInvariant state)
    {first second : κ} {tag : τ}
    (firstStored : state.stored first = some tag)
    (secondStored : state.stored second = some tag) :
    first = second := by
  obtain ⟨one, oneMember, oneTag, oneKey⟩ :=
    invariant.stored_delivered first tag firstStored
  obtain ⟨two, twoMember, twoTag, twoKey⟩ :=
    invariant.stored_delivered second tag secondStored
  have same : one = two :=
    invariant.delivered_once one oneMember two twoMember
      (oneTag.trans twoTag.symm)
  rw [← oneKey, ← twoKey, same]

theorem tag_ne_of_fresh
    {deliveries : List (Delivery κ ℓ τ)} {tag : τ}
    (fresh : tag ∉ deliveries.map Delivery.tag) :
    ∀ delivery ∈ deliveries, delivery.tag ≠ tag := by
  intro delivery member same
  exact fresh (List.mem_map.mpr ⟨delivery, member, same⟩)

end

theorem deliveryInvariant_deliver
    {state next : State κ ℓ τ} {key : κ} {label : Option ℓ} {tag : τ}
    (invariant : DeliveryInvariant state)
    (stepped : state.deliver key label tag = some next) :
    DeliveryInvariant next := by
  obtain ⟨fresh, rfl⟩ := deliver_eq_some_iff.mp stepped
  have freshTag := tag_ne_of_fresh fresh
  constructor
  · intro other stored storedThere
    by_cases same : other = key
    · subst same
      simp only [update_self, Option.some.injEq] at storedThere
      subst storedThere
      exact ⟨_, List.mem_cons_self, rfl, rfl⟩
    · simp only [update_of_ne same] at storedThere
      obtain ⟨delivery, member, rest⟩ :=
        invariant.stored_delivered other stored storedThere
      exact ⟨delivery, List.mem_cons_of_mem _ member, rest⟩
  · intro first firstMember second secondMember sameTag
    rcases List.mem_cons.mp firstMember with rfl | firstOld
    · rcases List.mem_cons.mp secondMember with rfl | secondOld
      · rfl
      · exact absurd sameTag.symm (freshTag second secondOld)
    · rcases List.mem_cons.mp secondMember with rfl | secondOld
      · exact absurd sameTag (freshTag first firstOld)
      · exact invariant.delivered_once first firstOld second secondOld sameTag

omit [DecidableEq τ] in
theorem stored_of_release
    {stored : κ → Option τ} {key other : κ} {tag : τ}
    (still : update stored key none other = some tag) :
    other ≠ key ∧ stored other = some tag := by
  by_cases same : other = key
  · subst same
    simp at still
  · exact ⟨same, by simpa only [update_of_ne same] using still⟩

theorem deliveryInvariant_preserved :
    (machine (κ := κ) (ℓ := ℓ) (τ := τ)).Preserved DeliveryInvariant := by
  intro state event next invariant stepped
  cases event with
  | deliver key label tag =>
      exact deliveryInvariant_deliver invariant stepped
  | complete index =>
      obtain ⟨holder, _, _, rfl⟩ := complete_cases stepped
      exact invariant.of_stored rfl fun _ _ stored => stored
  | acknowledge index =>
      obtain ⟨holder, tag, _, _, _, rfl⟩ := acknowledge_cases stepped
      exact invariant.of_stored rfl fun _ _ stored => stored
  | release index =>
      obtain ⟨holder, _, rfl⟩ := release_cases stepped
      exact invariant.of_stored rfl
        fun _ _ stored => (stored_of_release stored).2
  | leave index =>
      obtain ⟨holder, _, _, rfl⟩ := leave_cases stepped
      exact invariant.of_stored rfl fun _ _ stored => stored
  | releaseAll =>
      cases stepped
      exact invariant.of_stored rfl fun _ _ stored => by
        simp [State.releaseAll] at stored

theorem deliveryInvariant_initial :
    DeliveryInvariant (machine (κ := κ) (ℓ := ℓ) (τ := τ)).initial where
  stored_delivered := by intro key tag stored; simp [machine] at stored
  delivered_once := by intro first member; simp [machine] at member

/-! ## Acknowledging a tag twice -/

/-- No other holder still waits for the acknowledgement of the tag which the
step is about to acknowledge. -/
def NoOverlap (state : State κ ℓ τ) : Event κ ℓ τ → Prop
  | .acknowledge index =>
      ∀ holder ∈ state.holders[index]?, ∀ tag ∈ state.stored holder.key,
        ∀ other ∈ state.holders, other.phase ≠ .acknowledging tag
  | _ => True

/-- A move can only overlap by acknowledging. -/
theorem throughout_noOverlap_events
    (state : State κ ℓ τ) (index : ℕ) (move : Move τ) :
    machine.Throughout NoOverlap state (move.events index) ↔
      ∀ tag, move = .acknowledge tag → NoOverlap state (.acknowledge index) := by
  cases move <;> simp [Move.events, Machine.Throughout, NoOverlap]

theorem throughout_noOverlap_between
    (state : State κ ℓ τ) (index : ℕ) (first second : Phase τ) :
    machine.Throughout NoOverlap state
      ((Move.between first second).events index) := by
  rw [throughout_noOverlap_events]
  intro tag same
  exact absurd same (Move.between_ne_acknowledge first second tag)

/-- Every acknowledged tag that could be read again is still being waited for. -/
structure PendingInvariant (state : State κ ℓ τ) : Prop where
  acknowledged_delivered :
    ∀ tag ∈ state.acknowledged, ∃ delivery ∈ state.deliveries,
      delivery.tag = tag
  pending_acknowledged :
    ∀ holder ∈ state.holders, ∀ tag, holder.phase = .acknowledging tag →
      tag ∈ state.acknowledged
  stored_pending :
    ∀ key tag, state.stored key = some tag → tag ∈ state.acknowledged →
      ∃ holder ∈ state.holders,
        holder.key = key ∧ holder.phase = .acknowledging tag

theorem pendingInvariant_initial :
    PendingInvariant (machine (κ := κ) (ℓ := ℓ) (τ := τ)).initial where
  acknowledged_delivered := by intro tag member; simp [machine] at member
  pending_acknowledged := by intro holder member; simp [machine] at member
  stored_pending := by intro key tag stored; simp [machine] at stored

/-- Taking in a delivery adds at most one holder, which is working. -/
theorem holder_after_deliver
    {state next : State κ ℓ τ} {key : κ} {label : Option ℓ} {tag : τ}
    (stepped : state.deliver key label tag = some next) :
    (∀ holder ∈ state.holders, holder ∈ next.holders) ∧
      ∀ holder ∈ next.holders,
        holder ∈ state.holders ∨ holder = ⟨key, label, .working, false⟩ := by
  obtain ⟨_, rfl⟩ := deliver_eq_some_iff.mp stepped
  constructor
  · intro holder member
    cases free : state.stored key with
    | none => exact List.mem_append_left _ member
    | some stored => exact member
  · intro holder member
    cases free : state.stored key with
    | none =>
        simp only [free, List.mem_append, List.mem_singleton] at member
        exact member
    | some stored =>
        simp only [free] at member
        exact Or.inl member

theorem pendingInvariant_deliver
    {state next : State κ ℓ τ} {key : κ} {label : Option ℓ} {tag : τ}
    (invariant : PendingInvariant state)
    (stepped : state.deliver key label tag = some next) :
    PendingInvariant next := by
  obtain ⟨keptHolder, oldHolder⟩ := holder_after_deliver stepped
  obtain ⟨fresh, rfl⟩ := deliver_eq_some_iff.mp stepped
  constructor
  · intro acknowledged member
    obtain ⟨delivery, present, sameTag⟩ :=
      invariant.acknowledged_delivered acknowledged member
    exact ⟨delivery, List.mem_cons_of_mem _ present, sameTag⟩
  · intro holder member acknowledged pending
    rcases oldHolder holder member with earlier | rfl
    · exact invariant.pending_acknowledged holder earlier acknowledged pending
    · cases pending
  · intro other stored storedThere acknowledged
    by_cases same : other = key
    · subst same
      simp only [update_self, Option.some.injEq] at storedThere
      subst storedThere
      obtain ⟨delivery, present, sameTag⟩ :=
        invariant.acknowledged_delivered _ acknowledged
      exact absurd sameTag (tag_ne_of_fresh fresh delivery present)
    · simp only [update_of_ne same] at storedThere
      obtain ⟨holder, member, sameKey, pending⟩ :=
        invariant.stored_pending other stored storedThere acknowledged
      exact ⟨holder, keptHolder holder member, sameKey, pending⟩

omit [DecidableEq κ] [DecidableEq τ] in
/-- A holder that is not waiting for an acknowledgement may move to any other
such phase. -/
theorem pendingInvariant_set
    {state : State κ ℓ τ} {index : ℕ} {old new : Holder κ ℓ τ}
    (invariant : PendingInvariant state)
    (present : state.holders[index]? = some old)
    (oldIdle : ∀ tag, old.phase ≠ .acknowledging tag)
    (newIdle : ∀ tag, new.phase ≠ .acknowledging tag) :
    PendingInvariant { state with holders := state.holders.set index new } := by
  constructor
  · exact invariant.acknowledged_delivered
  · intro holder member tag pending
    rcases List.mem_or_eq_of_mem_set member with earlier | rfl
    · exact invariant.pending_acknowledged holder earlier tag pending
    · exact absurd pending (newIdle tag)
  · intro key tag stored acknowledged
    obtain ⟨holder, member, sameKey, pending⟩ :=
      invariant.stored_pending key tag stored acknowledged
    rcases mem_set_of_mem new present member with kept | rfl
    · exact ⟨holder, kept, sameKey, pending⟩
    · exact absurd pending (oldIdle tag)

omit [DecidableEq κ] [DecidableEq τ] in
theorem pendingInvariant_acknowledge
    {state next : State κ ℓ τ} {index : ℕ}
    (delivered : DeliveryInvariant state) (invariant : PendingInvariant state)
    (stepped : state.acknowledge index = some next) :
    PendingInvariant next := by
  obtain ⟨holder, tag, present, completed, stored, rfl⟩ :=
    acknowledge_cases stepped
  constructor
  · intro acknowledged member
    rcases List.mem_cons.mp member with rfl | earlier
    · obtain ⟨delivery, deliveryMember, sameTag, _⟩ :=
        delivered.stored_delivered _ _ stored
      exact ⟨delivery, deliveryMember, sameTag⟩
    · exact invariant.acknowledged_delivered acknowledged earlier
  · intro other member acknowledged pending
    rcases List.mem_or_eq_of_mem_set member with earlier | rfl
    · exact List.mem_cons_of_mem _
        (invariant.pending_acknowledged other earlier acknowledged pending)
    · cases pending
      exact List.mem_cons_self
  · intro key acknowledged storedThere member
    rcases List.mem_cons.mp member with rfl | earlier
    · have sameKey : holder.key = key := delivered.key_eq stored storedThere
      exact ⟨_, new_mem_set present, sameKey, rfl⟩
    · obtain ⟨other, otherMember, sameKey, pending⟩ :=
        invariant.stored_pending key acknowledged storedThere earlier
      rcases mem_set_of_mem _ present otherMember with kept | rfl
      · exact ⟨other, kept, sameKey, pending⟩
      · rw [completed] at pending
        cases pending

omit [DecidableEq τ] in
theorem pendingInvariant_release
    {state next : State κ ℓ τ} {index : ℕ}
    (invariant : PendingInvariant state)
    (stepped : state.release index = some next) :
    PendingInvariant next := by
  obtain ⟨holder, present, rfl⟩ := release_cases stepped
  constructor
  · exact invariant.acknowledged_delivered
  · intro other member tag pending
    rcases List.mem_or_eq_of_mem_set member with earlier | rfl
    · exact invariant.pending_acknowledged other earlier tag pending
    · cases pending
  · intro key tag stored acknowledged
    obtain ⟨otherKey, storedBefore⟩ := stored_of_release stored
    obtain ⟨other, member, sameKey, pending⟩ :=
      invariant.stored_pending key tag storedBefore acknowledged
    rcases mem_set_of_mem _ present member with kept | rfl
    · exact ⟨other, kept, sameKey, pending⟩
    · exact absurd sameKey.symm otherKey

theorem pendingInvariant_preserved :
    (machine (κ := κ) (ℓ := ℓ) (τ := τ)).Preserved fun state =>
      DeliveryInvariant state ∧ PendingInvariant state := by
  rintro state event next ⟨delivered, invariant⟩ stepped
  refine ⟨deliveryInvariant_preserved state event next delivered stepped, ?_⟩
  cases event with
  | deliver key label tag => exact pendingInvariant_deliver invariant stepped
  | complete index =>
      obtain ⟨holder, present, working, rfl⟩ := complete_cases stepped
      exact pendingInvariant_set invariant present
        (by simp [working]) (by simp)
  | acknowledge index =>
      exact pendingInvariant_acknowledge delivered invariant stepped
  | release index => exact pendingInvariant_release invariant stepped
  | leave index =>
      obtain ⟨holder, present, idle, rfl⟩ := leave_cases stepped
      refine pendingInvariant_set invariant present ?_ (by simp)
      rcases idle with working | completed
      · simp [working]
      · simp [completed]
  | releaseAll =>
      cases stepped
      exact
        { acknowledged_delivered := invariant.acknowledged_delivered
          pending_acknowledged := invariant.pending_acknowledged
          stored_pending := by
            intro key tag stored
            simp [State.releaseAll] at stored }

/-- Only `acknowledge` adds to the acknowledged tags. -/
theorem acknowledged_eq_of_step
    {state next : State κ ℓ τ} {event : Event κ ℓ τ}
    (stepped : machine.step state event = some next)
    (other : ∀ index, event ≠ .acknowledge index) :
    next.acknowledged = state.acknowledged := by
  cases event with
  | deliver key label tag =>
      obtain ⟨_, rfl⟩ := deliver_eq_some_iff.mp stepped
      rfl
  | complete index =>
      obtain ⟨_, _, _, rfl⟩ := complete_cases stepped
      rfl
  | acknowledge index => exact absurd rfl (other index)
  | release index =>
      obtain ⟨_, _, rfl⟩ := release_cases stepped
      rfl
  | leave index =>
      obtain ⟨_, _, _, rfl⟩ := leave_cases stepped
      rfl
  | releaseAll =>
      cases stepped
      rfl

theorem acknowledged_nodup_step
    {state next : State κ ℓ τ} {event : Event κ ℓ τ}
    (invariant : PendingInvariant state)
    (distinct : state.acknowledged.Nodup)
    (stepped : machine.step state event = some next) :
    next.acknowledged.Nodup ↔ NoOverlap state event := by
  by_cases acknowledging : ∃ index, event = .acknowledge index
  · obtain ⟨index, rfl⟩ := acknowledging
    obtain ⟨holder, tag, present, _, stored, rfl⟩ := acknowledge_cases stepped
    simp only [List.nodup_cons, distinct, and_true, NoOverlap, present, stored,
      Option.mem_def, Option.some.injEq, forall_eq']
    constructor
    · intro absent other member pending
      exact absent (invariant.pending_acknowledged other member tag pending)
    · intro alone acknowledged
      obtain ⟨other, member, _, pending⟩ :=
        invariant.stored_pending holder.key tag stored acknowledged
      exact alone other member pending
  · have other : ∀ index, event ≠ .acknowledge index :=
      fun index same => acknowledging ⟨index, same⟩
    rw [acknowledged_eq_of_step stepped other]
    cases event <;> simp_all [NoOverlap]

/-- No tag is acknowledged twice exactly when no holder reads a tag while
another holder still waits for the acknowledgement of that tag. -/
theorem acknowledged_nodup_iff_no_overlap
    {schedule : List (Event κ ℓ τ)} {state : State κ ℓ τ}
    (execution : machine.run machine.initial schedule = some state) :
    state.acknowledged.Nodup ↔
      machine.Throughout NoOverlap machine.initial schedule := by
  refine Machine.sound_iff_throughout
    (fun current => current.acknowledged.Nodup) NoOverlap
    pendingInvariant_preserved ?_ ?_
    ⟨deliveryInvariant_initial, pendingInvariant_initial⟩ ?_ execution
  · intro current event next _ stepped distinct
    by_cases acknowledging : ∃ index, event = .acknowledge index
    · obtain ⟨index, rfl⟩ := acknowledging
      obtain ⟨_, _, _, _, _, rfl⟩ := acknowledge_cases stepped
      exact (List.nodup_cons.mp distinct).2
    · rw [← acknowledged_eq_of_step stepped fun index same =>
        acknowledging ⟨index, same⟩]
      exact distinct
  · intro current event next holds distinct stepped
    exact acknowledged_nodup_step holds.2 distinct stepped
  · exact List.nodup_nil

/-! ## Acknowledging only what was completed -/

/-- Some holder of `key` labelled `label` has completed its work. -/
def Completed (state : State κ ℓ τ) (key : κ) (label : ℓ) : Prop :=
  ∃ holder ∈ state.holders,
    holder.key = key ∧ holder.label = some label ∧ holder.hasCompleted = true

/-- A labelled delivery arrives only while every holder of its key that has not
yet read its tag carries the same label, or after that label was completed. -/
def LabelsAgree (state : State κ ℓ τ) : Event κ ℓ τ → Prop
  | .deliver key label _ =>
      ∀ carried ∈ label, ∀ holder ∈ state.holders,
        holder.key = key →
        holder.phase = .working ∨ holder.phase = .completed →
        holder.label = some carried ∨ Completed state key carried
  | _ => True

/-- A move brings no delivery. -/
theorem throughout_labelsAgree_events
    (state : State κ ℓ τ) (index : ℕ) (move : Move τ) :
    machine.Throughout LabelsAgree state (move.events index) := by
  cases move <;> simp [Move.events, Machine.Throughout, LabelsAgree]

structure LabelInvariant (state : State κ ℓ τ) : Prop where
  completed_marked :
    ∀ holder ∈ state.holders, holder.phase = .completed →
      holder.hasCompleted = true
  stored_label :
    ∀ delivery ∈ state.deliveries, ∀ label ∈ delivery.label,
      state.stored delivery.key = some delivery.tag →
      ∀ holder ∈ state.holders, holder.key = delivery.key →
        holder.phase = .working ∨ holder.phase = .completed →
        holder.label = some label ∨ Completed state delivery.key label
  acknowledged_label :
    ∀ delivery ∈ state.deliveries, ∀ label ∈ delivery.label,
      delivery.tag ∈ state.acknowledged →
      Completed state delivery.key label

omit [DecidableEq κ] [DecidableEq τ] in
theorem Completed.of_set
    {state : State κ ℓ τ} {index : ℕ} {old new : Holder κ ℓ τ}
    {key : κ} {label : ℓ}
    (present : state.holders[index]? = some old)
    (sameKey : new.key = old.key) (sameLabel : new.label = old.label)
    (stillCompleted : old.hasCompleted = true → new.hasCompleted = true)
    (completed : Completed state key label) :
    ∃ holder ∈ state.holders.set index new,
      holder.key = key ∧ holder.label = some label ∧
        holder.hasCompleted = true := by
  obtain ⟨holder, member, itsKey, itsLabel, done⟩ := completed
  rcases mem_set_of_mem new present member with kept | rfl
  · exact ⟨holder, kept, itsKey, itsLabel, done⟩
  · exact ⟨new, new_mem_set present, sameKey.trans itsKey,
      sameLabel.trans itsLabel, stillCompleted done⟩

omit [DecidableEq κ] [DecidableEq τ] in
/-- A step that moves one holder on keeps the invariant, provided that the
holder keeps its key and label, that completion is recorded, and that the tags
stored and acknowledged afterwards are accounted for. -/
theorem labelInvariant_set
    {state next : State κ ℓ τ} {index : ℕ} {old : Holder κ ℓ τ}
    (new : Holder κ ℓ τ) (invariant : LabelInvariant state)
    (present : state.holders[index]? = some old)
    (sameKey : new.key = old.key) (sameLabel : new.label = old.label)
    (stillCompleted : old.hasCompleted = true → new.hasCompleted = true)
    (marked : new.phase = .completed → new.hasCompleted = true)
    (active :
      new.phase = .working ∨ new.phase = .completed →
        old.phase = .working ∨ old.phase = .completed)
    (holders : next.holders = state.holders.set index new)
    (deliveries : next.deliveries = state.deliveries)
    (stored :
      ∀ key tag, next.stored key = some tag → state.stored key = some tag)
    (acknowledged :
      ∀ delivery ∈ state.deliveries, ∀ label ∈ delivery.label,
        delivery.tag ∈ next.acknowledged →
          Completed state delivery.key label) :
    LabelInvariant next := by
  have kept :
      ∀ key label, Completed state key label → Completed next key label := by
    intro key label completed
    unfold Completed
    rw [holders]
    exact completed.of_set present sameKey sameLabel stillCompleted
  constructor
  · intro holder member completed
    rw [holders] at member
    rcases List.mem_or_eq_of_mem_set member with earlier | rfl
    · exact invariant.completed_marked holder earlier completed
    · exact marked completed
  · intro delivery member label carried storedThere holder holderMember itsKey
      holderActive
    rw [deliveries] at member
    have storedBefore := stored _ _ storedThere
    rw [holders] at holderMember
    rcases List.mem_or_eq_of_mem_set holderMember with earlier | rfl
    · exact (invariant.stored_label delivery member label carried storedBefore
        holder earlier itsKey holderActive).imp_right (kept _ _)
    · rw [sameLabel]
      exact (invariant.stored_label delivery member label carried storedBefore
        old (List.mem_of_getElem? present) (sameKey.symm.trans itsKey)
        (active holderActive)).imp_right (kept _ _)
  · intro delivery member label carried done
    rw [deliveries] at member
    exact kept _ _ (acknowledged delivery member label carried done)

theorem labelInvariant_deliver
    {state next : State κ ℓ τ} {key : κ} {label : Option ℓ} {tag : τ}
    (pending : PendingInvariant state) (invariant : LabelInvariant state)
    (agree : LabelsAgree state (.deliver key label tag))
    (stepped : state.deliver key label tag = some next) :
    LabelInvariant next := by
  obtain ⟨keptHolder, oldHolder⟩ := holder_after_deliver stepped
  have kept :
      ∀ other carried, Completed state other carried →
        Completed next other carried := by
    rintro other carried ⟨holder, member, rest⟩
    exact ⟨holder, keptHolder holder member, rest⟩
  obtain ⟨fresh, rfl⟩ := deliver_eq_some_iff.mp stepped
  have freshTag := tag_ne_of_fresh fresh
  constructor
  · intro holder member completed
    rcases oldHolder holder member with earlier | rfl
    · exact invariant.completed_marked holder earlier completed
    · cases completed
  · intro delivery member carried carriedThere stored holder holderMember
      itsKey active
    rcases List.mem_cons.mp member with rfl | earlier
    · rcases oldHolder holder holderMember with earlierHolder | rfl
      · exact (agree carried carriedThere holder earlierHolder itsKey
          active).imp_right (kept _ _)
      · exact Or.inl carriedThere
    · have otherKey : delivery.key ≠ key := by
        intro same
        simp only [same, update_self, Option.some.injEq] at stored
        exact freshTag delivery earlier stored.symm
      simp only [update_of_ne otherKey] at stored
      rcases oldHolder holder holderMember with earlierHolder | rfl
      · exact (invariant.stored_label delivery earlier carried carriedThere
          stored holder earlierHolder itsKey active).imp_right (kept _ _)
      · exact absurd itsKey.symm otherKey
  · intro delivery member carried carriedThere done
    rcases List.mem_cons.mp member with rfl | earlier
    · obtain ⟨other, present, sameTag⟩ := pending.acknowledged_delivered _ done
      exact absurd sameTag (freshTag other present)
    · exact kept _ _
        (invariant.acknowledged_label delivery earlier carried carriedThere
          done)

omit [DecidableEq κ] [DecidableEq τ] in
theorem labelInvariant_acknowledge
    {state next : State κ ℓ τ} {index : ℕ}
    (delivered : DeliveryInvariant state) (invariant : LabelInvariant state)
    (stepped : state.acknowledge index = some next) :
    LabelInvariant next := by
  obtain ⟨holder, tag, present, completed, stored, rfl⟩ :=
    acknowledge_cases stepped
  have holderMember := List.mem_of_getElem? present
  refine labelInvariant_set { holder with phase := .acknowledging tag }
    invariant present rfl rfl id (by simp) (by simp)
    rfl rfl (fun _ _ same => same) ?_
  intro delivery member label carried done
  rcases List.mem_cons.mp done with sameTag | earlier
  · obtain ⟨origin, originMember, originTag, originKey⟩ :=
      delivered.stored_delivered _ _ stored
    have same : delivery = origin :=
      delivered.delivered_once delivery member origin originMember
        (sameTag.trans originTag.symm)
    subst same
    have storedHere : state.stored delivery.key = some delivery.tag := by
      rw [originKey, originTag]
      exact stored
    rcases invariant.stored_label delivery member label carried storedHere
        holder holderMember originKey.symm (Or.inr completed) with
      itsLabel | alreadyCompleted
    · exact ⟨holder, holderMember, originKey.symm, itsLabel,
        invariant.completed_marked holder holderMember completed⟩
    · exact alreadyCompleted
  · exact invariant.acknowledged_label delivery member label carried earlier

theorem labelInvariant_preserved :
    (machine (κ := κ) (ℓ := ℓ) (τ := τ)).PreservedUnder LabelsAgree fun state =>
      (DeliveryInvariant state ∧ PendingInvariant state) ∧
        LabelInvariant state := by
  rintro state event next ⟨⟨delivered, pending⟩, invariant⟩ agree stepped
  refine ⟨pendingInvariant_preserved state event next ⟨delivered, pending⟩
    stepped, ?_⟩
  have sameAcknowledged := invariant.acknowledged_label
  cases event with
  | deliver key label tag =>
      exact labelInvariant_deliver pending invariant agree stepped
  | complete index =>
      obtain ⟨holder, present, working, rfl⟩ := complete_cases stepped
      exact labelInvariant_set
        { holder with phase := .completed, hasCompleted := true }
        invariant present rfl rfl (fun _ => rfl)
        (fun _ => rfl) (fun _ => Or.inl working) rfl rfl
        (fun _ _ same => same) sameAcknowledged
  | acknowledge index =>
      exact labelInvariant_acknowledge delivered invariant stepped
  | release index =>
      obtain ⟨holder, present, rfl⟩ := release_cases stepped
      exact labelInvariant_set { holder with phase := .finished }
        invariant present rfl rfl id (by simp)
        (by simp) rfl rfl (fun _ _ still => (stored_of_release still).2)
        sameAcknowledged
  | leave index =>
      obtain ⟨holder, present, _, rfl⟩ := leave_cases stepped
      exact labelInvariant_set { holder with phase := .finished }
        invariant present rfl rfl id (by simp)
        (by simp) rfl rfl (fun _ _ same => same) sameAcknowledged
  | releaseAll =>
      cases stepped
      exact
        { completed_marked := invariant.completed_marked
          stored_label := by
            intro delivery _ label _ stored
            simp [State.releaseAll] at stored
          acknowledged_label := sameAcknowledged }

/-- While deliveries agree with the holders of their keys, every acknowledged
delivery carries a label that a holder of its key has completed. -/
theorem acknowledged_labels_completed
    {schedule : List (Event κ ℓ τ)} {state : State κ ℓ τ}
    (agree : machine.Throughout LabelsAgree machine.initial schedule)
    (execution : machine.run machine.initial schedule = some state) :
    ∀ delivery ∈ state.deliveries, ∀ label ∈ delivery.label,
      delivery.tag ∈ state.acknowledged →
        Completed state delivery.key label := by
  have initially :
      (DeliveryInvariant (machine (κ := κ) (ℓ := ℓ) (τ := τ)).initial ∧
        PendingInvariant (machine (κ := κ) (ℓ := ℓ) (τ := τ)).initial) ∧
        LabelInvariant (machine (κ := κ) (ℓ := ℓ) (τ := τ)).initial :=
    ⟨⟨deliveryInvariant_initial, pendingInvariant_initial⟩,
      { completed_marked := by intro holder member; simp [machine] at member
        stored_label := by intro delivery member; simp [machine] at member
        acknowledged_label := by
          intro delivery member; simp [machine] at member }⟩
  exact (Machine.run_invariant_under labelInvariant_preserved initially agree
    execution).2.acknowledged_label

end Amq.Transition.KeyedLock
