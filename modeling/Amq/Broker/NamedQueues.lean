import Amq.Broker.ExchangeBroker
import Amq.Broker.WorkQueue
import Mathlib.Data.List.Dedup

/-!
# Named queues with dead letters

Queues of direct exchanges, with acknowledged deliveries.  A queue may be declared
with an address for its dead letters; a message that leaves such a queue is
published there.  Copies in all queues form one list, each with the name of its
queue.
-/

namespace Amq.Broker

open Function

/-- Where the dead letters of a queue are published. -/
structure DeadLetterAddress (ε κ : Type) where
  exchange : ε
  key : κ
  deriving DecidableEq

structure NamedQueues (ν ε κ τ μ : Type) where
  /-- The declared queues, with the addresses of their dead letters. -/
  declared : ν → Option (Option (DeadLetterAddress ε κ))
  bindings : List (Binding ν ε κ)
  ready : List (ν × μ)
  unacknowledged : List (τ × ν × μ)

inductive NamedQueuesEvent (ν ε κ τ μ : Type) where
  | declare (queue : ν) (deadLetters : Option (DeadLetterAddress ε κ))
  | bind (binding : Binding ν ε κ)
  | publish (exchange : ε) (key : κ) (message : μ)
  /-- Publish to the default exchange, by the name of the queue. -/
  | send (queue : ν) (message : μ)
  /-- The time to live of the message has run out. -/
  | deadLetter (queue : ν) (message : μ)
  | lose (queue : ν) (message : μ)
  | delete (queue : ν)
  | deliver (tag : τ) (queue : ν) (message : μ)
  | settle (tag : τ)
  /-- The deliveries with these tags are taken back. -/
  | requeue (tags : τ → Bool)

namespace NamedQueues

variable {ν ε κ τ μ : Type}

def empty : NamedQueues ν ε κ τ μ where
  declared := fun _ => none
  bindings := []
  ready := []
  unacknowledged := []

section Step

variable [DecidableEq ν] [DecidableEq ε] [DecidableEq κ]

/-- The queues that get a copy. -/
def targets
    (broker : NamedQueues ν ε κ τ μ) (exchange : ε) (key : κ) : List ν :=
  ((broker.bindings.filter fun binding =>
      binding.exchange = exchange ∧ binding.key = key).map Binding.queue).dedup

def publish
    (broker : NamedQueues ν ε κ τ μ) (exchange : ε) (key : κ) (message : μ) :
    NamedQueues ν ε κ τ μ :=
  { broker with
    ready :=
      broker.ready ++ (broker.targets exchange key).map fun queue =>
        (queue, message) }

variable [DecidableEq τ] [DecidableEq μ]

def step (broker : NamedQueues ν ε κ τ μ) :
    NamedQueuesEvent ν ε κ τ μ → Option (NamedQueues ν ε κ τ μ)
  | .declare queue deadLetters =>
      match broker.declared queue with
      -- A queue is declared again with the same arguments only.
      | some address => if address = deadLetters then some broker else none
      | none =>
          some
            { broker with
              declared := update broker.declared queue (some deadLetters) }
  | .bind binding =>
      if (broker.declared binding.queue).isSome then
        some { broker with bindings := binding :: broker.bindings }
      else
        none
  | .publish exchange key message => some (broker.publish exchange key message)
  | .send queue message =>
      if (broker.declared queue).isSome then
        some { broker with ready := broker.ready ++ [(queue, message)] }
      else
        -- Without the queue the message is dropped.
        some broker
  | .deadLetter queue message =>
      match broker.declared queue with
      | some (some address) =>
          if broker.ready.contains (queue, message) then
            some <|
              { broker with ready := broker.ready.erase (queue, message) }.publish
                address.exchange address.key message
          else
            none
      | _ => none
  | .lose queue message =>
      if broker.ready.contains (queue, message) then
        some { broker with ready := broker.ready.erase (queue, message) }
      else
        none
  | .delete queue =>
      if broker.ready.all fun entry => entry.1 ≠ queue then
        some
          { broker with
            declared := update broker.declared queue none
            bindings :=
              broker.bindings.filter fun binding => binding.queue ≠ queue
            unacknowledged :=
              broker.unacknowledged.filter fun entry => entry.2.1 ≠ queue }
      else
        none
  | .deliver tag queue message =>
      if broker.ready.contains (queue, message) ∧
          tag ∉ broker.unacknowledged.map Prod.fst then
        some
          { broker with
            ready := broker.ready.erase (queue, message)
            unacknowledged := (tag, queue, message) :: broker.unacknowledged }
      else
        none
  | .settle tag =>
      match broker.unacknowledged.find? fun entry => entry.1 = tag with
      | some entry =>
          some
            { broker with
              unacknowledged := broker.unacknowledged.erase entry }
      | none => none
  | .requeue taken =>
      some
        { broker with
          ready :=
            broker.ready ++
              (broker.unacknowledged.filter fun entry => taken entry.1).map
                Prod.snd
          unacknowledged :=
            broker.unacknowledged.filter fun entry => !taken entry.1 }

end Step

/-! ## The messages of some queues -/

section Messages

variable {accepts accepts' : ν → Bool} {entries : List (ν × μ)}
variable {queue : ν} {message : μ}

/-- The messages of the accepted queues. -/
def messagesIn (accepts : ν → Bool) (entries : List (ν × μ)) : List μ :=
  (entries.filter fun entry => accepts entry.1).map Prod.snd

theorem mem_messagesIn_iff :
    message ∈ messagesIn accepts entries ↔
      ∃ queue, accepts queue = true ∧ (queue, message) ∈ entries := by
  simp only [messagesIn, List.mem_map, List.mem_filter, Prod.exists,
    exists_eq_right]
  exact exists_congr fun queue => and_comm

theorem messagesIn_append (first second : List (ν × μ)) :
    messagesIn accepts (first ++ second) =
      messagesIn accepts first ++ messagesIn accepts second := by
  simp [messagesIn]

theorem messagesIn_singleton_of_accepts (accepted : accepts queue = true) :
    messagesIn accepts [(queue, message)] = [message] := by
  simp [messagesIn, accepted]

theorem messagesIn_singleton_of_rejects (rejected : accepts queue = false) :
    messagesIn accepts [(queue, message)] = [] := by
  simp [messagesIn, rejected]

theorem messagesIn_of_rejects
    (rejected : ∀ entry ∈ entries, accepts entry.1 = false) :
    messagesIn accepts entries = [] := by
  unfold messagesIn
  rw [List.filter_eq_nil_iff.mpr (by simpa using rejected), List.map_nil]

theorem messagesIn_of_accepts
    (accepted : ∀ entry ∈ entries, accepts entry.1 = true) :
    messagesIn accepts entries = entries.map Prod.snd := by
  unfold messagesIn
  rw [List.filter_eq_self.mpr accepted]

theorem messagesIn_congr
    (agree : ∀ entry ∈ entries, accepts entry.1 = accepts' entry.1) :
    messagesIn accepts entries = messagesIn accepts' entries := by
  unfold messagesIn
  rw [List.filter_congr agree]

variable [DecidableEq ν] [DecidableEq μ]

theorem messagesIn_erase_of_accepts
    (accepted : accepts queue = true) (member : (queue, message) ∈ entries) :
    (messagesIn accepts (entries.erase (queue, message))).Perm
      ((messagesIn accepts entries).erase message) := by
  have moved := ((List.perm_cons_erase member).filter
    fun entry => accepts entry.1).map Prod.snd
  rw [List.filter_cons_of_pos (by simpa using accepted), List.map_cons] at moved
  have erased := moved.erase message
  rw [List.erase_cons_head] at erased
  exact erased.symm

theorem messagesIn_erase_of_rejects
    (rejected : accepts queue = false) :
    (messagesIn accepts (entries.erase (queue, message))).Perm
      (messagesIn accepts entries) := by
  by_cases member : (queue, message) ∈ entries
  · have moved := ((List.perm_cons_erase member).filter
      fun entry => accepts entry.1).map Prod.snd
    rw [List.filter_cons_of_neg (by simp [rejected])] at moved
    exact moved.symm
  · rw [List.erase_of_not_mem member]

end Messages

/-! ## Where an exchange puts its messages -/

section Targets

variable [DecidableEq ν] [DecidableEq ε] [DecidableEq κ]
variable {broker : NamedQueues ν ε κ τ μ} {exchange : ε} {key : κ} {queue : ν}

theorem mem_targets_iff :
    queue ∈ broker.targets exchange key ↔
      ⟨queue, exchange, key⟩ ∈ broker.bindings := by
  simp only [targets, List.mem_dedup, List.mem_map, List.mem_filter,
    decide_eq_true_eq]
  constructor
  · rintro ⟨binding, ⟨member, rfl, rfl⟩, rfl⟩
    exact member
  · intro member
    exact ⟨_, ⟨member, rfl, rfl⟩, rfl⟩

/-- If only this queue is bound with the key, it gets the one copy. -/
theorem targets_eq_singleton
    (bound : ⟨queue, exchange, key⟩ ∈ broker.bindings)
    (only : ∀ other, ⟨other, exchange, key⟩ ∈ broker.bindings → other = queue) :
    broker.targets exchange key = [queue] := by
  have distinct : (broker.targets exchange key).Nodup := List.nodup_dedup _
  have present : queue ∈ broker.targets exchange key := mem_targets_iff.mpr bound
  have same : ∀ other ∈ broker.targets exchange key, other = queue :=
    fun other member => only other (mem_targets_iff.mp member)
  generalize broker.targets exchange key = found at distinct present same
  cases found with
  | nil => cases present
  | cons first rest =>
      have isFirst := same first List.mem_cons_self
      cases rest with
      | nil => rw [isFirst]
      | cons second others =>
          have isSecond := same second (by simp)
          rw [isFirst, isSecond] at distinct
          simp at distinct

theorem targets_eq_nil
    (unbound : ∀ other, ⟨other, exchange, key⟩ ∉ broker.bindings) :
    broker.targets exchange key = [] := by
  rw [List.eq_nil_iff_forall_not_mem]
  intro other member
  exact unbound other (mem_targets_iff.mp member)

end Targets

/-! ## Settled deliveries -/

section Settle

variable [DecidableEq ν] [DecidableEq ε] [DecidableEq κ] [DecidableEq τ]
variable [DecidableEq μ] {broker next : NamedQueues ν ε κ τ μ} {tag : τ}

theorem settle_cases (stepped : broker.step (.settle tag) = some next) :
    ∃ entry,
      (broker.unacknowledged.find? fun entry => entry.1 = tag) = some entry ∧
        next =
          { broker with
            unacknowledged :=
              broker.unacknowledged.eraseP fun entry => entry.1 = tag } := by
  simp only [step] at stepped
  cases found : broker.unacknowledged.find? fun entry => entry.1 = tag with
  | none => simp [found] at stepped
  | some entry =>
      rw [found] at stepped
      rw [← WorkQueue.erase_of_find found]
      exact ⟨entry, rfl, (Option.some.inj stepped).symm⟩

theorem settle_eq_none_iff :
    broker.step (.settle tag) = none ↔
      (broker.unacknowledged.find? fun entry => entry.1 = tag) = none := by
  simp only [step]
  cases broker.unacknowledged.find? fun entry => entry.1 = tag with
  | none => simp
  | some entry => simp

end Settle

end NamedQueues

end Amq.Broker
