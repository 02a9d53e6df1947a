import Mathlib.Data.Nat.Notation
import Mathlib.Data.List.Basic
import Mathlib.Data.List.Perm.Basic
import Mathlib.Logic.Function.Basic

/-!
# Exchanges, bindings and queues without acknowledgements

A message that is published to an exchange goes to every declared queue with a
binding that covers its routing key, one copy to each.  A queue hands out its
copies in their order, and each copy is gone with its delivery.

What an exchange of a type covers is left open.  `Accounted` balances what was
ever routed into a queue with what has become of it.
-/

namespace Amq.Broker

open Function

universe u v w

/-- A queue with all that was ever put into it, handed out or dropped, the oldest
first. -/
structure AutoQueue (γ : Type u) (μ : Type v) where
  isDeclared : Bool
  contents : List μ
  routed : List μ
  delivered : List (γ × μ)
  dropped : List μ

namespace AutoQueue

variable {γ : Type u} {μ : Type v}

def empty : AutoQueue γ μ where
  isDeclared := false
  contents := []
  routed := []
  delivered := []
  dropped := []

def declare (queue : AutoQueue γ μ) : AutoQueue γ μ :=
  { queue with isDeclared := true }

def enqueue (queue : AutoQueue γ μ) (message : μ) : AutoQueue γ μ :=
  { queue with
    contents := queue.contents ++ [message]
    routed := queue.routed ++ [message] }

/-- The oldest copy goes to the consumer. -/
def deliver (queue : AutoQueue γ μ) (consumer : γ) : Option (AutoQueue γ μ) :=
  match queue.contents with
  | [] => none
  | message :: rest =>
      some
        { queue with
          contents := rest
          delivered := queue.delivered ++ [(consumer, message)] }

/-- One copy has expired or been lost. -/
def drop [DecidableEq μ] (queue : AutoQueue γ μ) (message : μ) :
    Option (AutoQueue γ μ) :=
  if message ∈ queue.contents then
    some
      { queue with
        contents := queue.contents.erase message
        dropped := queue.dropped ++ [message] }
  else
    none

/-- The queue is deleted with all its copies. -/
def delete (queue : AutoQueue γ μ) : AutoQueue γ μ :=
  { queue with
    isDeclared := false
    contents := []
    dropped := queue.dropped ++ queue.contents }

/-- What was routed into the queue is still there, has been handed out or has been
dropped, and copies are handed out in their order. -/
structure Accounted (queue : AutoQueue γ μ) : Prop where
  conserved :
    (queue.delivered.map Prod.snd ++ queue.contents ++ queue.dropped).Perm
      queue.routed
  ordered :
    (queue.delivered.map Prod.snd ++ queue.contents).Sublist queue.routed

theorem accounted_empty : (empty : AutoQueue γ μ).Accounted :=
  ⟨List.Perm.refl _, List.Sublist.refl _⟩

theorem Accounted.declare {queue : AutoQueue γ μ} (accounted : queue.Accounted) :
    queue.declare.Accounted :=
  ⟨accounted.conserved, accounted.ordered⟩

theorem Accounted.enqueue
    {queue : AutoQueue γ μ} (accounted : queue.Accounted) (message : μ) :
    (queue.enqueue message).Accounted := by
  refine ⟨?_, ?_⟩
  · have moved :
        (queue.delivered.map Prod.snd ++ (queue.contents ++ [message]) ++
            queue.dropped).Perm
          (queue.delivered.map Prod.snd ++ queue.contents ++ queue.dropped ++
            [message]) := by
      simp only [List.append_assoc]
      apply List.Perm.append_left
      apply List.Perm.append_left
      exact List.perm_append_comm
    exact moved.trans (accounted.conserved.append_right [message])
  · have extended := accounted.ordered.append_right [message]
    rwa [List.append_assoc] at extended

theorem Accounted.deliver
    {queue next : AutoQueue γ μ} {consumer : γ} (accounted : queue.Accounted)
    (delivered : queue.deliver consumer = some next) : next.Accounted := by
  unfold AutoQueue.deliver at delivered
  split at delivered
  · cases delivered
  · rename_i message rest contents
    cases delivered
    have conserved := accounted.conserved
    have ordered := accounted.ordered
    rw [contents] at conserved ordered
    refine ⟨?_, ?_⟩
    · simpa only [List.map_append, List.map_cons, List.map_nil,
        List.append_assoc, List.cons_append, List.nil_append] using conserved
    · simpa only [List.map_append, List.map_cons, List.map_nil,
        List.append_assoc, List.cons_append, List.nil_append] using ordered

theorem Accounted.drop [DecidableEq μ]
    {queue next : AutoQueue γ μ} {message : μ} (accounted : queue.Accounted)
    (dropped : queue.drop message = some next) : next.Accounted := by
  unfold AutoQueue.drop at dropped
  by_cases present : message ∈ queue.contents
  · rw [if_pos present] at dropped
    cases dropped
    refine ⟨?_, ?_⟩
    · have moved :
          (queue.contents.erase message ++ (queue.dropped ++ [message])).Perm
            (queue.contents ++ queue.dropped) := by
        rw [← List.append_assoc]
        refine List.perm_append_comm.trans ?_
        exact (List.perm_cons_erase present).symm.append_right queue.dropped
      refine List.Perm.trans ?_ accounted.conserved
      simp only [List.append_assoc]
      exact moved.append_left _
    · refine List.Sublist.trans ?_ accounted.ordered
      exact List.erase_sublist.append_left _
  · rw [if_neg present] at dropped
    cases dropped

theorem Accounted.delete {queue : AutoQueue γ μ} (accounted : queue.Accounted) :
    queue.delete.Accounted := by
  refine ⟨?_, ?_⟩
  · refine List.Perm.trans ?_ accounted.conserved
    simp only [AutoQueue.delete, List.append_nil, List.append_assoc]
    exact List.perm_append_comm.append_left _
  · refine List.Sublist.trans ?_ accounted.ordered
    exact (List.nil_sublist _).append_left _

theorem deliver_kept
    {queue next : AutoQueue γ μ} {consumer : γ}
    (delivered : queue.deliver consumer = some next) :
    next.isDeclared = queue.isDeclared ∧ next.routed = queue.routed := by
  unfold AutoQueue.deliver at delivered
  split at delivered
  · cases delivered
  · cases delivered
    exact ⟨rfl, rfl⟩

/-- What a queue hands out, it has held. -/
theorem mem_delivered_of_deliver
    {queue next : AutoQueue γ μ} {consumer : γ} {entry : γ × μ}
    (delivered : queue.deliver consumer = some next)
    (member : entry ∈ next.delivered) :
    entry ∈ queue.delivered ∨
      (entry.1 = consumer ∧ entry.2 ∈ queue.contents) := by
  unfold AutoQueue.deliver at delivered
  split at delivered
  · cases delivered
  · rename_i message rest contents
    cases delivered
    rcases List.mem_append.mp member with earlier | new
    · exact Or.inl earlier
    · rw [List.mem_singleton.mp new, contents]
      exact Or.inr ⟨rfl, List.mem_cons_self⟩

/-- How often a message was routed is how often it was handed out, is held and
was dropped. -/
theorem Accounted.count [DecidableEq μ]
    {queue : AutoQueue γ μ} (accounted : queue.Accounted) (message : μ) :
    queue.routed.count message =
      (queue.delivered.map Prod.snd).count message +
        queue.contents.count message + queue.dropped.count message := by
  rw [← accounted.conserved.count_eq message, List.count_append,
    List.count_append]

end AutoQueue

structure Binding (ν : Type u) (ε : Type v) (κ : Type w) where
  queue : ν
  exchange : ε
  key : κ
  deriving DecidableEq, Repr

/-- Exchanges of types `α`, with queues, their bindings and their consumers. -/
structure ExchangeBroker (ε α ν κ γ μ : Type) where
  exchanges : ε → Option α
  queues : ν → AutoQueue γ μ
  bindings : List (Binding ν ε κ)
  consumers : List (ν × γ)

inductive BrokerEvent (ε α ν κ γ μ : Type) where
  | declareExchange (exchange : ε) (type : α)
  | declareQueue (queue : ν)
  | bind (binding : Binding ν ε κ)
  | publish (exchange : ε) (key : κ) (message : μ)
  | consume (queue : ν) (consumer : γ)
  /-- These consumers are cancelled, or their connection is gone. -/
  | cancel (isGone : γ → Bool)
  | deliver (queue : ν) (consumer : γ)
  | drop (queue : ν) (message : μ)
  | deleteQueue (queue : ν)

namespace ExchangeBroker

variable {ε α ν κ γ μ : Type}

def empty : ExchangeBroker ε α ν κ γ μ where
  exchanges := fun _ => none
  queues := fun _ => .empty
  bindings := []
  consumers := []

/-- What holds of every queue holds after one has been replaced. -/
theorem forall_update
    [DecidableEq ν] {queues : ν → AutoQueue γ μ} {queue : ν} {following : AutoQueue γ μ}
    (property : AutoQueue γ μ → Prop)
    (earlier : ∀ other, property (queues other)) (holds : property following) :
    ∀ other, property (update queues queue following other) := by
  intro other
  by_cases same : other = queue
  · subst same
    rw [update_self]
    exact holds
  · rw [update_of_ne same]
    exact earlier other

section Step

variable [DecidableEq ε] [DecidableEq ν]

/-- The queue has a binding to the exchange that covers the key. -/
def isRouted
    (broker : ExchangeBroker ε α ν κ γ μ) (covers : α → κ → κ → Bool)
    (type : α) (exchange : ε) (key : κ) (queue : ν) : Bool :=
  (broker.queues queue).isDeclared &&
    broker.bindings.any fun binding =>
      decide (binding.queue = queue ∧ binding.exchange = exchange) &&
        covers type binding.key key

def step [DecidableEq α] [DecidableEq γ] [DecidableEq μ]
    (covers : α → κ → κ → Bool) (broker : ExchangeBroker ε α ν κ γ μ) :
    BrokerEvent ε α ν κ γ μ → Option (ExchangeBroker ε α ν κ γ μ)
  | .declareExchange exchange type =>
      match broker.exchanges exchange with
      | some declared => if declared = type then some broker else none
      | none =>
          some
            { broker with
              exchanges := update broker.exchanges exchange (some type) }
  | .declareQueue queue =>
      some
        { broker with
          queues := update broker.queues queue (broker.queues queue).declare }
  | .bind binding =>
      if (broker.queues binding.queue).isDeclared ∧
          (broker.exchanges binding.exchange).isSome then
        some { broker with bindings := binding :: broker.bindings }
      else
        none
  | .publish exchange key message =>
      (broker.exchanges exchange).map fun type =>
        { broker with
          queues := fun queue =>
            if broker.isRouted covers type exchange key queue then
              (broker.queues queue).enqueue message
            else
              broker.queues queue }
  | .consume queue consumer =>
      if (broker.queues queue).isDeclared then
        some { broker with consumers := (queue, consumer) :: broker.consumers }
      else
        none
  | .cancel isGone =>
      some
        { broker with
          consumers := broker.consumers.filter fun entry => !isGone entry.2 }
  | .deliver queue consumer =>
      if (queue, consumer) ∈ broker.consumers then
        ((broker.queues queue).deliver consumer).map fun following =>
          { broker with queues := update broker.queues queue following }
      else
        none
  | .drop queue message =>
      ((broker.queues queue).drop message).map fun following =>
        { broker with queues := update broker.queues queue following }
  | .deleteQueue queue =>
      some
        { broker with
          queues := update broker.queues queue (broker.queues queue).delete
          bindings := broker.bindings.filter fun binding => binding.queue ≠ queue
          consumers := broker.consumers.filter fun entry => entry.1 ≠ queue }

/-! ## Every queue is accounted for -/

theorem accounted_step [DecidableEq α] [DecidableEq γ] [DecidableEq μ]
    {covers : α → κ → κ → Bool} {broker next : ExchangeBroker ε α ν κ γ μ}
    {event : BrokerEvent ε α ν κ γ μ}
    (accounted : ∀ queue, (broker.queues queue).Accounted)
    (stepped : broker.step covers event = some next) :
    ∀ queue, (next.queues queue).Accounted := by
  cases event with
  | declareExchange exchange type =>
      simp only [step] at stepped
      split at stepped
      · split at stepped
        · cases stepped
          exact accounted
        · cases stepped
      · cases stepped
        exact accounted
  | declareQueue queue =>
      cases stepped
      exact forall_update _ accounted (accounted queue).declare
  | bind binding =>
      simp only [step] at stepped
      split at stepped
      · cases stepped
        exact accounted
      · cases stepped
  | publish exchange key message =>
      obtain ⟨type, _, rfl⟩ := Option.map_eq_some_iff.mp stepped
      intro queue
      dsimp only
      split
      · exact (accounted queue).enqueue message
      · exact accounted queue
  | consume queue consumer =>
      simp only [step] at stepped
      split at stepped
      · cases stepped
        exact accounted
      · cases stepped
  | cancel isGone =>
      cases stepped
      exact accounted
  | deliver queue consumer =>
      simp only [step] at stepped
      split at stepped
      · obtain ⟨following, delivered, rfl⟩ := Option.map_eq_some_iff.mp stepped
        exact forall_update _ accounted ((accounted queue).deliver delivered)
      · cases stepped
  | drop queue message =>
      obtain ⟨following, dropped, rfl⟩ := Option.map_eq_some_iff.mp stepped
      exact forall_update _ accounted ((accounted queue).drop dropped)
  | deleteQueue queue =>
      cases stepped
      exact forall_update _ accounted (accounted queue).delete

/-! ## What one event does -/

/-- The copies that an event puts into a queue. -/
def copies
    (covers : α → κ → κ → Bool) (broker : ExchangeBroker ε α ν κ γ μ)
    (queue : ν) : BrokerEvent ε α ν κ γ μ → List μ
  | .publish exchange key message =>
      match broker.exchanges exchange with
      | some type =>
          if broker.isRouted covers type exchange key queue then
            [message]
          else
            []
      | none => []
  | _ => []

theorem mem_copies
    {covers : α → κ → κ → Bool} {broker : ExchangeBroker ε α ν κ γ μ}
    {queue : ν} {event : BrokerEvent ε α ν κ γ μ} {message : μ}
    (member : message ∈ broker.copies covers queue event) :
    ∃ exchange key type, event = .publish exchange key message ∧
      broker.exchanges exchange = some type ∧
        ∃ binding ∈ broker.bindings, binding.queue = queue ∧
          binding.exchange = exchange ∧ covers type binding.key key = true := by
  cases event with
  | publish exchange key published =>
      simp only [copies] at member
      split at member
      · rename_i type declared
        split at member
        · rename_i routed
          rw [List.mem_singleton.mp member]
          simp only [isRouted, Bool.and_eq_true, List.any_eq_true,
            decide_eq_true_eq] at routed
          obtain ⟨_, binding, bound, ⟨itsQueue, itsExchange⟩, covered⟩ := routed
          exact ⟨exchange, key, type, rfl, declared, binding, bound, itsQueue,
            itsExchange, covered⟩
        · cases member
      · cases member
  | _ => cases member

/-- A binding that covers the key brings a copy into its queue. -/
theorem copies_of_binding
    {covers : α → κ → κ → Bool} {broker : ExchangeBroker ε α ν κ γ μ}
    {binding : Binding ν ε κ} {type : α} {key : κ} (message : μ)
    (bound : binding ∈ broker.bindings)
    (declared : (broker.queues binding.queue).isDeclared = true)
    (exchange : broker.exchanges binding.exchange = some type)
    (covered : covers type binding.key key = true) :
    broker.copies covers binding.queue
        (.publish binding.exchange key message) = [message] := by
  have routed :
      broker.isRouted covers type binding.exchange key binding.queue = true := by
    simp only [isRouted, Bool.and_eq_true, List.any_eq_true, decide_eq_true_eq]
    exact ⟨declared, binding, bound, ⟨rfl, rfl⟩, covered⟩
  simp only [copies, exchange, if_pos routed]

/-- What an event leaves of the rest: declarations stay, and what is bound or
consumes came from a command. -/
structure Follows
    (covers : α → κ → κ → Bool) (broker : ExchangeBroker ε α ν κ γ μ)
    (event : BrokerEvent ε α ν κ γ μ) (next : ExchangeBroker ε α ν κ γ μ) :
    Prop where
  exchanges :
    ∀ exchange type, broker.exchanges exchange = some type →
      next.exchanges exchange = some type
  routed :
    ∀ queue,
      (next.queues queue).routed =
        (broker.queues queue).routed ++ broker.copies covers queue event
  delivered :
    ∀ queue entry, entry ∈ (next.queues queue).delivered →
      entry ∈ (broker.queues queue).delivered ∨
        ((queue, entry.1) ∈ broker.consumers ∧
          entry.2 ∈ (broker.queues queue).contents)
  bindings :
    ∀ binding ∈ next.bindings,
      binding ∈ broker.bindings ∨ event = .bind binding
  consumers :
    ∀ entry ∈ next.consumers,
      entry ∈ broker.consumers ∨ event = .consume entry.1 entry.2
  bound :
    ∀ binding ∈ broker.bindings,
      (broker.queues binding.queue).isDeclared = true →
        event ≠ .deleteQueue binding.queue →
          binding ∈ next.bindings ∧
            (next.queues binding.queue).isDeclared = true

/-- An event that changes the queues only, puts nothing into them and hands out
what they hold. -/
theorem Follows.of_queues
    {covers : α → κ → κ → Bool} {broker : ExchangeBroker ε α ν κ γ μ}
    {event : BrokerEvent ε α ν κ γ μ} {queue : ν} {following : AutoQueue γ μ}
    (silent : ∀ other, broker.copies covers other event = [])
    (declared :
      following.isDeclared = true ∨
        following.isDeclared = (broker.queues queue).isDeclared)
    (routed : following.routed = (broker.queues queue).routed)
    (delivered :
      ∀ entry ∈ following.delivered,
        entry ∈ (broker.queues queue).delivered ∨
          ((queue, entry.1) ∈ broker.consumers ∧
            entry.2 ∈ (broker.queues queue).contents)) :
    Follows covers broker event
      { broker with queues := update broker.queues queue following } where
  exchanges _ _ declared := declared
  routed other := by
    rw [silent other, List.append_nil]
    by_cases same : other = queue
    · subst same
      simp only [update_self]
      exact routed
    · simp only [update_of_ne same]
  delivered other entry member := by
    by_cases same : other = queue
    · subst same
      simp only [update_self] at member
      exact delivered entry member
    · simp only [update_of_ne same] at member
      exact Or.inl member
  bindings _ member := Or.inl member
  consumers _ member := Or.inl member
  bound binding member isDeclared _ := by
    refine ⟨member, ?_⟩
    by_cases same : binding.queue = queue
    · simp only [same, update_self]
      rw [same] at isDeclared
      rcases declared with now | unchanged
      · exact now
      · rw [unchanged]
        exact isDeclared
    · simp only [update_of_ne same]
      exact isDeclared

/-- An event that leaves the queues alone. -/
theorem Follows.of_same
    {covers : α → κ → κ → Bool} {broker next : ExchangeBroker ε α ν κ γ μ}
    {event : BrokerEvent ε α ν κ γ μ}
    (silent : ∀ queue, broker.copies covers queue event = [])
    (queues : next.queues = broker.queues)
    (exchanges :
      ∀ exchange type, broker.exchanges exchange = some type →
        next.exchanges exchange = some type)
    (kept : ∀ binding ∈ broker.bindings, binding ∈ next.bindings)
    (bindings :
      ∀ binding ∈ next.bindings,
        binding ∈ broker.bindings ∨ event = .bind binding)
    (consumers :
      ∀ entry ∈ next.consumers,
        entry ∈ broker.consumers ∨ event = .consume entry.1 entry.2) :
    Follows covers broker event next where
  exchanges := exchanges
  routed queue := by rw [silent queue, queues, List.append_nil]
  delivered queue entry member := by
    rw [queues] at member
    exact Or.inl member
  bindings := bindings
  consumers := consumers
  bound binding member isDeclared _ := by
    refine ⟨kept binding member, ?_⟩
    rw [queues]
    exact isDeclared

theorem follows_publish
    (covers : α → κ → κ → Bool) (broker : ExchangeBroker ε α ν κ γ μ)
    {exchange : ε} {type : α} (key : κ) (message : μ)
    (declared : broker.exchanges exchange = some type) :
    Follows covers broker (.publish exchange key message)
      { broker with
        queues := fun queue =>
          if broker.isRouted covers type exchange key queue then
            (broker.queues queue).enqueue message
          else
            broker.queues queue } where
  exchanges _ _ declared := declared
  routed queue := by
    simp only [copies, declared]
    by_cases routed : broker.isRouted covers type exchange key queue = true
    · simp only [if_pos routed]
      rfl
    · simp only [if_neg routed, List.append_nil]
  delivered queue entry member := by
    left
    by_cases routed : broker.isRouted covers type exchange key queue = true
    · simp only [if_pos routed] at member
      exact member
    · simp only [if_neg routed] at member
      exact member
  bindings _ member := Or.inl member
  consumers _ member := Or.inl member
  bound binding member isDeclared _ := by
    refine ⟨member, ?_⟩
    by_cases routed :
        broker.isRouted covers type exchange key binding.queue = true
    · simp only [if_pos routed]
      exact isDeclared
    · simp only [if_neg routed]
      exact isDeclared

theorem follows_deleteQueue
    (covers : α → κ → κ → Bool) (broker : ExchangeBroker ε α ν κ γ μ)
    (queue : ν) :
    Follows covers broker (.deleteQueue queue)
      { broker with
        queues := update broker.queues queue (broker.queues queue).delete
        bindings := broker.bindings.filter fun binding => binding.queue ≠ queue
        consumers := broker.consumers.filter fun entry => entry.1 ≠ queue } where
  exchanges _ _ declared := declared
  routed other := by
    simp only [copies, List.append_nil]
    by_cases same : other = queue
    · subst same
      simp only [update_self]
      rfl
    · simp only [update_of_ne same]
  delivered other entry member := by
    left
    by_cases same : other = queue
    · subst same
      simp only [update_self] at member
      exact member
    · simp only [update_of_ne same] at member
      exact member
  bindings _ member := Or.inl (List.mem_filter.mp member).1
  consumers _ member := Or.inl (List.mem_filter.mp member).1
  bound binding member isDeclared different := by
    have other : binding.queue ≠ queue := by
      intro same
      exact different (by rw [same])
    refine ⟨List.mem_filter.mpr ⟨member, decide_eq_true other⟩, ?_⟩
    simp only [update_of_ne other]
    exact isDeclared

theorem follows_of_step [DecidableEq α] [DecidableEq γ] [DecidableEq μ]
    {covers : α → κ → κ → Bool} {broker next : ExchangeBroker ε α ν κ γ μ}
    {event : BrokerEvent ε α ν κ γ μ}
    (stepped : broker.step covers event = some next) :
    Follows covers broker event next := by
  cases event with
  | declareExchange exchange type =>
      simp only [step] at stepped
      split at stepped
      · split at stepped
        · cases stepped
          exact .of_same (fun _ => rfl) rfl (fun _ _ => id) (fun _ => id)
            (fun _ => Or.inl) (fun _ => Or.inl)
        · cases stepped
      · rename_i undeclared
        cases stepped
        refine .of_same (fun _ => rfl) rfl ?_ (fun _ => id) (fun _ => Or.inl)
          (fun _ => Or.inl)
        intro other declared present
        have different : other ≠ exchange := by
          intro same
          rw [same, undeclared] at present
          cases present
        simp only [update_of_ne different]
        exact present
  | declareQueue queue =>
      cases stepped
      exact .of_queues (fun _ => rfl) (Or.inl rfl) rfl (fun _ => Or.inl)
  | bind binding =>
      simp only [step] at stepped
      split at stepped
      · cases stepped
        refine .of_same (fun _ => rfl) rfl (fun _ _ => id)
          (fun _ => List.mem_cons_of_mem _) ?_ (fun _ => Or.inl)
        intro other member
        rcases List.mem_cons.mp member with rfl | earlier
        · exact Or.inr rfl
        · exact Or.inl earlier
      · cases stepped
  | publish exchange key message =>
      obtain ⟨type, declared, rfl⟩ := Option.map_eq_some_iff.mp stepped
      exact follows_publish covers broker key message declared
  | consume queue consumer =>
      simp only [step] at stepped
      split at stepped
      · cases stepped
        refine .of_same (fun _ => rfl) rfl (fun _ _ => id) (fun _ => id)
          (fun _ => Or.inl) ?_
        intro entry member
        rcases List.mem_cons.mp member with rfl | earlier
        · exact Or.inr rfl
        · exact Or.inl earlier
      · cases stepped
  | cancel isGone =>
      cases stepped
      refine .of_same (fun _ => rfl) rfl (fun _ _ => id) (fun _ => id)
        (fun _ => Or.inl) ?_
      intro entry member
      exact Or.inl (List.mem_filter.mp member).1
  | deliver queue consumer =>
      simp only [step] at stepped
      split at stepped
      · rename_i registered
        obtain ⟨following, delivered, rfl⟩ := Option.map_eq_some_iff.mp stepped
        obtain ⟨declared, routed⟩ :=
          AutoQueue.deliver_kept delivered
        refine .of_queues (fun _ => rfl) (Or.inr declared) routed ?_
        intro entry member
        rcases AutoQueue.mem_delivered_of_deliver delivered member with
          earlier | ⟨itself, held⟩
        · exact Or.inl earlier
        · rw [itself]
          exact Or.inr ⟨registered, held⟩
      · cases stepped
  | drop queue message =>
      obtain ⟨following, dropped, rfl⟩ := Option.map_eq_some_iff.mp stepped
      unfold AutoQueue.drop at dropped
      split at dropped
      · cases dropped
        exact .of_queues (fun _ => rfl) (Or.inr rfl) rfl (fun _ => Or.inl)
      · cases dropped
  | deleteQueue queue =>
      cases stepped
      exact follows_deleteQueue covers broker queue

end Step

end ExchangeBroker

end Amq.Broker
