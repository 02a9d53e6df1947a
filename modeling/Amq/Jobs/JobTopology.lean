import Amq.Jobs.JobNetwork

/-!
# The queues of a job network

Job queues are bound under their own names and are never deleted, the dead
letters of a retry queue go to the job queue that it is named after, and messages
are in declared queues only.
-/


namespace Amq.Jobs.JobNetwork

open Function Amq.Transition Amq.Broker

variable {ι κ Buffer V : Type}
variable [DecidableEq ι] [DecidableEq κ] [DecidableEq Buffer] [DecidableEq V]

/-- The broker of a job network. -/
abbrev JobBroker (ι κ Buffer : Type) : Type :=
  NamedQueues String String String (ι × DeliveryTag) (Message κ Buffer)

abbrev JobBrokerEvent (ι κ Buffer : Type) : Type :=
  NamedQueuesEvent String String String (ι × DeliveryTag) (Message κ Buffer)

structure Topology
    (config : JobNetworkConfig ι Buffer V) (broker : JobBroker ι κ Buffer) :
    Prop where
  bound :
    ∀ binding ∈ broker.bindings,
      binding.key = binding.queue ∧ broker.declared binding.queue = some none
  plain :
    ∀ queue, broker.declared queue = some none →
      ∀ server delay, queue ≠ retryQueueName (config.queue server) delay
  retry :
    ∀ queue address, broker.declared queue = some (some address) →
      ∃ server delay, queue = retryQueueName (config.queue server) delay ∧
        address = ⟨config.exchange server, config.queue server⟩
  ready :
    ∀ entry ∈ broker.ready, (broker.declared entry.1).isSome = true
  pending :
    ∀ entry ∈ broker.unacknowledged,
      entry.2.1 = config.queue entry.1.1 ∧
        (broker.declared entry.2.1).isSome = true

variable {config : JobNetworkConfig ι Buffer V}
variable {broker following : JobBroker ι κ Buffer}

/-- What a job network asks of its broker. -/
def Asks
    (config : JobNetworkConfig ι Buffer V) (broker : JobBroker ι κ Buffer) :
    JobBrokerEvent ι κ Buffer → Prop
  | .declare queue none =>
      ∀ server delay, queue ≠ retryQueueName (config.queue server) delay
  | .declare queue (some address) =>
      ∃ server delay, queue = retryQueueName (config.queue server) delay ∧
        address = ⟨config.exchange server, config.queue server⟩
  | .bind binding =>
      binding.key = binding.queue ∧ broker.declared binding.queue = some none
  | .delete queue => ∃ address, broker.declared queue = some (some address)
  | .deliver tag queue _ => queue = config.queue tag.1
  | _ => True

section

omit [DecidableEq ι] [DecidableEq κ] [DecidableEq Buffer] [DecidableEq V]

theorem topology_empty (config : JobNetworkConfig ι Buffer V) :
    Topology config (.empty : JobBroker ι κ Buffer) := by
  constructor <;> simp [NamedQueues.empty]

/-- Copies come and go, the queues stay. -/
theorem Topology.copies
    (topology : Topology config broker)
    (sameDeclared : following.declared = broker.declared)
    (sameBindings : following.bindings = broker.bindings)
    (ready :
      ∀ entry ∈ following.ready,
        entry ∈ broker.ready ∨ (broker.declared entry.1).isSome = true)
    (pending :
      ∀ entry ∈ following.unacknowledged,
        entry ∈ broker.unacknowledged ∨
          (entry.2.1 = config.queue entry.1.1 ∧
            (broker.declared entry.2.1).isSome = true)) :
    Topology config following where
  bound := by
    rw [sameBindings, sameDeclared]
    exact topology.bound
  plain := by
    rw [sameDeclared]
    exact topology.plain
  retry := by
    rw [sameDeclared]
    exact topology.retry
  ready entry member := by
    rw [sameDeclared]
    rcases ready entry member with old | declared
    · exact topology.ready entry old
    · exact declared
  pending entry member := by
    rw [sameDeclared]
    rcases pending entry member with old | declared
    · exact topology.pending entry old
    · exact declared

/-- A new queue is declared. -/
theorem Topology.declare
    (topology : Topology config broker)
    {queue : String} {deadLetters : Option (DeadLetterAddress String String)}
    (asked : Asks config broker (.declare queue deadLetters))
    (undeclared : broker.declared queue = none) :
    Topology config
      { broker with
        declared := update broker.declared queue (some deadLetters) } := by
  have kept :
      ∀ other, (broker.declared other).isSome = true →
        update broker.declared queue (some deadLetters) other =
          broker.declared other := by
    intro other declared
    apply update_of_ne
    intro same
    rw [same, undeclared] at declared
    cases declared
  have before :
      ∀ other arguments,
        update broker.declared queue (some deadLetters) other = some arguments →
          (other = queue ∧ arguments = deadLetters) ∨
            broker.declared other = some arguments := by
    intro other arguments declared
    by_cases same : other = queue
    · subst same
      rw [update_self] at declared
      cases declared
      exact Or.inl ⟨rfl, rfl⟩
    · rw [update_of_ne same] at declared
      exact Or.inr declared
  refine ⟨?_, ?_, ?_, ?_, ?_⟩
  · intro binding member
    obtain ⟨itsKey, declared⟩ := topology.bound binding member
    refine ⟨itsKey, ?_⟩
    dsimp only
    rw [kept _ (by rw [declared]; rfl)]
    exact declared
  · intro other declared
    rcases before other none declared with ⟨rfl, rfl⟩ | earlier
    · exact asked
    · exact topology.plain other earlier
  · intro other address declared
    rcases before other (some address) declared with ⟨rfl, rfl⟩ | earlier
    · exact asked
    · exact topology.retry other address earlier
  · intro entry member
    have declared := topology.ready entry member
    dsimp only
    rw [kept _ declared]
    exact declared
  · intro entry member
    obtain ⟨itsQueue, declared⟩ := topology.pending entry member
    refine ⟨itsQueue, ?_⟩
    dsimp only
    rw [kept _ declared]
    exact declared

/-- The queues that servers consume are job queues. -/
theorem Topology.declared_of_queue
    (topology : Topology config broker) {server : ι}
    (declared : (broker.declared (config.queue server)).isSome = true) :
    broker.declared (config.queue server) = some none := by
  cases itsArguments : broker.declared (config.queue server) with
  | none =>
      rw [itsArguments] at declared
      cases declared
  | some arguments =>
      cases arguments with
      | none => rfl
      | some address =>
          obtain ⟨other, delay, same, _⟩ :=
            topology.retry _ address itsArguments
          exact absurd same (config.apart server other delay)

/-- What is called like a retry queue is one. -/
theorem Topology.retry_of_name
    (topology : Topology config broker) {server : ι} {delay : DelayText}
    (declared :
      (broker.declared (retryQueueName (config.queue server) delay)).isSome =
        true) :
    ∃ address,
      broker.declared (retryQueueName (config.queue server) delay) =
        some (some address) := by
  obtain ⟨arguments, itsArguments⟩ := Option.isSome_iff_exists.mp declared
  cases arguments with
  | none => exact absurd rfl (topology.plain _ itsArguments server delay)
  | some address => exact ⟨address, itsArguments⟩

/-- Only job queues are consumed. -/
theorem Topology.pending_elsewhere
    (topology : Topology config broker) {queue : String}
    {address : DeadLetterAddress String String}
    (isRetry : broker.declared queue = some (some address)) :
    ∀ entry ∈ broker.unacknowledged, entry.2.1 ≠ queue := by
  intro entry member same
  obtain ⟨itsQueue, declared⟩ := topology.pending entry member
  have plain := topology.declared_of_queue (itsQueue ▸ declared)
  rw [← itsQueue, same, isRetry] at plain
  cases plain

end

omit [DecidableEq V] in
/-- An empty retry queue is deleted. -/
theorem Topology.delete
    (topology : Topology config broker) {queue : String}
    (asked : Asks config broker (.delete queue))
    (stepped : broker.step (.delete queue) = some following) :
    Topology config following := by
  obtain ⟨address, itsArguments⟩ := asked
  simp only [NamedQueues.step, Option.ite_none_right_eq_some,
    Option.some.injEq] at stepped
  obtain ⟨isEmpty, rfl⟩ := stepped
  have elsewhere :
      ∀ other, broker.declared other = some none → other ≠ queue := by
    intro other declared same
    rw [same, itsArguments] at declared
    cases declared
  refine ⟨?_, ?_, ?_, ?_, ?_⟩
  · intro binding member
    obtain ⟨itsKey, declared⟩ :=
      topology.bound binding (List.mem_of_mem_filter member)
    refine ⟨itsKey, ?_⟩
    dsimp only
    rw [update_of_ne (elsewhere _ declared)]
    exact declared
  · intro other declared
    by_cases same : other = queue
    · subst same
      simp at declared
    · simp only [update_of_ne same] at declared
      exact topology.plain other declared
  · intro other itsAddress declared
    by_cases same : other = queue
    · subst same
      simp at declared
    · simp only [update_of_ne same] at declared
      exact topology.retry other itsAddress declared
  · intro entry member
    have other : entry.1 ≠ queue := by
      simpa using List.all_eq_true.mp isEmpty entry member
    dsimp only
    rw [update_of_ne other]
    exact topology.ready entry member
  · intro entry member
    obtain ⟨itsQueue, declared⟩ :=
      topology.pending entry (List.mem_of_mem_filter member)
    refine ⟨itsQueue, ?_⟩
    have other : entry.2.1 ≠ queue := by
      simpa using (List.mem_filter.mp member).2
    dsimp only
    rw [update_of_ne other]
    exact declared

omit [DecidableEq ι] [DecidableEq κ] [DecidableEq Buffer] [DecidableEq V] in
theorem Topology.publish
    (topology : Topology config broker) (exchange key : String)
    (message : Message κ Buffer) :
    Topology config (broker.publish exchange key message) := by
  refine topology.copies rfl rfl ?_ (fun entry member => Or.inl member)
  intro entry member
  rcases List.mem_append.mp member with old | new
  · exact Or.inl old
  · obtain ⟨queue, target, rfl⟩ := List.mem_map.mp new
    have declared := (topology.bound _ (NamedQueues.mem_targets_iff.mp target)).2
    exact Or.inr (by simp [declared])

omit [DecidableEq V] in
theorem Topology.step
    (topology : Topology config broker) {event : JobBrokerEvent ι κ Buffer}
    (asked : Asks config broker event)
    (stepped : broker.step event = some following) :
    Topology config following := by
  cases event with
  | declare queue deadLetters =>
      simp only [NamedQueues.step] at stepped
      cases undeclared : broker.declared queue with
      | none =>
          rw [undeclared] at stepped
          cases stepped
          exact topology.declare asked undeclared
      | some arguments =>
          simp only [undeclared, Option.ite_none_right_eq_some,
            Option.some.injEq] at stepped
          obtain ⟨_, rfl⟩ := stepped
          exact topology
  | bind binding =>
      simp only [NamedQueues.step, Option.ite_none_right_eq_some,
        Option.some.injEq] at stepped
      obtain ⟨_, rfl⟩ := stepped
      refine ⟨?_, topology.plain, topology.retry, topology.ready,
        topology.pending⟩
      intro other member
      rcases List.mem_cons.mp member with rfl | old
      · exact asked
      · exact topology.bound other old
  | publish exchange key message =>
      cases stepped
      exact topology.publish exchange key message
  | send queue message =>
      simp only [NamedQueues.step] at stepped
      by_cases declared : (broker.declared queue).isSome = true
      · rw [if_pos declared] at stepped
        cases stepped
        refine topology.copies rfl rfl ?_ (fun entry member => Or.inl member)
        intro entry member
        rcases List.mem_append.mp member with old | new
        · exact Or.inl old
        · rw [List.mem_singleton.mp new]
          exact Or.inr declared
      · rw [if_neg declared] at stepped
        cases stepped
        exact topology
  | deadLetter queue message =>
      simp only [NamedQueues.step] at stepped
      split at stepped
      · simp only [Option.ite_none_right_eq_some, Option.some.injEq] at stepped
        obtain ⟨_, rfl⟩ := stepped
        have erased :
            Topology config
              { broker with ready := broker.ready.erase (queue, message) } := by
          refine topology.copies rfl rfl ?_ (fun entry member => Or.inl member)
          exact fun entry member => Or.inl (List.mem_of_mem_erase member)
        exact erased.publish _ _ message
      · cases stepped
  | lose queue message =>
      simp only [NamedQueues.step, Option.ite_none_right_eq_some,
        Option.some.injEq] at stepped
      obtain ⟨_, rfl⟩ := stepped
      refine topology.copies rfl rfl ?_ (fun entry member => Or.inl member)
      exact fun entry member => Or.inl (List.mem_of_mem_erase member)
  | delete queue => exact topology.delete asked stepped
  | deliver tag queue message =>
      simp only [NamedQueues.step, Option.ite_none_right_eq_some,
        Option.some.injEq, List.contains_iff_mem] at stepped
      obtain ⟨⟨present, _⟩, rfl⟩ := stepped
      refine topology.copies rfl rfl ?_ ?_
      · exact fun entry member => Or.inl (List.mem_of_mem_erase member)
      · intro entry member
        rcases List.mem_cons.mp member with rfl | old
        · exact Or.inr ⟨asked, topology.ready _ present⟩
        · exact Or.inl old
  | settle tag =>
      obtain ⟨_, _, rfl⟩ := NamedQueues.settle_cases stepped
      refine topology.copies rfl rfl (fun entry member => Or.inl member) ?_
      exact fun entry member => Or.inl (List.mem_of_mem_eraseP member)
  | requeue taken =>
      cases stepped
      refine topology.copies rfl rfl ?_ ?_
      · intro entry member
        rcases List.mem_append.mp member with old | back
        · exact Or.inl old
        · obtain ⟨pending, itsPlace, rfl⟩ := List.mem_map.mp back
          have declared :=
            (topology.pending pending (List.mem_of_mem_filter itsPlace)).2
          exact Or.inr declared
      · exact fun entry member => Or.inl (List.mem_of_mem_filter member)

end Amq.Jobs.JobNetwork
