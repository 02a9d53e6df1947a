import Amq.QueueServer

/-!
# At most one consumer of a server

As long as the sequences of a server take turns, the consumer that is active on
the current channel is the one of the `consumeQueue` under way or, when there is
none, the one whose tag is remembered or being cancelled.
-/

namespace Amq

open Amq.Transition
open Amq.Jobs
open Amq.Rpc

/-- The promise of the sequence has settled. -/
def SequencePhase.isSettled : SequencePhase → Bool
  | .rejected _ => true
  | .ended => true
  | .failed => true
  | _ => false

def SequencePhase.isConsuming : SequencePhase → Bool
  | .consuming _ => true
  | _ => false

def SequencePhase.isRejected : SequencePhase → Bool
  | .rejected _ => true
  | _ => false

namespace QueueServer

/-- A `consumeQueue` of the server is under way. -/
def isConsuming (server : QueueServer) : Bool :=
  server.sequences.any SequencePhase.isConsuming

/-- No call of the server is pending. -/
def Settled (server : QueueServer) : Prop :=
  (∀ phase ∈ server.sequences, phase.isSettled = true) ∧
    server.cancellations = []

/-- What goes wrong with the consumers of a server: a `consumeQueue` is called
while another one is under way or has left an active consumer, one that has
rejected is carried out all the same, or a consumer outlives the rejection of its
`consumeQueue` or of its `cancelConsumption`. -/
def disturbs (server : QueueServer) (event : QueueServerEvent) : Bool :=
  (server.startsConsume event &&
      (server.isConsuming || !server.consumers.isEmpty)) ||
    match event with
    | .consumeCarriedOut index =>
        (server.sequences[index]?).any SequencePhase.isRejected
    | .consumeSettled index .rejected =>
        match server.sequences[index]? with
        | some (.consuming (.carriedOut consumerTag)) =>
            consumerTag ∈ server.consumers
        | _ => false
    | .cancelSettled consumerTag .rejected => consumerTag ∈ server.consumers
    | _ => false

def Undisturbed (server : QueueServer) (event : QueueServerEvent) : Prop :=
  server.disturbs event = false

instance (server : QueueServer) (event : QueueServerEvent) :
    Decidable (server.Undisturbed event) :=
  inferInstanceAs (Decidable (_ = _))

/-! ## Who knows of a consumer -/

/-- The consumer has this tag remembered, or its cancellation is under way. -/
def Remembers (server : QueueServer) (consumerTag : ℕ) : Prop :=
  (server.state ≠ .disposed ∧ server.consumerTag = some consumerTag) ∨
    consumerTag ∈ server.cancellations

structure Sole (server : QueueServer) : Prop where
  one : server.consumers.length ≤ 1
  alone :
    ∀ (index other : ℕ) (command following : ConsumeCommand),
      server.sequences[index]? = some (.consuming command) →
        server.sequences[other]? = some (.consuming following) → index = other
  /-- While a `consumeQueue` is under way, an active consumer is its own. -/
  own :
    ∀ (index : ℕ) (command : ConsumeCommand),
      server.sequences[index]? = some (.consuming command) →
        ∀ consumerTag ∈ server.consumers, command = .carriedOut consumerTag
  /-- Otherwise an active consumer is remembered. -/
  remembered :
    server.isConsuming = false →
      ∀ consumerTag ∈ server.consumers, server.Remembers consumerTag

theorem sole_create (initializer : ServerInitializer) :
    (create initializer).Sole :=
  ⟨Nat.zero_le 1, nofun, nofun, nofun⟩

theorem isConsuming_iff (server : QueueServer) :
    server.isConsuming = true ↔
      ∃ (index : ℕ) (command : ConsumeCommand),
        server.sequences[index]? = some (.consuming command) := by
  unfold isConsuming
  rw [List.any_eq_true]
  constructor
  · rintro ⟨phase, member, consuming⟩
    obtain ⟨index, found⟩ := List.mem_iff_getElem?.mp member
    cases phase with
    | consuming command => exact ⟨index, command, found⟩
    | _ => cases consuming
  · rintro ⟨index, command, found⟩
    exact ⟨.consuming command, List.mem_of_getElem? found, rfl⟩

theorem not_consuming
    {server : QueueServer} (idle : server.isConsuming = false)
    (index : ℕ) (command : ConsumeCommand) :
    server.sequences[index]? ≠ some (.consuming command) := by
  intro found
  have consuming := (isConsuming_iff server).mpr ⟨index, command, found⟩
  rw [idle] at consuming
  cases consuming

/-- The consumers become fewer and no `consumeQueue` is called. -/
theorem Sole.transfer
    {server next : QueueServer} (sole : server.Sole)
    (consumers : next.consumers.Sublist server.consumers)
    (consuming :
      ∀ (index : ℕ) (command : ConsumeCommand),
        next.sequences[index]? = some (.consuming command) →
          ∃ before, server.sequences[index]? = some (.consuming before) ∧
            ∀ consumerTag ∈ next.consumers,
              before = .carriedOut consumerTag → command = .carriedOut consumerTag)
    (remembered :
      next.isConsuming = false →
        ∀ consumerTag ∈ next.consumers, next.Remembers consumerTag) :
    next.Sole := by
  refine ⟨consumers.length_le.trans sole.one, ?_, ?_, remembered⟩
  · intro index other command following found foundOther
    obtain ⟨before, present, _⟩ := consuming index command found
    obtain ⟨beforeOther, presentOther, _⟩ := consuming other following foundOther
    exact sole.alone index other before beforeOther present presentOther
  · intro index command found consumerTag member
    obtain ⟨before, present, kept⟩ := consuming index command found
    exact kept consumerTag member
      (sole.own index before present consumerTag (consumers.subset member))

/-- The same `consumeQueue` is under way, or none, and what is remembered stays
so. -/
theorem Sole.transfer_same
    {server next : QueueServer} (sole : server.Sole)
    (consumers : next.consumers.Sublist server.consumers)
    (consuming :
      ∀ (index : ℕ) (command : ConsumeCommand),
        next.sequences[index]? = some (.consuming command) ↔
          server.sequences[index]? = some (.consuming command))
    (remembers :
      ∀ consumerTag ∈ next.consumers,
        server.Remembers consumerTag → next.Remembers consumerTag) :
    next.Sole := by
  refine sole.transfer consumers ?_ ?_
  · intro index command found
    exact ⟨command, (consuming index command).mp found, fun _ _ same => same⟩
  · intro idle consumerTag member
    have idleBefore : server.isConsuming = false := by
      by_contra busy
      obtain ⟨index, command, found⟩ :=
        (isConsuming_iff server).mp (Bool.not_eq_false _ ▸ busy)
      exact not_consuming idle index command
        ((consuming index command).mpr found)
    exact remembers consumerTag member
      (sole.remembered idleBefore consumerTag (consumers.subset member))

/-- Sequences are added that consume nothing. -/
theorem consuming_append
    (sequences : List SequencePhase) (added : SequencePhase)
    (quiet : ∀ command, added ≠ .consuming command)
    (index : ℕ) (command : ConsumeCommand) :
    (sequences ++ [added])[index]? = some (.consuming command) ↔
      sequences[index]? = some (.consuming command) := by
  by_cases before : index < sequences.length
  · rw [List.getElem?_append_left before]
  · rw [List.getElem?_append_right (Nat.le_of_not_lt before),
      List.getElem?_eq_none (Nat.le_of_not_lt before)]
    constructor
    · intro found
      exact absurd
        (List.mem_singleton.mp (List.mem_of_getElem? found)).symm
        (quiet command)
    · exact nofun

/-- One sequence that did not consume is in another phase in which it does not. -/
theorem consuming_set
    {sequences : List SequencePhase} {place : ℕ} {old new : SequencePhase}
    (present : sequences[place]? = some old)
    (quietBefore : ∀ command, old ≠ .consuming command)
    (quietAfter : ∀ command, new ≠ .consuming command)
    (index : ℕ) (command : ConsumeCommand) :
    (sequences.set place new)[index]? = some (.consuming command) ↔
      sequences[index]? = some (.consuming command) := by
  by_cases same : place = index
  · subst same
    rw [List.getElem?_set_self (List.getElem?_eq_some_iff.mp present).1, present]
    constructor
    · intro found
      exact absurd (Option.some.inj found) (quietAfter command)
    · intro found
      exact absurd (Option.some.inj found) (quietBefore command)
  · rw [List.getElem?_set_ne same]

theorem Sole.initializeAndConsume
    {server : QueueServer} (sole : server.Sole) :
    server.initializeAndConsume.Sole :=
  sole.transfer_same (List.Sublist.refl _)
    (consuming_append server.sequences _ nofun) (fun _ _ => id)

/-- A `consumeQueue` that is called when there is none under way and no consumer. -/
theorem sole_of_fresh
    {next : QueueServer} (place : ℕ)
    (consumers : next.consumers = [])
    (only :
      ∀ (index : ℕ) (command : ConsumeCommand),
        next.sequences[index]? = some (.consuming command) → index = place) :
    next.Sole := by
  refine ⟨?_, ?_, ?_, ?_⟩
  · rw [consumers]
    exact Nat.zero_le 1
  · intro index other command following found foundOther
    exact (only index command found).trans (only other following foundOther).symm
  · rw [consumers]
    exact nofun
  · rw [consumers]
    exact nofun

theorem Undisturbed.free
    {server : QueueServer} {event : QueueServerEvent}
    (undisturbed : server.Undisturbed event)
    (starts : server.startsConsume event = true) :
    server.isConsuming = false ∧ server.consumers = [] := by
  unfold Undisturbed disturbs at undisturbed
  rw [Bool.or_eq_false_iff, starts, Bool.true_and, Bool.or_eq_false_iff,
    Bool.not_eq_false', List.isEmpty_iff] at undisturbed
  exact undisturbed.1

/-! ## The operations keep the consumer alone -/

theorem Sole.handle
    {server : QueueServer} (sole : server.Sole)
    {handler : QueueServer → QueueServer}
    (handled : server.state = .listening → (handler server).Sole) :
    (server.handle handler).Sole := by
  unfold QueueServer.handle
  cases state : server.state with
  | listening => exact handled state
  | ready => exact sole
  | disposed => exact sole

theorem Sole.listen {server : QueueServer} (sole : server.Sole) :
    server.listen.Sole := by
  unfold QueueServer.listen
  split
  · rename_i ready
    refine initializeAndConsume (sole.transfer_same (List.Sublist.refl _)
      (fun _ _ => Iff.rfl) ?_)
    intro consumerTag _ remembers
    exact remembers.imp_left fun held => ⟨nofun, held.2⟩
  · exact sole

theorem Sole.reconnected {server : QueueServer} (sole : server.Sole) :
    (server.handle handleAmqpReconnected).Sole := by
  refine sole.handle fun _ => ?_
  unfold handleAmqpReconnected
  split
  · exact initializeAndConsume (sole.transfer_same (List.Sublist.refl _)
      (fun _ _ => Iff.rfl) (fun _ _ => id))
  · exact sole.initializeAndConsume

theorem Sole.channelRecreated
    {server : QueueServer} (sole : server.Sole)
    (undisturbed : server.Undisturbed .amqpChannelRecreated) :
    (server.handle handleAmqpChannelRecreated).Sole := by
  refine sole.handle fun listening => ?_
  unfold handleAmqpChannelRecreated
  split
  · rename_i initializer same
    have starts : server.startsConsume .amqpChannelRecreated = true := by
      simp only [startsConsume, listening, same, decide_true, Bool.and_self]
    obtain ⟨idle, empty⟩ := undisturbed.free starts
    refine sole_of_fresh server.sequences.length empty ?_
    intro index command found
    change (server.sequences ++ [_])[index]? = _ at found
    by_cases before : index < server.sequences.length
    · rw [List.getElem?_append_left before] at found
      exact absurd found (not_consuming idle index command)
    · have inRange := (List.getElem?_eq_some_iff.mp found).1
      rw [List.length_append, List.length_singleton] at inRange
      omega
  · exact sole.initializeAndConsume

theorem Sole.resume
    {server next : QueueServer} {index : ℕ} (sole : server.Sole)
    (undisturbed : server.Undisturbed (.resumed index))
    (stepped : server.resume index = some next) :
    next.Sole := by
  unfold QueueServer.resume at stepped
  split at stepped
  · rename_i run awaits
    have quiet (phase : SequencePhase)
        (other : ∀ command, phase ≠ .consuming command) :
        (server.setSequence index phase).Sole :=
      sole.transfer_same (List.Sublist.refl _)
        (consuming_set awaits nofun other) (fun _ _ => id)
    split at stepped
    · cases stepped
    · rename_i phase found
      split at stepped
      · rename_i resolved
        split at stepped
        · cases stepped
          exact quiet .ended nofun
        · rename_i active
          cases stepped
          have starts : server.startsConsume (.resumed index) = true := by
            simp [startsConsume, awaits, found, resolved, active]
          obtain ⟨idle, empty⟩ := undisturbed.free starts
          refine sole_of_fresh index empty ?_
          intro other command consuming
          by_contra elsewhere
          change (server.sequences.set index _)[other]? = _ at consuming
          rw [List.getElem?_set_ne (Ne.symm elsewhere)] at consuming
          exact not_consuming idle other command consuming
      · split at stepped
        · cases stepped
          exact quiet .failed nofun
        · cases stepped
  · cases stepped

/-- The one `consumeQueue` under way goes on, and no consumer is active yet. -/
theorem Sole.issue
    {server next : QueueServer} {index : ℕ} (sole : server.Sole)
    (stepped : server.issue index = some next) :
    next.Sole := by
  unfold QueueServer.issue at stepped
  split at stepped
  · split at stepped
    · rename_i waits
      cases stepped
      have inRange := (List.getElem?_eq_some_iff.mp waits).1
      refine sole.transfer (List.Sublist.refl _) ?_ ?_
      · intro other command found
        by_cases same : index = other
        · subst same
          exact ⟨.waiting, waits, fun _ _ => nofun⟩
        · change (server.sequences.set index _)[other]? = _ at found
          rw [List.getElem?_set_ne same] at found
          exact ⟨command, found, fun _ _ => id⟩
      · intro idle
        refine absurd ?_ (not_consuming idle index .issued)
        exact List.getElem?_set_self inRange
    · rename_i waits
      cases stepped
      exact sole.transfer_same (List.Sublist.refl _)
        (consuming_set waits nofun nofun) (fun _ _ => id)
    · cases stepped
  · cases stepped

/-- The consumer that is registered is the only one. -/
theorem Sole.carryOut
    {server next : QueueServer} {index : ℕ} (sole : server.Sole)
    (undisturbed : server.Undisturbed (.consumeCarriedOut index))
    (stepped : server.carryOut index = some next) :
    next.Sole := by
  unfold QueueServer.carryOut at stepped
  split at stepped
  · rename_i issued
    cases stepped
    have inRange := (List.getElem?_eq_some_iff.mp issued).1
    have empty : server.consumers = [] := by
      refine List.eq_nil_iff_forall_not_mem.mpr fun consumerTag member => ?_
      cases sole.own index .issued issued consumerTag member
    have placed :
        (server.sequences.set index
            (.consuming (.carriedOut server.registered)))[index]? =
          some (.consuming (.carriedOut server.registered)) :=
      List.getElem?_set_self inRange
    have only (other : ℕ) (command : ConsumeCommand)
        (found :
          (server.sequences.set index
              (.consuming (.carriedOut server.registered)))[other]? =
            some (.consuming command)) :
        other = index := by
      by_contra elsewhere
      rw [List.getElem?_set_ne (Ne.symm elsewhere)] at found
      exact elsewhere (sole.alone other index command .issued found issued)
    refine ⟨?_, ?_, ?_, ?_⟩
    · change (server.registered :: server.consumers).length ≤ 1
      rw [empty]
      exact Nat.le_refl 1
    · intro first second command following found foundOther
      exact (only first command found).trans (only second following foundOther).symm
    · intro other command found consumerTag member
      change consumerTag ∈ server.registered :: server.consumers at member
      rw [empty, List.mem_singleton] at member
      have here := only other command found
      subst here
      have same := Option.some.inj (found.symm.trans placed)
      rw [SequencePhase.consuming.inj same, member]
    · intro idle
      exact absurd placed (not_consuming idle index _)
  · rename_i rejected
    unfold Undisturbed disturbs at undisturbed
    simp [rejected, SequencePhase.isRejected] at undisturbed
  · cases stepped

theorem cancelConsumption_cases (server : QueueServer) :
    server.cancelConsumption.sequences = server.sequences ∧
      server.cancelConsumption.consumers = server.consumers ∧
      server.cancelConsumption.state = server.state ∧
      (∀ consumerTag, server.consumerTag = some consumerTag →
        consumerTag ∈ server.cancelConsumption.cancellations) ∧
      server.cancellations ⊆ server.cancelConsumption.cancellations := by
  unfold cancelConsumption
  split
  · rename_i nothing
    refine ⟨rfl, rfl, rfl, ?_, fun _ => id⟩
    intro consumerTag remembered
    cases nothing.symm.trans remembered
  · rename_i consumerTag remembered
    refine ⟨rfl, rfl, rfl, ?_, List.subset_cons_self _ _⟩
    intro other same
    rw [Option.some.inj (same.symm.trans remembered)]
    exact List.mem_cons_self

/-- The consumer that is remembered is now being cancelled. -/
theorem Sole.dispose {server : QueueServer} (sole : server.Sole) :
    server.dispose.Sole := by
  unfold QueueServer.dispose
  split
  · obtain ⟨sequences, consumers, _, cancels, keeps⟩ :=
      cancelConsumption_cases
        { server with
          state := .disposed
          initializer := server.initializer.dispose }
    refine sole.transfer_same ?_ ?_ ?_
    · rw [consumers]
    · rw [sequences]
      exact fun _ _ => Iff.rfl
    · intro consumerTag _ remembers
      refine Or.inr ?_
      rcases remembers with held | cancelled
      · exact cancels consumerTag held.2
      · exact keeps cancelled
  · exact sole

/-- The tag of the consumer arrives: it is remembered or cancelled at once. -/
theorem Sole.settleConsume
    {server next : QueueServer} {index : ℕ} {settlement : Settlement}
    (sole : server.Sole)
    (undisturbed : server.Undisturbed (.consumeSettled index settlement))
    (stepped : server.settleConsume index settlement = some next) :
    next.Sole := by
  unfold QueueServer.settleConsume at stepped
  split at stepped
  · rename_i consumerTag carriedOut
    have own := sole.own index _ carriedOut
    have idle (other : ℕ) (command : ConsumeCommand) :
        (server.sequences.set index .ended)[other]? ≠
          some (.consuming command) := by
      intro found
      by_cases same : index = other
      · subst same
        rw [List.getElem?_set_self
          (List.getElem?_eq_some_iff.mp carriedOut).1] at found
        cases found
      · rw [List.getElem?_set_ne same] at found
        exact same (sole.alone index other _ command carriedOut found)
    have tag (other : ℕ) (member : other ∈ server.consumers) :
        consumerTag = other :=
      ConsumeCommand.carriedOut.inj (own other member)
    dsimp only at stepped
    split at stepped
    · cases stepped
      obtain ⟨sequences, consumers, _, cancels, _⟩ :=
        cancelConsumption_cases
          { server.setSequence index .ended with consumerTag := some consumerTag }
      refine sole.transfer ?_ ?_ ?_
      · rw [consumers]
        exact List.Sublist.refl _
      · rw [sequences]
        exact fun other command found => absurd found (idle other command)
      · rw [consumers]
        intro _ other member
        exact Or.inr (cancels other (congrArg some (tag other member)))
    · rename_i active
      cases stepped
      refine sole.transfer (List.Sublist.refl _) ?_ ?_
      · exact fun other command found => absurd found (idle other command)
      · intro _ other member
        exact Or.inl ⟨active, congrArg some (tag other member)⟩
  · rename_i command consuming
    cases stepped
    -- A consumer of the rejected command would be this command's own.
    have empty : server.consumers = [] := by
      refine List.eq_nil_iff_forall_not_mem.mpr fun consumerTag member => ?_
      have own := sole.own index command consuming consumerTag member
      subst own
      unfold Undisturbed disturbs at undisturbed
      simp [consuming, member] at undisturbed
    refine sole.transfer (List.Sublist.refl _) ?_ ?_
    · intro other following found
      refine ⟨following, ?_, fun _ _ => id⟩
      by_cases same : index = other
      · subst same
        change (server.sequences.set index _)[index]? = _ at found
        rw [List.getElem?_set_self
          (List.getElem?_eq_some_iff.mp consuming).1] at found
        cases found
      · change (server.sequences.set index _)[other]? = _ at found
        rw [List.getElem?_set_ne same] at found
        exact found
    · intro _ consumerTag member
      change consumerTag ∈ server.consumers at member
      rw [empty] at member
      cases member
  · cases stepped

theorem Sole.settleCancel
    {server next : QueueServer} {consumerTag : ℕ} {settlement : Settlement}
    (sole : server.Sole)
    (undisturbed : server.Undisturbed (.cancelSettled consumerTag settlement))
    (stepped : server.settleCancel consumerTag settlement = some next) :
    next.Sole := by
  unfold QueueServer.settleCancel at stepped
  split at stepped
  · rename_i pending
    cases stepped
    -- Either way the cancelled consumer is not active any more.
    cases settlement with
    | fulfilled =>
        refine sole.transfer_same List.filter_sublist (fun _ _ => Iff.rfl) ?_
        intro other member remembers
        have cancelled : other ≠ consumerTag := by
          simpa using (List.mem_filter.mp member).2
        refine remembers.imp_right fun cancelling => ?_
        exact (List.mem_erase_of_ne cancelled).mpr cancelling
    | rejected =>
        refine
          sole.transfer_same (List.Sublist.refl _) (fun _ _ => Iff.rfl) ?_
        intro other member remembers
        have cancelled : other ≠ consumerTag := by
          intro same
          subst same
          unfold Undisturbed disturbs at undisturbed
          have active : other ∈ server.consumers := member
          simp [active] at undisturbed
        refine remembers.imp_right fun cancelling => ?_
        exact (List.mem_erase_of_ne cancelled).mpr cancelling
  · cases stepped

/-- No consumer survives its channel. -/
theorem Sole.loseChannel {server : QueueServer} (sole : server.Sole) :
    server.loseChannel.Sole := by
  refine sole.transfer (List.nil_sublist _) ?_ nofun
  intro index command found
  change (server.sequences.map interrupt)[index]? = _ at found
  rw [List.getElem?_map] at found
  obtain ⟨phase, present, interrupted⟩ := Option.map_eq_some_iff.mp found
  unfold interrupt at interrupted
  split at interrupted
  · rename_i before
    exact ⟨before, present, nofun⟩
  · cases interrupted
  · cases interrupted
  · subst interrupted
    exact ⟨command, present, nofun⟩

theorem sole_preserved (initial : QueueServer) :
    (machine initial).PreservedUnder Undisturbed Sole := by
  intro server event next sole undisturbed stepped
  change server.step event = some next at stepped
  cases event with
  | listen =>
      cases stepped
      exact sole.listen
  | dispose =>
      cases stepped
      exact sole.dispose
  | setIsExclusive value =>
      cases stepped
      exact sole.transfer_same (List.Sublist.refl _) (fun _ _ => Iff.rfl)
        (fun _ _ => id)
  | amqpReconnected =>
      cases stepped
      exact sole.reconnected
  | amqpChannelRecreated =>
      cases stepped
      exact sole.channelRecreated undisturbed
  | initializerRun run event =>
      change server.stepInitializer run event = some next at stepped
      unfold stepInitializer at stepped
      split at stepped
      · cases stepped
        exact sole.transfer_same (List.Sublist.refl _) (fun _ _ => Iff.rfl)
          (fun _ _ => id)
      · cases stepped
  | resumed index => exact sole.resume undisturbed stepped
  | consumeIssued index => exact sole.issue stepped
  | consumeCarriedOut index => exact sole.carryOut undisturbed stepped
  | consumeSettled index settlement =>
      exact sole.settleConsume undisturbed stepped
  | cancelSettled consumerTag settlement =>
      exact sole.settleCancel undisturbed stepped
  | channelLost =>
      cases stepped
      exact sole.loseChannel
  | channelCreated =>
      cases stepped
      exact sole.transfer_same (List.Sublist.refl _) (fun _ _ => Iff.rfl)
        (fun _ _ => id)
  | consumerCancelled consumerTag =>
      cases stepped
      exact sole.transfer_same List.filter_sublist (fun _ _ => Iff.rfl)
        (fun _ _ => id)

/-- A server that has been disposed of and has nothing pending remembers no
consumer. -/
theorem Sole.silent
    {server : QueueServer} (sole : server.Sole)
    (disposed : server.state = .disposed) (settled : server.Settled) :
    server.consumers = [] := by
  have idle : server.isConsuming = false := by
    by_contra busy
    obtain ⟨index, command, found⟩ :=
      (isConsuming_iff server).mp (Bool.not_eq_false _ ▸ busy)
    cases settled.1 _ (List.mem_of_getElem? found)
  refine List.eq_nil_iff_forall_not_mem.mpr fun consumerTag member => ?_
  rcases sole.remembered idle consumerTag member with held | cancelling
  · exact held.1 disposed
  · rw [settled.2] at cancelling
    cases cancelling

/-- The consumers of a server are as they should be: at most one is active, and
none when the server has been disposed of and nothing is pending. -/
def ConsumesOnce (server : QueueServer) : Prop :=
  server.consumers.length ≤ 1 ∧
    (server.state = .disposed → server.Settled → server.consumers = [])

theorem consumesOnce_run
    (initializer : ServerInitializer) {schedule : List QueueServerEvent}
    {final : QueueServer}
    (execution :
      (machine (create initializer)).run (create initializer) schedule =
        some final)
    (undisturbed :
      (machine (create initializer)).Throughout Undisturbed (create initializer)
        schedule) :
    final.ConsumesOnce := by
  have sole : final.Sole :=
    Machine.run_invariant_under (sole_preserved (create initializer))
      (sole_create initializer) undisturbed execution
  exact ⟨sole.one, sole.silent⟩

/-- In the undisturbed runs of a `JobServer` and of a `CommandReceiver`, at most
one of its consumers is active on the current channel at every moment, and none
once it has been disposed of and all its calls have settled. -/
theorem consumesOnce_of_undisturbed (exchange queue : String)
    (schedule : List QueueServerEvent) :
    (∀ final,
        (machine (jobServer exchange queue)).run (jobServer exchange queue)
            schedule = some final →
          (machine (jobServer exchange queue)).Throughout Undisturbed
              (jobServer exchange queue) schedule →
            final.ConsumesOnce) ∧
      ∀ final,
        (machine (commandReceiver exchange queue)).run
            (commandReceiver exchange queue) schedule = some final →
          (machine (commandReceiver exchange queue)).Throughout Undisturbed
              (commandReceiver exchange queue) schedule →
            final.ConsumesOnce := by
  constructor
  · intro final execution undisturbed
    exact consumesOnce_run _ execution undisturbed
  · intro final execution undisturbed
    exact consumesOnce_run _ execution undisturbed

/-- The server consumes, loses its channel with the consumer, consumes on the
next one, and is disposed of before the tag arrives. -/
def recoveredOnce : List QueueServerEvent :=
  [.channelCreated, .listen, .initializerRun 0 .started,
    .initializerRun 0 (.commandSettled .fulfilled),
    .initializerRun 0 (.commandSettled .fulfilled),
    .initializerRun 0 (.commandSettled .fulfilled), .resumed 0,
    .consumeIssued 0, .consumeCarriedOut 0, .consumeSettled 0 .fulfilled,
    .channelLost, .channelCreated, .amqpReconnected,
    .initializerRun 1 .started, .initializerRun 1 (.commandSettled .fulfilled),
    .initializerRun 1 (.commandSettled .fulfilled),
    .initializerRun 1 (.commandSettled .fulfilled), .resumed 1,
    .consumeIssued 1, .consumeCarriedOut 1, .dispose, .cancelSettled 0 .fulfilled,
    .consumeSettled 1 .fulfilled, .cancelSettled 1 .fulfilled]

theorem consumesOnce_of_recoveredOnce :
    (∃ final,
      (machine (jobServer "jobs" "queue")).run (jobServer "jobs" "queue")
          recoveredOnce = some final ∧
        final.ConsumesOnce) ∧
      ∃ final,
        (machine (commandReceiver "commands" "queue")).run
            (commandReceiver "commands" "queue") recoveredOnce = some final ∧
          final.ConsumesOnce := by
  constructor
  · refine ⟨_, rfl, (consumesOnce_of_undisturbed "jobs" "queue"
      recoveredOnce).1 _ rfl ?_⟩
    decide
  · refine ⟨_, rfl, (consumesOnce_of_undisturbed "commands" "queue"
      recoveredOnce).2 _ rfl ?_⟩
    decide

/-- The channel is lost while the `consumeQueue` of `listen` is under way: it is
retried on the next channel, on which the handler of `channelRecreated` consumes
as well. -/
def retriedAndRecreated : List QueueServerEvent :=
  [.channelCreated, .listen, .initializerRun 0 .started,
    .initializerRun 0 (.commandSettled .fulfilled),
    .initializerRun 0 (.commandSettled .fulfilled),
    .initializerRun 0 (.commandSettled .fulfilled), .resumed 0,
    .consumeIssued 0, .channelLost, .channelCreated, .amqpChannelRecreated,
    .consumeIssued 0, .consumeCarriedOut 0, .consumeSettled 0 .fulfilled,
    .consumeIssued 1, .consumeCarriedOut 1, .consumeSettled 1 .fulfilled,
    .dispose, .cancelSettled 1 .fulfilled]

/-- The first consumer is forgotten, and stays active after `dispose`. -/
theorem retriedAndRecreated_forgets :
    ¬ ∀ (exchange queue : String) (schedule : List QueueServerEvent)
        (final : QueueServer),
        (machine (jobServer exchange queue)).run (jobServer exchange queue)
            schedule = some final →
          final.ConsumesOnce := by
  intro always
  have once := always "jobs" "queue" retriedAndRecreated _ rfl
  have silent := once.2 rfl ⟨by decide, rfl⟩
  cases silent

end QueueServer

end Amq
