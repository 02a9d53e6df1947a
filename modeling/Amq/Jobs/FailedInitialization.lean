import Amq.Jobs.JobClient
import Amq.Transition.Monitor

/-!
# Initializations that have failed

The promise of an initialization serves as its lock, as the mark that it is done
and as the token of its run.  Nothing takes it back when the run is rejected, so
that a later call gets the old rejection.
-/


namespace Amq.Jobs

open Amq.Transition

inductive JobQueueInitializerEvent where
  | initializeQueue
  | reset
  | dispose
  | run (index : ℕ) (event : InitializeEvent)
  deriving DecidableEq, Repr

namespace JobQueueInitializer

/-! ## The initializer on its own -/

def act (initializer : JobQueueInitializer) :
    JobQueueInitializerEvent → Option JobQueueInitializer
  | .initializeQueue => some initializer.initializeQueue.1
  | .reset => some initializer.reset
  | .dispose => some initializer.dispose
  | .run index event => initializer.step index event

/-- The initializer of a queue as a machine. -/
def machine (exchange queue : String) :
    Machine JobQueueInitializer JobQueueInitializerEvent where
  initial := create exchange queue
  step := act

/-- The broker command that an event makes a run send. -/
def issued (initializer : JobQueueInitializer) :
    JobQueueInitializerEvent → Option QueueSetupCommand
  | .run index event =>
      match initializer.runs[index]? with
      | some phase =>
          (phase.next (initializer.initializePromise == some index) event).bind
            (InitializePhase.command initializer)
      | none => none
  | _ => none

/-- A new run, whose promise becomes the current one. -/
def startRun (initializer : JobQueueInitializer) : JobQueueInitializer × ℕ :=
  ({ initializer with
      initializePromise := some initializer.runs.length
      runs := initializer.runs ++ [.scheduled] },
    initializer.runs.length)

/-- What a call of `initialize` should do: join the run in progress or the one
that has succeeded, and start a new run otherwise. -/
def answer (initializer : JobQueueInitializer) : JobQueueInitializer × ℕ :=
  match initializer.initializePromise with
  | some promise =>
      if initializer.runs[promise]? = some .failed then
        initializer.startRun
      else
        (initializer, promise)
  | none => initializer.startRun

/-- Calls are answered as they should be, and broker commands are only sent by
the run whose promise is current. -/
def AnswersCalls (state : JobQueueInitializer × Bool) :
    JobQueueInitializerEvent → Prop
  | .initializeQueue => state.1.initializeQueue = state.1.answer
  | .run index event =>
      ∀ command, state.1.issued (.run index event) = some command →
        state.1.initializePromise = some index
  | _ => True

/-- A command of the current run has been rejected since `initializePromise` was
cleared for the last time. -/
def rejectedSince (rejected : Bool) (initializer : JobQueueInitializer) :
    JobQueueInitializerEvent → Bool
  | .run index (.commandSettled .rejected) =>
      rejected || initializer.initializePromise == some index
  | .reset => false
  | .dispose => false
  | _ => rejected

/-- The machine that keeps in mind whether a command has been rejected. -/
def watchedMachine (exchange queue : String) :
    Machine (JobQueueInitializer × Bool) JobQueueInitializerEvent :=
  (machine exchange queue).watched rejectedSince false

/-- `initialize` is not called after a command of the current run has been
rejected, unless `reset` or `dispose` comes in between. -/
def NotAfterRejection (state : JobQueueInitializer × Bool) :
    JobQueueInitializerEvent → Prop
  | .initializeQueue => state.2 = false
  | _ => True

/-- The promise is that of a run, and the record tells whether this run has
failed. -/
structure Remembers (state : JobQueueInitializer × Bool) : Prop where
  valid : state.1.PromiseValid
  rejected :
    state.2 = true ↔
      ∃ promise, state.1.initializePromise = some promise ∧
        state.1.runs[promise]? = some .failed

theorem next_failed_iff
    {isCurrent : Bool} {phase following : InitializePhase}
    {event : InitializeEvent}
    (moved : phase.next isCurrent event = some following) :
    following = .failed ↔ event = .commandSettled .rejected := by
  unfold InitializePhase.next at moved
  split at moved <;> cases isCurrent <;> cases moved <;> simp

/-- A run that has failed is over. -/
theorem next_failed
    (isCurrent : Bool) (event : InitializeEvent) :
    InitializePhase.next isCurrent .failed event = none := by
  cases event with
  | started => rfl
  | commandSettled settlement => cases settlement <;> rfl

/-- A superseded run sends nothing. -/
theorem next_superseded_command
    (initializer : JobQueueInitializer) {phase following : InitializePhase}
    {event : InitializeEvent}
    (moved : phase.next false event = some following) :
    following.command initializer = none := by
  unfold InitializePhase.next at moved
  split at moved <;> cases moved <;> rfl

theorem rejectedSince_run
    {rejected : Bool} {initializer : JobQueueInitializer} {index : ℕ}
    {event : InitializeEvent} :
    rejectedSince rejected initializer (.run index event) =
      (rejected ||
        (decide (event = .commandSettled .rejected) &&
          initializer.initializePromise == some index)) := by
  cases event with
  | started => simp [rejectedSince]
  | commandSettled settlement =>
      cases settlement with
      | fulfilled => simp [rejectedSince]
      | rejected => simp [rejectedSince]

theorem remembers_create (exchange queue : String) :
    Remembers (watchedMachine exchange queue).initial :=
  ⟨by simp [watchedMachine, Machine.watched, machine, create, PromiseValid],
    by simp [watchedMachine, Machine.watched, machine, create]⟩

theorem Remembers.initializeQueue
    {initializer : JobQueueInitializer} {rejected : Bool}
    (remembers : Remembers (initializer, rejected)) :
    Remembers (initializer.initializeQueue.1, rejected) := by
  refine ⟨(initializeQueue_runs remembers.valid).2.1, ?_⟩
  rw [remembers.rejected]
  unfold JobQueueInitializer.initializeQueue
  split
  · exact Iff.rfl
  · rename_i none
    refine iff_of_false ?_ ?_
    · intro ⟨promise, current, _⟩
      rw [none] at current
      cases current
    · intro ⟨promise, current, failed⟩
      cases current
      dsimp only at failed
      rw [List.getElem?_concat_length] at failed
      cases failed

theorem Remembers.run
    {initializer next : JobQueueInitializer} {rejected : Bool} {index : ℕ}
    {event : InitializeEvent}
    (remembers : Remembers (initializer, rejected))
    (stepped : initializer.step index event = some next) :
    Remembers (next, rejectedSince rejected initializer (.run index event)) := by
  obtain ⟨old, new, present, moved, same⟩ := step_cases stepped
  subst same
  have inside : index < initializer.runs.length :=
    (List.getElem?_eq_some_iff.mp present).1
  have working : old ≠ .failed := by
    intro failed
    rw [failed, next_failed] at moved
    cases moved
  refine ⟨?_, ?_⟩
  · intro promise current
    rw [List.length_set]
    exact remembers.valid promise current
  · simp only [rejectedSince_run, Bool.or_eq_true, Bool.and_eq_true,
      decide_eq_true_iff, beq_iff_eq, ← next_failed_iff moved]
    rw [remembers.rejected]
    by_cases current : initializer.initializePromise = some index
    · have unfailed : (initializer.runs[index]? = some .failed) = False := by
        rw [present, Option.some.injEq]
        exact eq_false working
      simp only [unfailed, current, false_or, and_true, Option.some.injEq,
        exists_eq_left', List.getElem?_set_self inside]
    · simp only [current, and_false, or_false]
      constructor
      · intro ⟨promise, itsPromise, failed⟩
        refine ⟨promise, itsPromise, ?_⟩
        have elsewhere : index ≠ promise := by
          intro own
          exact current (own ▸ itsPromise)
        rw [List.getElem?_set_ne elsewhere]
        exact failed
      · intro ⟨promise, itsPromise, failed⟩
        refine ⟨promise, itsPromise, ?_⟩
        have elsewhere : index ≠ promise := by
          intro own
          exact current (own ▸ itsPromise)
        rw [List.getElem?_set_ne elsewhere] at failed
        exact failed

theorem remembers_preserved (exchange queue : String) :
    (watchedMachine exchange queue).Preserved Remembers := by
  intro ⟨initializer, rejected⟩ event ⟨next, record⟩ remembers stepped
  obtain ⟨acted, recorded⟩ := Machine.watched_step_iff.mp stepped
  dsimp only at acted recorded
  subst recorded
  cases event with
  | initializeQueue =>
      cases acted
      exact remembers.initializeQueue
  | reset =>
      cases acted
      exact ⟨nofun, by simp [rejectedSince, reset]⟩
  | dispose =>
      cases acted
      exact ⟨nofun, by simp [rejectedSince, dispose]⟩
  | run index event => exact remembers.run acted

theorem initializeQueue_answered_iff
    {initializer : JobQueueInitializer} {rejected : Bool}
    (remembers : Remembers (initializer, rejected)) :
    initializer.initializeQueue = initializer.answer ↔ rejected = false := by
  have decided := remembers.rejected
  unfold initializeQueue answer
  cases promised : initializer.initializePromise with
  | none =>
      refine iff_of_true ?_ ?_
      · simp [startRun]
      · rw [← Bool.not_eq_true, decided]
        intro ⟨promise, current, _⟩
        rw [promised] at current
        cases current
  | some promise =>
      have valid : promise < initializer.runs.length :=
        remembers.valid promise promised
      simp only [promised, Option.some.injEq, exists_eq_left'] at decided
      dsimp only
      by_cases failed : initializer.runs[promise]? = some .failed
      · rw [if_pos failed, decided.mpr failed]
        refine iff_of_false ?_ nofun
        intro same
        have new : promise = initializer.runs.length :=
          congrArg Prod.snd same
        omega
      · rw [if_neg failed]
        refine iff_of_true rfl ?_
        rw [← Bool.not_eq_true, decided]
        exact failed

/-- Commands are only sent by the current run. -/
theorem issued_current
    {initializer : JobQueueInitializer} {index : ℕ} {event : InitializeEvent}
    {command : QueueSetupCommand}
    (sent : initializer.issued (.run index event) = some command) :
    initializer.initializePromise = some index := by
  by_contra superseded
  simp only [issued] at sent
  split at sent
  · rename_i phase present
    have notCurrent :
        (initializer.initializePromise == some index) = false :=
      beq_eq_false_iff_ne.mpr superseded
    obtain ⟨following, moved, itsCommand⟩ := Option.bind_eq_some_iff.mp sent
    rw [notCurrent] at moved
    rw [next_superseded_command initializer moved] at itsCommand
    cases itsCommand
  · cases sent

/-- An initializer answers every call as it should exactly when it is not called
after a rejection. -/
theorem answersCalls_throughout_iff
    {exchange queue : String} {schedule : List JobQueueInitializerEvent}
    {state : JobQueueInitializer × Bool}
    (execution :
      (watchedMachine exchange queue).run
          (watchedMachine exchange queue).initial schedule = some state) :
    (watchedMachine exchange queue).Throughout AnswersCalls
        (watchedMachine exchange queue).initial schedule ↔
      (watchedMachine exchange queue).Throughout NotAfterRejection
        (watchedMachine exchange queue).initial schedule := by
  refine Machine.throughout_congr _ _ (remembers_preserved exchange queue) ?_
    (remembers_create exchange queue) execution
  rintro ⟨initializer, rejected⟩ event next remembers stepped
  cases event with
  | initializeQueue => exact initializeQueue_answered_iff remembers
  | run index event => exact iff_of_true (fun _ => issued_current) trivial
  | reset => exact Iff.rfl
  | dispose => exact Iff.rfl

end JobQueueInitializer

namespace JobClient

variable {κ Buffer V : Type}

/-! ## Callers of an initialization that has failed -/

/-- The broker works, and nobody reconnects, disposes of the client or calls. -/
def isHealthy : JobClientEvent V → Bool
  | .initializerRun _ _ .started => true
  | .initializerRun _ _ (.commandSettled .fulfilled) => true
  | .prepared _ => true
  | .publishSettled _ .fulfilled => true
  | _ => false

/-- A call can be brought to its success as long as the broker works. -/
def CanSucceed
    (config : JobClientConfig κ Buffer V) (client : JobClient κ Buffer V)
    (index : ℕ) : Prop :=
  ∃ schedule final, (∀ event ∈ schedule, isHealthy event = true) ∧
    (machine config).run client schedule = some final ∧
      ∃ call, final.calls[index]? = some call ∧ call.phase = .resolved

/-- A call with valid arguments and a message that can be serialized. -/
def Accepts
    (config : JobClientConfig κ Buffer V) (client : JobClient κ Buffer V)
    (queue : String) (options : PerformOptions V) : Prop :=
  client.refusal config queue options = none ∧
    (config.serialize (messageContent config options)).isSome = true

/-- Every call that is accepted can still succeed. -/
def CallsCanSucceed
    (config : JobClientConfig κ Buffer V)
    (state : JobClient κ Buffer V × List String) : JobClientEvent V → Prop
  | .performInBackground queue options =>
      state.1.Accepts config queue options →
        CanSucceed config (state.1.performInBackground config queue options)
          state.1.calls.length
  | _ => True

/-- The queues with a rejected command in the initialization which the client
still knows. -/
def rejectedQueues
    (rejected : List String) (client : JobClient κ Buffer V) :
    JobClientEvent V → List String
  | .initializerRun index _ (.commandSettled .rejected) =>
      match client.initializers[index]? with
      | some initializer =>
          if client.jobQueueInitializers initializer.queue = some index then
            initializer.queue :: rejected
          else
            rejected
      | none => rejected
  | .amqpReconnected => if client.isDisposed then rejected else []
  | .dispose => []
  | _ => rejected

/-- The machine that keeps in mind for which queues a command has been
rejected. -/
def watchedMachine (config : JobClientConfig κ Buffer V) :
    Machine (JobClient κ Buffer V × List String) (JobClientEvent V) :=
  (machine config).watched rejectedQueues []

/-- No accepted call is for a queue with a command rejected since the client has
reconnected for the last time. -/
def NotAfterRejection
    (config : JobClientConfig κ Buffer V)
    (state : JobClient κ Buffer V × List String) : JobClientEvent V → Prop
  | .performInBackground queue options =>
      state.1.Accepts config queue options → queue ∉ state.2
  | _ => True

/-- An initializer that is in the map has made one run. -/
structure OneRun
    (initializer : JobQueueInitializer) (queue : String)
    (phase : InitializePhase) : Prop where
  queue : initializer.queue = queue
  current : initializer.initializePromise = some 0
  runs : initializer.runs = [phase]
  notSuperseded : phase ≠ .superseded

/-- The record tells which initializers in the map have failed. -/
structure Tracks (state : JobClient κ Buffer V × List String) : Prop where
  mapped :
    ∀ queue index, state.1.jobQueueInitializers queue = some index →
      ∃ initializer phase, state.1.initializers[index]? = some initializer ∧
        OneRun initializer queue phase ∧ (phase = .failed ↔ queue ∈ state.2)
  unmapped :
    ∀ queue, state.1.jobQueueInitializers queue = none → queue ∉ state.2

/-- A step that leaves the initializers alone. -/
theorem Tracks.of_eq
    {client next : JobClient κ Buffer V} {rejected : List String}
    (tracks : Tracks (client, rejected))
    (sameMap : next.jobQueueInitializers = client.jobQueueInitializers)
    (sameInitializers : next.initializers = client.initializers) :
    Tracks (next, rejected) := by
  refine ⟨?_, ?_⟩
  · intro queue index place
    dsimp only at place ⊢
    rw [sameMap] at place
    rw [sameInitializers]
    exact tracks.mapped queue index place
  · intro queue place
    dsimp only at place ⊢
    rw [sameMap] at place
    exact tracks.unmapped queue place

theorem oneRun_initializeQueue (exchange queue : String) :
    OneRun (JobQueueInitializer.create exchange queue).initializeQueue.1 queue
      .scheduled where
  queue := rfl
  current := rfl
  runs := rfl
  notSuperseded := by simp

/-- An initializer is added for a queue that the map does not have. -/
theorem Tracks.insert
    {client next : JobClient κ Buffer V} {rejected : List String}
    (tracks : Tracks (client, rejected)) {queue : String}
    {initializer : JobQueueInitializer}
    (absent : client.jobQueueInitializers queue = none)
    (map :
      next.jobQueueInitializers =
        Function.update client.jobQueueInitializers queue
          (some client.initializers.length))
    (initializers : next.initializers = client.initializers ++ [initializer])
    (oneRun : OneRun initializer queue .scheduled) :
    Tracks (next, rejected) := by
  have notRejected := tracks.unmapped queue absent
  refine ⟨?_, ?_⟩
  · intro other index itsIndex
    dsimp only at itsIndex ⊢
    rw [map] at itsIndex
    rw [initializers]
    by_cases same : other = queue
    · subst same
      rw [Function.update_self] at itsIndex
      cases itsIndex
      refine ⟨initializer, .scheduled, List.getElem?_concat_length, oneRun, ?_⟩
      exact iff_of_false (by simp) notRejected
    · rw [Function.update_of_ne same] at itsIndex
      obtain ⟨earlier, phase, present, itsRun, failed⟩ :=
        tracks.mapped other index itsIndex
      have inside : index < client.initializers.length :=
        (List.getElem?_eq_some_iff.mp present).1
      refine ⟨earlier, phase, ?_, itsRun, failed⟩
      rw [List.getElem?_append_left inside]
      exact present
  · intro other itsPlace
    dsimp only at itsPlace ⊢
    rw [map] at itsPlace
    by_cases same : other = queue
    · subst same
      exact notRejected
    · rw [Function.update_of_ne same] at itsPlace
      exact tracks.unmapped other itsPlace

/-- An accepted call waits for the run of the initializer in the map. -/
theorem performInBackground_accepted
    {config : JobClientConfig κ Buffer V} {client : JobClient κ Buffer V}
    {rejected : List String} (tracks : Tracks (client, rejected))
    {queue : String} {options : PerformOptions V}
    (accepted : client.refusal config queue options = none) :
    ∃ index initializer phase,
      (client.performInBackground config queue options).initializers[index]? =
          some initializer ∧
        OneRun initializer queue phase ∧
        (phase = .failed ↔ queue ∈ rejected) ∧
        (client.performInBackground config queue options).calls =
          client.calls ++ [⟨queue, options, .preparing index 0⟩] ∧
        (client.performInBackground config queue options).isDisposed =
          client.isDisposed ∧
        Tracks (client.performInBackground config queue options, rejected) := by
  unfold performInBackground getInitializer
  simp only [accepted]
  cases place : client.jobQueueInitializers queue with
  | some index =>
      obtain ⟨initializer, phase, present, oneRun, failed⟩ :=
        tracks.mapped queue index place
      have joined :
          initializer.initializeQueue = (initializer, 0) := by
        simp [JobQueueInitializer.initializeQueue, oneRun.current]
      have unchanged :
          client.initializers.set index initializer = client.initializers := by
        obtain ⟨inside, itself⟩ := List.getElem?_eq_some_iff.mp present
        rw [← itself]
        exact List.set_getElem_self inside
      simp only [present, joined, unchanged]
      exact ⟨index, initializer, phase, present, oneRun, failed, rfl, trivial,
        tracks.of_eq rfl rfl⟩
  | none =>
      have created :
          (client.initializers ++
              [JobQueueInitializer.create config.exchange queue])[
                client.initializers.length]? =
            some (JobQueueInitializer.create config.exchange queue) :=
        List.getElem?_concat_length
      have started (initializer : JobQueueInitializer) :
          (client.initializers ++
              [JobQueueInitializer.create config.exchange queue]).set
                client.initializers.length initializer =
            client.initializers ++ [initializer] := by
        simp
      have oneRun := oneRun_initializeQueue config.exchange queue
      simp only [created, started]
      refine ⟨client.initializers.length, _, .scheduled,
        List.getElem?_concat_length, oneRun, ?_, rfl, trivial, ?_⟩
      · exact iff_of_false (by simp) (tracks.unmapped queue place)
      · exact tracks.insert place rfl rfl oneRun

theorem performInBackground_refused
    {config : JobClientConfig κ Buffer V} {client : JobClient κ Buffer V}
    {queue : String} {options : PerformOptions V} {message : String}
    (refused : client.refusal config queue options = some message) :
    client.performInBackground config queue options =
      { client with
        calls := client.calls ++ [⟨queue, options, .refused message⟩] } := by
  unfold performInBackground
  rw [refused]

/-! ### Every step keeps track -/

theorem Tracks.performInBackground
    {client : JobClient κ Buffer V} {rejected : List String}
    (tracks : Tracks (client, rejected)) (config : JobClientConfig κ Buffer V)
    (queue : String) (options : PerformOptions V) :
    Tracks (client.performInBackground config queue options, rejected) := by
  cases refusal : client.refusal config queue options with
  | none =>
      obtain ⟨_, _, _, _, _, _, _, _, kept⟩ :=
        performInBackground_accepted tracks refusal
      exact kept
  | some message =>
      rw [performInBackground_refused refusal]
      exact tracks.of_eq rfl rfl

theorem OneRun.step
    {initializer next : JobQueueInitializer} {queue : String}
    {phase : InitializePhase} {run : ℕ} {event : InitializeEvent}
    (oneRun : OneRun initializer queue phase)
    (stepped : initializer.step run event = some next) :
    run = 0 ∧ ∃ following, phase.next true event = some following ∧
      OneRun next queue following := by
  obtain ⟨old, new, present, moved, same⟩ :=
    JobQueueInitializer.step_cases stepped
  subst same
  rw [oneRun.runs] at present
  cases run with
  | zero =>
      cases present
      rw [oneRun.current, beq_self_eq_true] at moved
      refine ⟨rfl, new, moved, oneRun.queue, oneRun.current, ?_, ?_⟩
      · rw [oneRun.runs]
        rfl
      · intro superseded
        subst superseded
        unfold InitializePhase.next at moved
        split at moved <;> cases moved
  | succ run => cases present

theorem mem_rejectedQueues_iff
    {client : JobClient κ Buffer V} {rejected : List String}
    {index run : ℕ} {event : InitializeEvent} {initializer : JobQueueInitializer}
    (present : client.initializers[index]? = some initializer) (queue : String) :
    queue ∈
        rejectedQueues rejected client
          (.initializerRun index run event : JobClientEvent V) ↔
      queue ∈ rejected ∨
        event = .commandSettled .rejected ∧ queue = initializer.queue ∧
          client.jobQueueInitializers initializer.queue = some index := by
  cases event with
  | started => simp [rejectedQueues]
  | commandSettled settlement =>
      cases settlement with
      | fulfilled => simp [rejectedQueues]
      | rejected =>
          simp only [rejectedQueues, present]
          split
          · rename_i place
            rw [List.mem_cons]
            constructor
            · intro either
              rcases either with own | earlier
              · exact Or.inr ⟨trivial, own, place⟩
              · exact Or.inl earlier
            · intro either
              rcases either with earlier | ⟨_, own, _⟩
              · exact Or.inr earlier
              · exact Or.inl own
          · rename_i forgotten
            constructor
            · exact Or.inl
            · intro either
              rcases either with earlier | ⟨_, _, place⟩
              · exact earlier
              · exact absurd place forgotten

theorem Tracks.initializerRun
    {client next : JobClient κ Buffer V} {rejected : List String}
    (tracks : Tracks (client, rejected)) {index run : ℕ}
    {event : InitializeEvent}
    (stepped : client.stepInitializer index run event = some next) :
    Tracks
      (next,
        rejectedQueues rejected client
          (.initializerRun index run event : JobClientEvent V)) := by
  unfold stepInitializer at stepped
  split at stepped
  · cases stepped
  · rename_i initializer present
    split at stepped
    · cases stepped
    · rename_i following taken
      cases stepped
      have inside : index < client.initializers.length :=
        (List.getElem?_eq_some_iff.mp present).1
      refine ⟨?_, ?_⟩
      · intro queue place itsPlace
        dsimp only at itsPlace ⊢
        obtain ⟨itself, phase, found, oneRun, failed⟩ :=
          tracks.mapped queue place itsPlace
        by_cases own : index = place
        · subst own
          cases present.symm.trans found
          obtain ⟨_, new, moved, itsRun⟩ := oneRun.step taken
          refine ⟨following, new, List.getElem?_set_self inside, itsRun, ?_⟩
          have working : phase ≠ .failed := by
            intro isFailed
            rw [isFailed, JobQueueInitializer.next_failed] at moved
            cases moved
          have notYet : queue ∉ rejected := fun member => working (failed.mpr member)
          rw [mem_rejectedQueues_iff present,
            JobQueueInitializer.next_failed_iff moved, oneRun.queue]
          simp [notYet, itsPlace]
        · refine ⟨itself, phase, ?_, oneRun, ?_⟩
          · rw [List.getElem?_set_ne own]
            exact found
          · rw [mem_rejectedQueues_iff present, failed]
            refine ⟨Or.inl, ?_⟩
            intro either
            rcases either with earlier | ⟨_, same, elsewhere⟩
            · exact earlier
            · rw [← same, itsPlace] at elsewhere
              exact absurd (Option.some.inj elsewhere).symm own
      · intro queue itsPlace member
        dsimp only at itsPlace member
        rcases (mem_rejectedQueues_iff present queue).mp member with
          earlier | ⟨_, same, elsewhere⟩
        · exact tracks.unmapped queue itsPlace earlier
        · rw [← same, itsPlace] at elsewhere
          cases elsewhere

/-- A step that settles an await of a call. -/
theorem settlePreparation_cases
    {config : JobClientConfig κ Buffer V} {client next : JobClient κ Buffer V}
    {index : ℕ}
    (stepped : client.settlePreparation config index = some next) :
    ∃ call initializer run phase, client.calls[index]? = some call ∧
      call.phase = .preparing initializer run ∧
      (client.initializers[initializer]?).bind (·.runs[run]?) = some phase ∧
      (phase.isResolved = true ∧ next = client.publish config index call ∨
        phase = .failed ∧ next = client.setPhase index call .rejected) := by
  unfold settlePreparation at stepped
  split at stepped
  · cases stepped
  · rename_i call present
    split at stepped
    · rename_i initializer run preparing
      split at stepped
      · cases stepped
      · rename_i phase found
        split at stepped
        · rename_i resolved
          exact ⟨call, initializer, run, phase, present, preparing, found,
            Or.inl ⟨resolved, (Option.some.inj stepped).symm⟩⟩
        · split at stepped
          · rename_i failed
            exact ⟨call, initializer, run, phase, present, preparing, found,
              Or.inr ⟨failed, (Option.some.inj stepped).symm⟩⟩
          · cases stepped
    · cases stepped

theorem settlePublish_cases
    {client next : JobClient κ Buffer V} {index : ℕ} {settlement : Settlement}
    (stepped : client.settlePublish index settlement = some next) :
    ∃ call phase, client.calls[index]? = some call ∧
      call.phase = .publishing ∧ next = client.setPhase index call phase := by
  unfold settlePublish at stepped
  split at stepped
  · cases stepped
  · rename_i call present
    split at stepped
    · rename_i publishing
      exact ⟨call, _, present, publishing, (Option.some.inj stepped).symm⟩
    · rename_i publishing
      exact ⟨call, _, present, publishing, (Option.some.inj stepped).symm⟩
    · cases stepped

/-- `publish` only concerns its call. -/
theorem publish_frame
    (config : JobClientConfig κ Buffer V) (client : JobClient κ Buffer V)
    (index : ℕ) (call : PerformCall V) :
    (client.publish config index call).jobQueueInitializers =
        client.jobQueueInitializers ∧
      (client.publish config index call).initializers = client.initializers ∧
      ∃ phase,
        (client.publish config index call).calls =
          client.calls.set index { call with phase := phase } := by
  unfold publish
  split
  · exact ⟨rfl, rfl, _, rfl⟩
  · split
    · exact ⟨rfl, rfl, _, rfl⟩
    · exact ⟨rfl, rfl, _, rfl⟩

theorem Tracks.disposeJobQueueInitializers
    (client : JobClient κ Buffer V) :
    Tracks (client.disposeJobQueueInitializers, []) :=
  ⟨nofun, fun _ _ => List.not_mem_nil⟩

theorem tracks_preserved (config : JobClientConfig κ Buffer V) :
    (watchedMachine config).Preserved Tracks := by
  intro ⟨client, rejected⟩ event ⟨next, record⟩ tracks stepped
  obtain ⟨taken, recorded⟩ := Machine.watched_step_iff.mp stepped
  dsimp only at taken recorded
  subst recorded
  cases event with
  | performInBackground queue options =>
      cases taken
      exact tracks.performInBackground config queue options
  | amqpReconnected =>
      cases taken
      unfold handleAmqpReconnected rejectedQueues
      split
      · exact tracks
      · exact Tracks.disposeJobQueueInitializers client
  | dispose =>
      cases taken
      exact Tracks.disposeJobQueueInitializers { client with isDisposed := true }
  | initializerRun index run event => exact tracks.initializerRun taken
  | prepared index =>
      obtain ⟨call, _, _, _, _, _, _, published | failed⟩ :=
        settlePreparation_cases taken
      · obtain ⟨sameMap, sameInitializers, _⟩ :=
          publish_frame config client index call
        rw [published.2]
        exact tracks.of_eq sameMap sameInitializers
      · rw [failed.2]
        exact tracks.of_eq rfl rfl
  | publishSettled index settlement =>
      obtain ⟨call, phase, _, _, same⟩ := settlePublish_cases taken
      rw [same]
      exact tracks.of_eq rfl rfl

/-! ### Which calls can succeed -/

/-- The call waits in vain. -/
def WaitsForFailed
    (client : JobClient κ Buffer V) (index place : ℕ) : Prop :=
  (∃ initializer, client.initializers[place]? = some initializer ∧
    initializer.runs[0]? = some .failed) ∧
  ∃ call, client.calls[index]? = some call ∧
    (call.phase = .preparing place 0 ∨ call.phase = .rejected)

/-- Another call has settled. -/
theorem WaitsForFailed.other
    {client next : JobClient κ Buffer V} {index place other : ℕ}
    {call : PerformCall V}
    (waits : WaitsForFailed client index place) (different : other ≠ index)
    (sameInitializers : next.initializers = client.initializers)
    (calls : next.calls = client.calls.set other call) :
    WaitsForFailed next index place := by
  obtain ⟨failed, waiting, present, itsPhase⟩ := waits
  refine ⟨sameInitializers ▸ failed, waiting, ?_, itsPhase⟩
  rw [calls, List.getElem?_set_ne different]
  exact present

theorem WaitsForFailed.initializerRun
    {client next : JobClient κ Buffer V} {index place other run : ℕ}
    {event : InitializeEvent}
    (waits : WaitsForFailed client index place)
    (stepped : client.stepInitializer other run event = some next) :
    WaitsForFailed next index place := by
  obtain ⟨⟨initializer, present, failed⟩, waiting⟩ := waits
  unfold stepInitializer at stepped
  split at stepped
  · cases stepped
  · rename_i itself found
    split at stepped
    · cases stepped
    · rename_i following taken
      cases stepped
      refine ⟨?_, waiting⟩
      by_cases own : other = place
      · subst own
        cases present.symm.trans found
        have inside : other < client.initializers.length :=
          (List.getElem?_eq_some_iff.mp present).1
        obtain ⟨old, new, itsPhase, moved, same⟩ :=
          JobQueueInitializer.step_cases taken
        refine ⟨following, List.getElem?_set_self inside, ?_⟩
        have elsewhere : run ≠ 0 := by
          intro first
          subst first
          cases failed.symm.trans itsPhase
          rw [JobQueueInitializer.next_failed] at moved
          cases moved
        rw [same, List.getElem?_set_ne elsewhere]
        exact failed
      · refine ⟨initializer, ?_, failed⟩
        dsimp only
        rw [List.getElem?_set_ne own]
        exact present

theorem WaitsForFailed.prepared
    {config : JobClientConfig κ Buffer V} {client next : JobClient κ Buffer V}
    {index place other : ℕ}
    (waits : WaitsForFailed client index place)
    (stepped : client.settlePreparation config other = some next) :
    WaitsForFailed next index place := by
  obtain ⟨call, itsPlace, run, phase, present, preparing, found, outcome⟩ :=
    settlePreparation_cases stepped
  by_cases own : other = index
  · subst own
    obtain ⟨⟨initializer, itself, failed⟩, waiting, itsCall, itsPhase⟩ := waits
    cases present.symm.trans itsCall
    rw [preparing] at itsPhase
    rcases itsPhase with same | rejected
    · cases same
      simp only [itself, Option.bind_some, failed, Option.some.injEq] at found
      subst found
      rcases outcome with ⟨resolved, _⟩ | ⟨_, same⟩
      · cases resolved
      · subst same
        have inside : other < client.calls.length :=
          (List.getElem?_eq_some_iff.mp present).1
        exact ⟨⟨initializer, itself, failed⟩, _, List.getElem?_set_self inside,
          Or.inr rfl⟩
    · cases rejected
  · rcases outcome with ⟨_, same⟩ | ⟨_, same⟩
    · subst same
      obtain ⟨_, sameInitializers, _, calls⟩ :=
        publish_frame config client other call
      exact waits.other own sameInitializers calls
    · subst same
      exact waits.other own rfl rfl

theorem waitsForFailed_preserved
    (config : JobClientConfig κ Buffer V) (index place : ℕ) :
    (machine config).PreservedUnder (fun _ event => isHealthy event = true)
      fun client : JobClient κ Buffer V => WaitsForFailed client index place := by
  intro client event next waits healthy stepped
  cases event with
  | performInBackground queue options => cases healthy
  | amqpReconnected => cases healthy
  | dispose => cases healthy
  | initializerRun other run event => exact waits.initializerRun stepped
  | prepared other => exact waits.prepared stepped
  | publishSettled other settlement =>
      obtain ⟨call, phase, present, publishing, same⟩ :=
        settlePublish_cases stepped
      subst same
      by_cases own : other = index
      · subst own
        obtain ⟨_, waiting, itsCall, itsPhase⟩ := waits
        cases present.symm.trans itsCall
        rw [publishing] at itsPhase
        rcases itsPhase with preparing | rejected
        · cases preparing
        · cases rejected
      · exact waits.other own rfl rfl

theorem not_canSucceed_of_waitsForFailed
    {config : JobClientConfig κ Buffer V} {client : JobClient κ Buffer V}
    {index place : ℕ} (waits : WaitsForFailed client index place) :
    ¬ CanSucceed config client index := by
  intro ⟨schedule, final, healthy, execution, call, present, resolved⟩
  have condition :
      (machine config).Throughout (fun _ event => isHealthy event = true) client
        schedule :=
    (Machine.throughout_events_iff execution).mpr healthy
  obtain ⟨_, waiting, itsCall, itsPhase⟩ :=
    Machine.run_invariant_under (waitsForFailed_preserved config index place)
      waits condition execution
  cases present.symm.trans itsCall
  rw [resolved] at itsPhase
  rcases itsPhase with preparing | rejected
  · cases preparing
  · cases rejected

/-- The events that complete a run in this phase. -/
def completion : InitializePhase → List InitializeEvent
  | .scheduled =>
      [.started, .commandSettled .fulfilled, .commandSettled .fulfilled,
        .commandSettled .fulfilled]
  | .assertingExchange =>
      [.commandSettled .fulfilled, .commandSettled .fulfilled,
        .commandSettled .fulfilled]
  | .assertingQueue => [.commandSettled .fulfilled, .commandSettled .fulfilled]
  | .bindingQueue => [.commandSettled .fulfilled]
  | _ => []

theorem healthy_of_mem_completion
    {phase : InitializePhase} {event : InitializeEvent}
    (member : event ∈ completion phase) (place : ℕ) :
    isHealthy (.initializerRun place 0 event : JobClientEvent V) = true := by
  have either : event = .started ∨ event = .commandSettled .fulfilled := by
    cases phase <;> simp [completion] at member <;> simp [member]
  rcases either with started | fulfilled
  · subst started
    rfl
  · subst fulfilled
    rfl

/-- A phase followed along events of the current run. -/
def follow : InitializePhase → List InitializeEvent → Option InitializePhase
  | phase, [] => some phase
  | phase, event :: rest => (phase.next true event).bind (follow · rest)

theorem follow_completion
    {phase : InitializePhase} (unfailed : phase ≠ .failed)
    (notSuperseded : phase ≠ .superseded) :
    follow phase (completion phase) = some .completed := by
  cases phase with
  | failed => exact absurd rfl unfailed
  | superseded => exact absurd rfl notSuperseded
  | _ => rfl

/-- The only run of an initializer moves on, and nothing else does. -/
theorem run_follow
    (config : JobClientConfig κ Buffer V) {queue : String} {place : ℕ}
    {events : List InitializeEvent} {phase final : InitializePhase}
    {client : JobClient κ Buffer V} {initializer : JobQueueInitializer}
    (present : client.initializers[place]? = some initializer)
    (oneRun : OneRun initializer queue phase)
    (followed : follow phase events = some final) :
    ∃ next itself,
      (machine config).run client
          (events.map fun event => .initializerRun place 0 event) = some next ∧
        next.initializers[place]? = some itself ∧
        itself.runs[0]? = some final ∧ next.calls = client.calls ∧
        next.isDisposed = client.isDisposed := by
  induction events generalizing phase client initializer with
  | nil =>
      cases followed
      exact ⟨client, initializer, rfl, present, by rw [oneRun.runs]; rfl, rfl, rfl⟩
  | cons event rest inductionHypothesis =>
      obtain ⟨following, moved, remaining⟩ := Option.bind_eq_some_iff.mp followed
      have itsRun : initializer.runs[0]? = some phase := by
        rw [oneRun.runs]
        rfl
      generalize advanced :
          { initializer with
            runs := initializer.runs.set 0 following } = later
      have isCurrent : (initializer.initializePromise == some 0) = true := by
        rw [oneRun.current]
        exact beq_self_eq_true (some 0)
      have taken : initializer.step 0 event = some later := by
        unfold JobQueueInitializer.step
        simp only [itsRun, isCurrent, moved, advanced]
      generalize changed :
          { client with
            initializers := client.initializers.set place later } = middle
      have stepped : client.stepInitializer place 0 event = some middle := by
        unfold stepInitializer
        simp only [present, taken, changed]
      have placed : middle.initializers[place]? = some later := by
        have inside : place < client.initializers.length :=
          (List.getElem?_eq_some_iff.mp present).1
        rw [← changed]
        exact List.getElem?_set_self inside
      obtain ⟨_, _, itsPhase, itsOneRun⟩ := oneRun.step taken
      cases moved.symm.trans itsPhase
      obtain ⟨next, itself, execution, found, itsFinal, calls, disposed⟩ :=
        inductionHypothesis placed itsOneRun remaining
      subst changed
      exact ⟨next, itself, Machine.run_cons_iff.mpr ⟨_, stepped, execution⟩,
        found, itsFinal, calls, disposed⟩

/-- A call whose initialization has not failed can succeed. -/
theorem canSucceed_of_unfailed
    {config : JobClientConfig κ Buffer V} {client : JobClient κ Buffer V}
    {queue : String} {options : PerformOptions V} {index place : ℕ}
    {initializer : JobQueueInitializer} {phase : InitializePhase}
    (present : client.initializers[place]? = some initializer)
    (oneRun : OneRun initializer queue phase)
    (waiting :
      client.calls[index]? = some ⟨queue, options, .preparing place 0⟩)
    (live : client.isDisposed = false)
    (serializable :
      (config.serialize (messageContent config options)).isSome = true)
    (unfailed : phase ≠ .failed) :
    CanSucceed config client index := by
  obtain ⟨ready, itself, execution, found, completed, calls, disposed⟩ :=
    run_follow config present oneRun
      (follow_completion unfailed oneRun.notSuperseded)
  obtain ⟨content, serialized⟩ := Option.isSome_iff_exists.mp serializable
  have itsCall :
      ready.calls[index]? = some ⟨queue, options, .preparing place 0⟩ := by
    rw [calls]
    exact waiting
  have inside : index < ready.calls.length :=
    (List.getElem?_eq_some_iff.mp itsCall).1
  have notDisposed : ready.isDisposed = false := disposed.trans live
  generalize published :
      ready.publish config index ⟨queue, options, .preparing place 0⟩ = publishing
  have prepared :
      ready.settlePreparation config index = some publishing := by
    unfold settlePreparation
    simp [itsCall, found, completed, InitializePhase.isResolved, published]
  have itsPublishing :
      publishing.calls[index]? = some ⟨queue, options, .publishing⟩ := by
    rw [← published]
    simp only [publish, notDisposed, Bool.false_eq_true, if_false, serialized]
    exact List.getElem?_set_self inside
  have settled :
      publishing.settlePublish index .fulfilled =
        some
          (publishing.setPhase index ⟨queue, options, .publishing⟩ .resolved) := by
    unfold settlePublish
    simp only [itsPublishing]
  have insidePublishing : index < publishing.calls.length :=
    (List.getElem?_eq_some_iff.mp itsPublishing).1
  refine ⟨(completion phase).map (fun event => .initializerRun place 0 event) ++
      [.prepared index, .publishSettled index .fulfilled],
    publishing.setPhase index ⟨queue, options, .publishing⟩ .resolved, ?_, ?_,
    ⟨queue, options, .resolved⟩, List.getElem?_set_self insidePublishing, rfl⟩
  · intro event member
    rcases List.mem_append.mp member with preparing | last
    · obtain ⟨itsEvent, listed, same⟩ := List.mem_map.mp preparing
      subst same
      exact healthy_of_mem_completion listed place
    · rcases List.mem_pair.mp last with same | same
      · subst same
        rfl
      · subst same
        rfl
  · rw [Machine.run_append, execution, Option.bind_some]
    refine Machine.run_cons_iff.mpr ⟨publishing, prepared, ?_⟩
    exact Machine.run_cons_iff.mpr ⟨_, settled, rfl⟩

theorem canSucceed_iff
    {config : JobClientConfig κ Buffer V} {client : JobClient κ Buffer V}
    {rejected : List String} (tracks : Tracks (client, rejected))
    {queue : String} {options : PerformOptions V}
    (accepts : client.Accepts config queue options) :
    CanSucceed config (client.performInBackground config queue options)
        client.calls.length ↔
      queue ∉ rejected := by
  obtain ⟨place, initializer, phase, present, oneRun, failed, calls, disposed, _⟩ :=
    performInBackground_accepted tracks accepts.1
  have waiting :
      (client.performInBackground config queue
          options).calls[client.calls.length]? =
        some ⟨queue, options, .preparing place 0⟩ := by
    rw [calls]
    exact List.getElem?_concat_length
  rw [← failed]
  constructor
  · intro canSucceed isFailed
    subst isFailed
    have itsRun : initializer.runs[0]? = some .failed := by
      rw [oneRun.runs]
      rfl
    have waits :
        WaitsForFailed (client.performInBackground config queue options)
          client.calls.length place :=
      ⟨⟨initializer, present, itsRun⟩, _, waiting, Or.inl rfl⟩
    exact not_canSucceed_of_waitsForFailed waits canSucceed
  · intro unfailed
    have live : client.isDisposed = false := by
      rw [← Bool.not_eq_true]
      intro isDisposed
      have refusal := accepts.1
      simp [JobClient.refusal, isDisposed] at refusal
    exact canSucceed_of_unfailed present oneRun waiting (disposed.trans live)
      accepts.2 unfailed

/-- Every accepted call can succeed exactly when none is made after a rejection. -/
theorem callsCanSucceed_throughout_iff
    {config : JobClientConfig κ Buffer V} {schedule : List (JobClientEvent V)}
    {state : JobClient κ Buffer V × List String}
    (execution :
      (watchedMachine config).run (watchedMachine config).initial schedule =
        some state) :
    (watchedMachine config).Throughout (CallsCanSucceed config)
        (watchedMachine config).initial schedule ↔
      (watchedMachine config).Throughout (NotAfterRejection config)
        (watchedMachine config).initial schedule := by
  have initially : Tracks (watchedMachine config).initial :=
    ⟨nofun, fun _ _ => List.not_mem_nil⟩
  refine Machine.throughout_congr _ _ (tracks_preserved config) ?_ initially
    execution
  intro ⟨client, rejected⟩ event next tracks stepped
  cases event with
  | performInBackground queue options =>
      constructor
      · intro canSucceed accepts
        exact (canSucceed_iff tracks accepts).mp (canSucceed accepts)
      · intro notAfter accepts
        exact (canSucceed_iff tracks accepts).mpr (notAfter accepts)
  | _ => exact Iff.rfl

end JobClient

/-- The initializer answers every call as it should, and every accepted call of a
client can succeed, exactly when no call comes after a rejection without a reset,
or a reconnect, in between. -/
theorem initialization_sticks_iff
    (exchange queue : String)
    (schedule : List JobQueueInitializerEvent) (initializer : JobQueueInitializer)
    (execution :
      (JobQueueInitializer.machine exchange queue).run
          (JobQueueInitializer.create exchange queue) schedule =
        some initializer)
    {κ Buffer V : Type} (config : JobClientConfig κ Buffer V)
    (clientSchedule : List (JobClientEvent V)) (client : JobClient κ Buffer V)
    (clientExecution :
      (JobClient.machine config).run JobClient.create clientSchedule =
        some client) :
    ((JobQueueInitializer.watchedMachine exchange queue).Throughout
          JobQueueInitializer.AnswersCalls
          (JobQueueInitializer.watchedMachine exchange queue).initial schedule ↔
        (JobQueueInitializer.watchedMachine exchange queue).Throughout
          JobQueueInitializer.NotAfterRejection
          (JobQueueInitializer.watchedMachine exchange queue).initial
          schedule) ∧
      ((JobClient.watchedMachine config).Throughout
          (JobClient.CallsCanSucceed config)
          (JobClient.watchedMachine config).initial clientSchedule ↔
        (JobClient.watchedMachine config).Throughout
          (JobClient.NotAfterRejection config)
          (JobClient.watchedMachine config).initial clientSchedule) := by
  obtain ⟨rejected, watched⟩ :=
    Machine.exists_run_watched JobQueueInitializer.rejectedSince false execution
      false
  obtain ⟨rejectedQueues, clientWatched⟩ :=
    Machine.exists_run_watched JobClient.rejectedQueues [] clientExecution []
  exact ⟨JobQueueInitializer.answersCalls_throughout_iff watched,
    JobClient.callsCanSucceed_throughout_iff clientWatched⟩

/-- The queue cannot be asserted. -/
def rejectedAssertion : List JobQueueInitializerEvent :=
  [.initializeQueue, .run 0 .started, .run 0 (.commandSettled .fulfilled),
    .run 0 (.commandSettled .rejected)]

/-- Then `initialize` is called again. -/
def calledAfterRejection : List JobQueueInitializerEvent :=
  rejectedAssertion ++ [.initializeQueue]

theorem initialization_sticks_iff_prepared :
    ((JobQueueInitializer.watchedMachine "jobs" "mail").Throughout
          JobQueueInitializer.AnswersCalls
          (JobQueueInitializer.watchedMachine "jobs" "mail").initial
          calledAfterRejection ↔
        (JobQueueInitializer.watchedMachine "jobs" "mail").Throughout
          JobQueueInitializer.NotAfterRejection
          (JobQueueInitializer.watchedMachine "jobs" "mail").initial
          calledAfterRejection) ∧
      ((JobClient.watchedMachine JobClient.integerConfig).Throughout
          (JobClient.CallsCanSucceed JobClient.integerConfig)
          (JobClient.watchedMachine JobClient.integerConfig).initial
          JobClient.preparedCall ↔
        (JobClient.watchedMachine JobClient.integerConfig).Throughout
          (JobClient.NotAfterRejection JobClient.integerConfig)
          (JobClient.watchedMachine JobClient.integerConfig).initial
          JobClient.preparedCall) :=
  initialization_sticks_iff "jobs" "mail" calledAfterRejection _ rfl
    JobClient.integerConfig JobClient.preparedCall _ rfl

/-- The second call of `initialize` gets the promise of the run that was
rejected. -/
theorem calledAfterRejection_rejected :
    ¬ ∀ (exchange queue : String) (schedule : List JobQueueInitializerEvent)
        (initializer : JobQueueInitializer),
        (JobQueueInitializer.machine exchange queue).run
            (JobQueueInitializer.create exchange queue) schedule =
          some initializer →
          (JobQueueInitializer.watchedMachine exchange queue).Throughout
            JobQueueInitializer.AnswersCalls
            (JobQueueInitializer.watchedMachine exchange queue).initial
            schedule := by
  intro always
  have condition := always "jobs" "mail" calledAfterRejection _ rfl
  have answers := Machine.throughout_last condition rfl
  cases congrArg Prod.snd answers

end Amq.Jobs
