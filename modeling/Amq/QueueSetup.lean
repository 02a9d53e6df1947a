import Amq.QueueServer

/-!
# A queue is set up before it is consumed

A run of an initializer that completes has carried out its three commands.  A run
that is superseded has not, but the sequence that waits for it goes on all the
same; and the handler of `channelRecreated` of a `JobServer` waits for no run.
-/

namespace Amq

open Amq.Transition
open Amq.Jobs
open Amq.Rpc

namespace QueueServer

/-- Each of the three commands has succeeded at least once. -/
def SetUp (history : List ServerObservation) : Prop :=
  .exchangeAsserted ∈ history ∧ .queueAsserted ∈ history ∧ .queueBound ∈ history

/-- Each `consumeQueue` was called after the queue had been set up. -/
def SetUpBeforeConsume : List ServerObservation → Prop
  | [] => True
  | .consumeQueue :: earlier => SetUp earlier ∧ SetUpBeforeConsume earlier
  | _ :: earlier => SetUpBeforeConsume earlier

/-- The event makes the consumer call `consumeQueue` without a run of the
initializer that has completed: after a superseded run, or because a listening
`JobServer` gets `channelRecreated`. -/
def overtakesSetup (server : QueueServer) : QueueServerEvent → Bool
  | .resumed index =>
      match server.sequences[index]? with
      | some (.initializing run) =>
          server.initializer.runs[run]? = some .superseded &&
            server.state ≠ .disposed
      | _ => false
  | .amqpChannelRecreated => server.startsConsume .amqpChannelRecreated
  | _ => false

/-- Nothing overtakes the first complete setup of the queue. -/
def WaitsForSetup (server : QueueServer) (event : QueueServerEvent) : Prop :=
  server.overtakesSetup event = true → SetUp server.history

instance (history : List ServerObservation) : Decidable (SetUp history) :=
  inferInstanceAs (Decidable (_ ∧ _ ∧ _))

instance (server : QueueServer) (event : QueueServerEvent) :
    Decidable (server.WaitsForSetup event) :=
  inferInstanceAs (Decidable (_ → _))

/-! ## What the runs of an initializer have shown -/

/-- The commands that a run in this phase has carried out. -/
def carriedOut : InitializePhase → List ServerObservation
  | .assertingQueue => [.exchangeAsserted]
  | .bindingQueue => [.exchangeAsserted, .queueAsserted]
  | .completed => [.exchangeAsserted, .queueAsserted, .queueBound]
  | _ => []

theorem carriedOut_next
    {isCurrent : Bool} {old new : InitializePhase} {event : InitializeEvent}
    (moved : old.next isCurrent event = some new) :
    carriedOut new ⊆ completion old event ++ carriedOut old := by
  unfold InitializePhase.next at moved
  split at moved
  · cases isCurrent <;> cases moved <;> decide
  · cases isCurrent <;> cases moved <;> decide
  · cases isCurrent <;> cases moved <;> decide
  · cases moved
    decide
  · cases moved
    decide
  · cases moved
    decide
  · cases moved
    decide
  · cases moved

/-- What the runs have carried out is in the history. -/
def Shown (server : QueueServer) : Prop :=
  ∀ phase ∈ server.initializer.runs, carriedOut phase ⊆ server.history

theorem shown_create (initializer : ServerInitializer)
    (unused : initializer.runs = []) :
    (create initializer).Shown := by
  intro phase member
  change phase ∈ initializer.runs at member
  rw [unused] at member
  cases member

theorem Shown.setUp
    {server : QueueServer} (shown : server.Shown)
    (completed : .completed ∈ server.initializer.runs) :
    SetUp server.history := by
  have all := shown .completed completed
  exact ⟨all (by decide), all (by decide), all (by decide)⟩

/-- Other runs are started but none moves on. -/
theorem Shown.transfer
    {server next : QueueServer} (shown : server.Shown)
    (runs :
      ∀ phase ∈ next.initializer.runs,
        phase ∈ server.initializer.runs ∨ phase = .scheduled)
    (history : server.history ⊆ next.history) :
    next.Shown := by
  intro phase member observation seen
  rcases runs phase member with earlier | started
  · exact history (shown phase earlier seen)
  · subst started
    cases seen

end QueueServer

namespace ServerInitializer

theorem mem_runs_initializeQueue
    (initializer : ServerInitializer) (phase : InitializePhase)
    (member : phase ∈ initializer.initializeQueue.1.runs) :
    phase ∈ initializer.runs ∨ phase = .scheduled := by
  cases initializer with
  | job initializer =>
      change phase ∈ initializer.initializeQueue.1.runs at member
      unfold JobQueueInitializer.initializeQueue at member
      split at member
      · exact Or.inl member
      · exact (List.mem_append.mp member).imp_right List.mem_singleton.mp
  | command initializer =>
      exact (List.mem_append.mp member).imp_right List.mem_singleton.mp

@[simp]
theorem runs_dispose (initializer : ServerInitializer) :
    initializer.dispose.runs = initializer.runs := by
  cases initializer with
  | job initializer => rfl
  | command initializer => rfl

@[simp]
theorem runs_setIsExclusive (initializer : ServerInitializer) (value : Bool) :
    (initializer.setIsExclusive value).runs = initializer.runs := by
  cases initializer with
  | job initializer => rfl
  | command initializer =>
      unfold setIsExclusive
      dsimp only
      split
      · rename_i next changed
        exact CommandQueueInitializer.setIsExclusive_runs changed
      · rfl

/-- One run has moved on, by the rules of its phase. -/
theorem step_cases
    {initializer next : ServerInitializer} {run : ℕ} {event : InitializeEvent}
    (stepped : initializer.step run event = some next) :
    ∃ old new isCurrent, initializer.runs[run]? = some old ∧
      old.next isCurrent event = some new ∧
      next.runs = initializer.runs.set run new := by
  cases initializer with
  | job initializer =>
      obtain ⟨following, moved, rfl⟩ := Option.map_eq_some_iff.mp stepped
      obtain ⟨old, new, present, taken, rfl⟩ :=
        JobQueueInitializer.step_cases moved
      exact ⟨old, new, _, present, taken, rfl⟩
  | command initializer =>
      obtain ⟨following, moved, rfl⟩ := Option.map_eq_some_iff.mp stepped
      obtain ⟨old, new, present, taken, rfl⟩ :=
        CommandQueueInitializer.step_cases moved
      exact ⟨old, new, _, present, taken, rfl⟩

end ServerInitializer

namespace QueueServer

/-! ## What a step shows -/

/-- What a step does to the runs and to the history. -/
inductive Shows (server : QueueServer) (event : QueueServerEvent)
    (next : QueueServer) : Prop
  | quiet
      (idle : server.startsConsume event = false)
      (runs :
        ∀ phase ∈ next.initializer.runs,
          phase ∈ server.initializer.runs ∨ phase = .scheduled)
      (history : next.history = server.history)
  | initializerStep (run : ℕ) (old new : InitializePhase) (isCurrent : Bool)
      (runEvent : InitializeEvent)
      (same : event = .initializerRun run runEvent)
      (present : server.initializer.runs[run]? = some old)
      (moved : old.next isCurrent runEvent = some new)
      (runs : next.initializer.runs = server.initializer.runs.set run new)
      (history : next.history = completion old runEvent ++ server.history)
  | consumes
      (starts : server.startsConsume event = true)
      (runs : next.initializer.runs = server.initializer.runs)
      (history : next.history = .consumeQueue :: server.history)

/-- A step that leaves initializer and history alone. -/
theorem Shows.of_same
    {server next : QueueServer} {event : QueueServerEvent}
    (idle : server.startsConsume event = false)
    (initializer : next.initializer = server.initializer)
    (history : next.history = server.history) :
    Shows server event next := by
  refine .quiet idle ?_ history
  rw [initializer]
  exact fun _ => Or.inl

theorem cancelConsumption_frame (server : QueueServer) :
    server.cancelConsumption.initializer = server.initializer ∧
      server.cancelConsumption.history = server.history := by
  unfold cancelConsumption
  split
  · exact ⟨rfl, rfl⟩
  · exact ⟨rfl, rfl⟩

theorem shows_handle
    (server : QueueServer) (event : QueueServerEvent)
    (handler : QueueServer → QueueServer)
    (idle : server.state ≠ .listening → server.startsConsume event = false)
    (shows : server.state = .listening → Shows server event (handler server)) :
    Shows server event (server.handle handler) := by
  unfold handle
  cases state : server.state with
  | listening => exact shows state
  | ready => exact .of_same (idle (state ▸ nofun)) rfl rfl
  | disposed => exact .of_same (idle (state ▸ nofun)) rfl rfl

theorem shows_listen (server : QueueServer) :
    Shows server .listen server.listen := by
  unfold listen
  split
  · exact .quiet rfl (ServerInitializer.mem_runs_initializeQueue _) rfl
  · exact .of_same rfl rfl rfl

theorem shows_dispose (server : QueueServer) :
    Shows server .dispose server.dispose := by
  unfold dispose
  split
  · obtain ⟨initializer, history⟩ :=
      cancelConsumption_frame
        { server with
          state := .disposed
          initializer := server.initializer.dispose }
    refine .quiet rfl ?_ history
    rw [initializer, ServerInitializer.runs_dispose]
    exact fun _ => Or.inl
  · exact .of_same rfl rfl rfl

theorem shows_reconnected (server : QueueServer) :
    Shows server .amqpReconnected (server.handle handleAmqpReconnected) := by
  refine shows_handle server _ _ (fun _ => rfl) fun _ => ?_
  unfold handleAmqpReconnected
  split
  · rename_i initializer same
    refine .quiet rfl ?_ rfl
    intro phase member
    have known :=
      ServerInitializer.mem_runs_initializeQueue (.job initializer.reset) phase
        member
    rw [same]
    exact known
  · exact .quiet rfl (ServerInitializer.mem_runs_initializeQueue _) rfl

theorem shows_channelRecreated (server : QueueServer) :
    Shows server .amqpChannelRecreated
      (server.handle handleAmqpChannelRecreated) := by
  refine shows_handle server _ _ ?_ fun listening => ?_
  · intro elsewhere
    simp only [startsConsume, elsewhere, decide_false, Bool.false_and]
  · unfold handleAmqpChannelRecreated
    split
    · rename_i initializer same
      refine .consumes ?_ rfl rfl
      simp only [startsConsume, listening, same, decide_true, Bool.and_self]
    · rename_i initializer same
      refine .quiet ?_ (ServerInitializer.mem_runs_initializeQueue _) rfl
      simp only [startsConsume, same, Bool.and_false]

theorem shows_initializerRun
    {server next : QueueServer} {run : ℕ} {event : InitializeEvent}
    (stepped : server.stepInitializer run event = some next) :
    Shows server (.initializerRun run event) next := by
  unfold stepInitializer at stepped
  split at stepped
  · rename_i phase initializer present moved
    cases stepped
    obtain ⟨old, new, isCurrent, found, taken, runs⟩ :=
      ServerInitializer.step_cases moved
    have same : phase = old := Option.some.inj (present.symm.trans found)
    subst same
    exact .initializerStep run phase new isCurrent event rfl present taken runs rfl
  · cases stepped

theorem shows_resume
    {server next : QueueServer} {index : ℕ}
    (stepped : server.resume index = some next) :
    Shows server (.resumed index) next := by
  unfold resume at stepped
  split at stepped
  · rename_i run awaits
    split at stepped
    · cases stepped
    · rename_i phase found
      split at stepped
      · rename_i resolved
        split at stepped
        · rename_i disposed
          cases stepped
          refine .of_same ?_ rfl rfl
          simp [startsConsume, awaits, disposed]
        · rename_i active
          cases stepped
          refine .consumes ?_ rfl rfl
          simp [startsConsume, awaits, found, resolved, active]
      · rename_i pending
        split at stepped
        · cases stepped
          refine .of_same ?_ rfl rfl
          simp [startsConsume, awaits, found, pending]
        · cases stepped
  · cases stepped

theorem shows_issue
    {server next : QueueServer} {index : ℕ}
    (stepped : server.issue index = some next) :
    Shows server (.consumeIssued index) next := by
  unfold issue at stepped
  split at stepped
  · split at stepped
    · cases stepped
      exact .of_same rfl rfl rfl
    · cases stepped
      exact .of_same rfl rfl rfl
    · cases stepped
  · cases stepped

theorem shows_carryOut
    {server next : QueueServer} {index : ℕ}
    (stepped : server.carryOut index = some next) :
    Shows server (.consumeCarriedOut index) next := by
  unfold carryOut at stepped
  split at stepped
  · cases stepped
    exact .of_same rfl rfl rfl
  · cases stepped
    exact .of_same rfl rfl rfl
  · cases stepped

theorem shows_settleConsume
    {server next : QueueServer} {index : ℕ} {settlement : Settlement}
    (stepped : server.settleConsume index settlement = some next) :
    Shows server (.consumeSettled index settlement) next := by
  unfold settleConsume at stepped
  split at stepped
  · dsimp only at stepped
    split at stepped
    · cases stepped
      exact .of_same rfl (cancelConsumption_frame _).1 (cancelConsumption_frame _).2
    · cases stepped
      exact .of_same rfl rfl rfl
  · cases stepped
    exact .of_same rfl rfl rfl
  · cases stepped

theorem shows_of_step
    {server next : QueueServer} {event : QueueServerEvent}
    (stepped : server.step event = some next) :
    Shows server event next := by
  cases event with
  | listen =>
      cases stepped
      exact shows_listen server
  | dispose =>
      cases stepped
      exact shows_dispose server
  | setIsExclusive value =>
      cases stepped
      refine .quiet rfl ?_ rfl
      dsimp only
      rw [ServerInitializer.runs_setIsExclusive]
      exact fun _ => Or.inl
  | amqpReconnected =>
      cases stepped
      exact shows_reconnected server
  | amqpChannelRecreated =>
      cases stepped
      exact shows_channelRecreated server
  | initializerRun run event => exact shows_initializerRun stepped
  | resumed index => exact shows_resume stepped
  | consumeIssued index => exact shows_issue stepped
  | consumeCarriedOut index => exact shows_carryOut stepped
  | consumeSettled index settlement => exact shows_settleConsume stepped
  | cancelSettled consumerTag settlement =>
      change server.settleCancel consumerTag settlement = some next at stepped
      unfold settleCancel at stepped
      split at stepped
      · cases stepped
        exact .of_same rfl rfl rfl
      · cases stepped
  | channelLost =>
      cases stepped
      exact .of_same rfl rfl rfl
  | channelCreated =>
      cases stepped
      exact .of_same rfl rfl rfl
  | consumerCancelled consumerTag =>
      cases stepped
      exact .of_same rfl rfl rfl

/-! ## Runs -/

theorem shown_preserved (initial : QueueServer) :
    (machine initial).Preserved Shown := by
  intro server event next shown stepped
  cases shows_of_step stepped with
  | quiet idle runs history =>
      exact shown.transfer runs (history ▸ fun _ => id)
  | initializerStep run old new isCurrent runEvent same present moved runs history =>
      intro phase member observation seen
      rw [runs] at member
      rw [history]
      rcases List.mem_or_eq_of_mem_set member with earlier | reached
      · exact List.mem_append_right _ (shown phase earlier seen)
      · subst reached
        have reached := carriedOut_next moved seen
        rcases List.mem_append.mp reached with now | before
        · exact List.mem_append_left _ now
        · exact List.mem_append_right _
            (shown old (List.mem_of_getElem? present) before)
  | consumes starts runs history =>
      refine shown.transfer ?_ ?_
      · rw [runs]
        exact fun _ => Or.inl
      · rw [history]
        exact List.subset_cons_self _ _

theorem setUpBeforeConsume_append
    (added earlier : List ServerObservation)
    (sound : SetUpBeforeConsume (added ++ earlier)) :
    SetUpBeforeConsume earlier := by
  induction added with
  | nil => exact sound
  | cons observation rest inductionHypothesis =>
      cases observation with
      | consumeQueue => exact inductionHypothesis sound.2
      | exchangeAsserted => exact inductionHypothesis sound
      | queueAsserted => exact inductionHypothesis sound
      | queueBound => exact inductionHypothesis sound

/-- The commands of an initialization can be added at any time. -/
theorem setUpBeforeConsume_completion
    {phase : InitializePhase} {event : InitializeEvent}
    {history : List ServerObservation} (sound : SetUpBeforeConsume history) :
    SetUpBeforeConsume (completion phase event ++ history) := by
  unfold completion
  split
  · exact sound
  · exact sound
  · exact sound
  · exact sound

/-- What overtakes the setup calls `consumeQueue`. -/
theorem startsConsume_of_overtakes
    {server : QueueServer} {event : QueueServerEvent}
    (overtakes : server.overtakesSetup event = true) :
    server.startsConsume event = true := by
  cases event with
  | amqpChannelRecreated => exact overtakes
  | resumed index =>
      unfold overtakesSetup at overtakes
      dsimp only at overtakes
      split at overtakes
      · rename_i run awaits
        simp only [Bool.and_eq_true, decide_eq_true_eq] at overtakes
        simp [startsConsume, awaits, overtakes, InitializePhase.isResolved]
      · cases overtakes
  | _ => cases overtakes

/-- A sequence that calls `consumeQueue` and overtakes nothing has waited for a
run that has completed. -/
theorem Shown.setUp_of_starts
    {server : QueueServer} {event : QueueServerEvent} (shown : server.Shown)
    (starts : server.startsConsume event = true)
    (orderly : server.overtakesSetup event = false) :
    SetUp server.history := by
  cases event with
  | amqpChannelRecreated => cases starts.symm.trans orderly
  | resumed index =>
      unfold startsConsume at starts
      dsimp only at starts
      split at starts
      · rename_i run awaits
        simp only [Bool.and_eq_true, decide_eq_true_eq] at starts
        obtain ⟨resolved, active⟩ := starts
        obtain ⟨phase, found, reached⟩ := (Option.any_eq_true _ _).mp resolved
        cases phase with
        | completed => exact shown.setUp (List.mem_of_getElem? found)
        | superseded => simp [overtakesSetup, awaits, found, active] at orderly
        | _ => cases reached
      · cases starts
  | _ => cases starts

/-- When `consumeQueue` is called, the condition decides whether the queue has
been set up. -/
theorem setUp_iff_waits
    {server : QueueServer} {event : QueueServerEvent} (shown : server.Shown)
    (starts : server.startsConsume event = true) :
    SetUp server.history ↔ server.WaitsForSetup event := by
  constructor
  · exact fun setUp _ => setUp
  · intro waits
    cases overtakes : server.overtakesSetup event with
    | true => exact waits overtakes
    | false => exact shown.setUp_of_starts starts overtakes

/-- A step that does not call `consumeQueue` meets the condition. -/
theorem waits_of_idle
    {server : QueueServer} {event : QueueServerEvent}
    (idle : server.startsConsume event = false) :
    server.WaitsForSetup event := by
  intro overtakes
  have starts := startsConsume_of_overtakes overtakes
  rw [idle] at starts
  cases starts

theorem setUpBeforeConsume_step
    {server next : QueueServer} {event : QueueServerEvent}
    (shown : server.Shown) (sound : SetUpBeforeConsume server.history)
    (stepped : server.step event = some next) :
    SetUpBeforeConsume next.history ↔ server.WaitsForSetup event := by
  cases shows_of_step stepped with
  | quiet idle _ history =>
      rw [history]
      exact iff_of_true sound (waits_of_idle idle)
  | initializerStep _ old _ _ runEvent same _ _ _ history =>
      subst same
      rw [history]
      exact iff_of_true (setUpBeforeConsume_completion sound) (waits_of_idle rfl)
  | consumes starts _ history =>
      rw [history]
      have decided :
          SetUpBeforeConsume (.consumeQueue :: server.history) ↔
            SetUp server.history :=
        and_iff_left sound
      rw [decided]
      exact setUp_iff_waits shown starts

theorem history_suffix
    {server next : QueueServer} {event : QueueServerEvent}
    (stepped : server.step event = some next) :
    ∃ added, next.history = added ++ server.history := by
  cases shows_of_step stepped with
  | quiet _ _ history => exact ⟨[], history⟩
  | initializerStep _ _ _ _ _ _ _ _ _ history => exact ⟨_, history⟩
  | consumes _ _ history => exact ⟨[_], history⟩

theorem setUpBeforeConsume_run
    {initializer : ServerInitializer} (unused : initializer.runs = [])
    {schedule : List QueueServerEvent} {final : QueueServer}
    (execution :
      (machine (create initializer)).run (create initializer) schedule =
        some final) :
    SetUpBeforeConsume final.history ↔
      (machine (create initializer)).Throughout WaitsForSetup
        (create initializer) schedule := by
  refine Machine.sound_iff_throughout
    (fun server : QueueServer => SetUpBeforeConsume server.history) WaitsForSetup
    (shown_preserved (create initializer)) ?_ ?_
    (shown_create initializer unused) trivial execution
  · intro server event next _ stepped sound
    obtain ⟨added, same⟩ := history_suffix stepped
    change SetUpBeforeConsume next.history at sound
    rw [same] at sound
    exact setUpBeforeConsume_append added server.history sound
  · intro server event next shown sound stepped
    exact setUpBeforeConsume_step shown sound stepped

/-- A `JobServer` and a `CommandReceiver` consume their queues only after they
have been set up, exactly in the runs in which no sequence goes on after a
superseded initialization, and no job server gets `channelRecreated`, before
that. -/
theorem setUpBeforeConsume_iff (exchange queue : String)
    (schedule : List QueueServerEvent) :
    (∀ final,
        (machine (jobServer exchange queue)).run (jobServer exchange queue)
            schedule = some final →
          (SetUpBeforeConsume final.history ↔
            (machine (jobServer exchange queue)).Throughout WaitsForSetup
              (jobServer exchange queue) schedule)) ∧
      ∀ final,
        (machine (commandReceiver exchange queue)).run
            (commandReceiver exchange queue) schedule = some final →
          (SetUpBeforeConsume final.history ↔
            (machine (commandReceiver exchange queue)).Throughout WaitsForSetup
              (commandReceiver exchange queue) schedule) := by
  constructor
  · intro final execution
    exact setUpBeforeConsume_run rfl execution
  · intro final execution
    exact setUpBeforeConsume_run rfl execution

/-- The channel is replaced before the server listens, the three commands succeed,
and `reconnected` comes after that. -/
def setUpInTime : List QueueServerEvent :=
  [.channelCreated, .channelLost, .channelCreated, .amqpChannelRecreated, .listen,
    .initializerRun 0 .started, .initializerRun 0 (.commandSettled .fulfilled),
    .initializerRun 0 (.commandSettled .fulfilled),
    .initializerRun 0 (.commandSettled .fulfilled), .resumed 0, .amqpReconnected,
    .dispose, .initializerRun 1 .started, .resumed 1]

theorem setUpBeforeConsume_iff_inTime :
    (∃ final,
      (machine (jobServer "jobs" "queue")).run (jobServer "jobs" "queue")
          setUpInTime = some final ∧
        SetUpBeforeConsume final.history) ∧
      ∃ final,
        (machine (commandReceiver "commands" "queue")).run
            (commandReceiver "commands" "queue") setUpInTime = some final ∧
          SetUpBeforeConsume final.history := by
  constructor
  · refine ⟨_, rfl, ((setUpBeforeConsume_iff "jobs" "queue" setUpInTime).1 _
      rfl).mpr ?_⟩
    decide
  · refine ⟨_, rfl, ((setUpBeforeConsume_iff "commands" "queue" setUpInTime).2 _
      rfl).mpr ?_⟩
    decide

/-- A `reconnected` supersedes the initialization of `listen` before that has
asserted anything, and `listen` consumes all the same. -/
theorem superseded_consumes :
    (¬ ∀ (exchange queue : String) (schedule : List QueueServerEvent)
        (final : QueueServer),
        (machine (jobServer exchange queue)).run (jobServer exchange queue)
            schedule = some final →
          SetUpBeforeConsume final.history) ∧
      ¬ ∀ (exchange queue : String) (schedule : List QueueServerEvent)
          (final : QueueServer),
          (machine (commandReceiver exchange queue)).run
              (commandReceiver exchange queue) schedule = some final →
            SetUpBeforeConsume final.history := by
  constructor
  · intro always
    have sound :=
      always "jobs" "queue"
        [.listen, .amqpReconnected, .initializerRun 0 .started, .resumed 0] _ rfl
    exact absurd sound.1.1 (by decide)
  · intro always
    have sound :=
      always "commands" "queue"
        [.listen, .amqpReconnected, .initializerRun 0 .started, .resumed 0] _ rfl
    exact absurd sound.1.1 (by decide)

end QueueServer

end Amq
