import Amq.Core.ConnectionAttempts
import Amq.Transition.Monitor

/-!
# Cancelled initializations

`cancel` takes the promise of the current run away, which the run notices after
its next await.  Another run can start before that.  Every run clears the promise
in its `finally` callback, whether it is still its own or not.

A record beside the machine keeps, for each run, what concerns this run alone.
The initializer can be given these events by themselves, and then no other run
has ever existed.
-/

namespace Amq.Core

open Amq.Transition

inductive CancellableEvent where
  | initializer (event : AmqpConnectionInitializerEvent)
  | cancel

namespace AmqpConnectionInitializer

def cancel (initializer : AmqpConnectionInitializer) :
    AmqpConnectionInitializer :=
  { initializer with connectionPromise := none }

def stepCancellable
    (maxAttempts : JsNumber) (initializer : AmqpConnectionInitializer) :
    CancellableEvent → Option AmqpConnectionInitializer
  | .initializer event => initializer.step maxAttempts event
  | .cancel => some initializer.cancel

def cancellable (maxAttempts : JsNumber) (resources : AmqpResources) :
    Machine AmqpConnectionInitializer CancellableEvent where
  initial := create resources
  step := stepCancellable maxAttempts

end AmqpConnectionInitializer

/-! ## What concerns a run -/

def InitializerPhase.isSettled : InitializerPhase → Bool
  | .settled _ => true
  | _ => false

/-- The result that the body of a run has come to. -/
def InitializerPhase.result : InitializerPhase → Option InitializerResult
  | .returned result => some result
  | .settled result => some result
  | _ => none

/-- After these awaits a run asks whether its promise is current. -/
def InitializerEvent.isCheck : InitializerEvent → Bool
  | .started => true
  | .creationFailed => true
  | .resumed => true
  | .delayed => true
  | _ => false

structure RunRecord where
  /-- The events that concern the run, as those of the first run. -/
  own : List CancellableEvent
  /-- The run at the first `cancel` during it. -/
  cancelled : Option ObservedRun
  /-- How many steps it has taken since then. -/
  stepsSince : ℕ
  /-- Another run has cleared its promise. -/
  isCleared : Bool

namespace RunRecord

def start : RunRecord where
  own := [.initializer .initializeConnection]
  cancelled := none
  stepsSince := 0
  isCleared := false

/-- The run that `cancel` hits. -/
def unsettledRun (initializer : AmqpConnectionInitializer) (index : ℕ) :
    Option ObservedRun :=
  (initializer.runs[index]?).filter (!·.run.phase.isSettled)

/-- The record of a run after an event. -/
def advance
    (initializer : AmqpConnectionInitializer) (event : CancellableEvent)
    (index : ℕ) (record : RunRecord) : RunRecord :=
  match event with
  | .cancel =>
      { record with
        own := record.own ++ [.cancel]
        cancelled := record.cancelled.or (unsettledRun initializer index) }
  | .initializer .initializeConnection => record
  | .initializer (.run other event) =>
      if other = index then
        { record with
          own := record.own ++ [.initializer (.run 0 event)]
          stepsSince := record.stepsSince + record.cancelled.isSome.toNat }
      else if event = .finished ∧ initializer.connectionPromise = some index then
        { record with isCleared := true }
      else
        record
  | .initializer (.connectionChanged other connection resources) =>
      if other = index then
        { record with
          own :=
            record.own ++ [.initializer (.connectionChanged 0 connection resources)] }
      else
        record

/-- The record of a run that the event starts. -/
def started (initializer : AmqpConnectionInitializer) :
    CancellableEvent → List RunRecord
  | .initializer .initializeConnection =>
      if initializer.connectionPromise.isSome then [] else [start]
  | _ => []

def watch
    (records : List RunRecord) (initializer : AmqpConnectionInitializer)
    (event : CancellableEvent) : List RunRecord :=
  records.mapIdx (advance initializer event) ++ started initializer event

end RunRecord

/-- The initializer with the records of its runs. -/
def recordedInitializer (maxAttempts : JsNumber) (resources : AmqpResources) :
    Machine (AmqpConnectionInitializer × List RunRecord) CancellableEvent :=
  (AmqpConnectionInitializer.cancellable maxAttempts resources).watched
    RunRecord.watch []

/-! ## What a cancellation should do -/

def InitializerObservation.isConnectCalled : InitializerObservation → Bool
  | .connectCalled _ => true
  | _ => false

/-- A run that has been cancelled resolves with `null`, unless it had been rejected
before, and it calls `connect` no more. -/
structure StaysCancelled (before now : ObservedRun) : Prop where
  result :
    ∀ result, now.run.phase.result = some result →
      result = .cancelled ∨
        ∃ error, result = .rejected error ∧
          before.run.phase.result = some (.rejected error)
  connects :
    now.history.countP (·.isConnectCalled) =
      before.history.countP (·.isConnectCalled)

/-- Phases that differ in the number of the amqplib connection only. -/
def InitializerPhase.place : InitializerPhase → InitializerPhase
  | .creatingChannel attempt _ => .creatingChannel attempt 0
  | phase => phase

/-- Two runs that have done the same and are at the same place. -/
structure Alike (left right : ObservedRun) : Prop where
  history : left.history = right.history
  place : left.run.phase.place = right.run.phase.place
  disposed : left.run.connection.isDisposed = right.run.connection.isDisposed

/-- What should hold of a run of an initializer. -/
structure RunUndisturbed
    (maxAttempts : JsNumber) (resources : AmqpResources)
    (initializer : AmqpConnectionInitializer) (index : ℕ)
    (observed : ObservedRun) (record : RunRecord) : Prop where
  cancelled :
    ∀ before, record.cancelled = some before → StaysCancelled before observed
  /-- After a cancellation it is over in a few steps, and until it is over it can
  take one. -/
  ends : record.stepsSince ≤ 5
  goesOn :
    observed.run.phase.isSettled = false →
      ∃ event next, initializer.step maxAttempts (.run index event) = some next
  /-- It goes like it would if no other run had ever existed. -/
  alone :
    ∃ (alone : AmqpConnectionInitializer) (only : ObservedRun),
      (AmqpConnectionInitializer.cancellable maxAttempts resources).run
          (.create resources) record.own = some alone ∧
        alone.runs = [only] ∧ Alike only observed

def Undisturbed
    (maxAttempts : JsNumber) (resources : AmqpResources)
    (state : AmqpConnectionInitializer × List RunRecord) : Prop :=
  ∀ (index : ℕ) (observed : ObservedRun) (record : RunRecord),
    state.1.runs[index]? = some observed → state.2[index]? = some record →
      RunUndisturbed maxAttempts resources state.1 index observed record

/-- No run checks its promise after the `finally` callback of another run has
cleared it, unless it has been cancelled anyway, and no cancellation comes between
the end of a run that hands out its connection and its own callback. -/
def SparesSuccessors (state : AmqpConnectionInitializer × List RunRecord) :
    CancellableEvent → Prop
  | .cancel =>
      ∀ observed ∈ state.1.runs, observed.run.phase ≠ .returned .connection
  | .initializer (.run index event) =>
      event.isCheck = true →
        ∀ record, state.2[index]? = some record → record.isCleared = true →
          record.cancelled.isSome = true
  | _ => True

instance (state : AmqpConnectionInitializer × List RunRecord) :
    (event : CancellableEvent) → Decidable (SparesSuccessors state event)
  | .cancel =>
      inferInstanceAs
        (Decidable
          (∀ observed ∈ state.1.runs, observed.run.phase ≠ .returned .connection))
  | .initializer (.run index event) =>
      inferInstanceAs
        (Decidable
          (event.isCheck = true →
            ∀ record ∈ state.2[index]?, record.isCleared = true →
              record.cancelled.isSome = true))
  | .initializer .initializeConnection => .isTrue trivial
  | .initializer (.connectionChanged _ _ _) => .isTrue trivial

/-! ## One step of a run, current or not -/

namespace InitializerPhase

variable {maxAttempts : JsNumber} {left right : Bool}
  {phase phase' : InitializerPhase} {event : InitializerEvent}

/-- Only at a check does it matter whether the promise is current. -/
theorem Moves.congr
    (moves : Moves maxAttempts left phase event phase')
    (same : left = right ∨ event.isCheck = false) :
    Moves maxAttempts right phase event phase' := by
  rcases same with same | unchecked
  · exact same ▸ moves
  · cases moves with
    | unopened attempt => exact .unopened attempt
    | rolledBack attempt => exact .rolledBack attempt
    | channelDisposed attempt => exact .channelDisposed attempt
    | finished result => exact .finished result
    | began current => cases unchecked
    | uncreated current => cases unchecked
    | handedOut attempt current => cases unchecked
    | exceeded attempt current last => cases unchecked
    | postponed attempt current further => cases unchecked
    | retried attempt current => cases unchecked
    | cancelled _ _ superseded place =>
        rcases place with ⟨_, same⟩ | ⟨_, _, same⟩ | ⟨_, _, same⟩ | ⟨_, _, same⟩
        all_goals
          rw [same] at unchecked
          cases unchecked

/-- How many more steps a run can take that is not current. -/
def stepsLeft : InitializerPhase → ℕ
  | .scheduled => 2
  | .connecting _ => 5
  | .creatingChannel _ _ => 4
  | .disposingConnection _ => 3
  | .disposingChannel _ => 3
  | .connected _ => 2
  | .refused _ => 2
  | .delaying _ => 2
  | .returned _ => 1
  | .settled _ => 0

theorem stepsLeft_le (phase : InitializerPhase) : phase.stepsLeft ≤ 5 := by
  cases phase <;> simp [stepsLeft]

/-- The moves of a run that is not current any more. -/
theorem Moves.superseded
    (moves : Moves maxAttempts false phase event phase') :
    (event.isCheck = true → phase' = .returned .cancelled) ∧
      (event.isCheck = false → phase'.result = phase.result) ∧
        phase'.stepsLeft < phase.stepsLeft := by
  cases moves with
  | began current => cases current
  | uncreated current => cases current
  | handedOut attempt current => cases current
  | exceeded attempt current last => cases current
  | postponed attempt current further => cases current
  | retried attempt current => cases current
  | unopened attempt => exact ⟨nofun, fun _ => rfl, by simp [stepsLeft]⟩
  | rolledBack attempt => exact ⟨nofun, fun _ => rfl, by simp [stepsLeft]⟩
  | channelDisposed attempt => exact ⟨nofun, fun _ => rfl, by simp [stepsLeft]⟩
  | finished result => exact ⟨nofun, fun _ => rfl, by simp [stepsLeft]⟩
  | cancelled _ _ superseded place =>
      rcases place with ⟨same, check⟩ | ⟨_, same, check⟩ | ⟨_, same, check⟩ |
        ⟨_, same, check⟩
      all_goals
        subst same check
        exact ⟨fun _ => rfl, nofun, by simp [stepsLeft]⟩

theorem place_cases
    {phase phase' : InitializerPhase} (same : phase.place = phase'.place) :
    phase = phase' ∨
      ∃ attempt first second,
        phase = .creatingChannel attempt first ∧
          phase' = .creatingChannel attempt second := by
  cases phase with
  | creatingChannel attempt first =>
      cases phase' with
      | creatingChannel other second =>
          cases same
          exact Or.inr ⟨attempt, first, second, rfl, rfl⟩
      | _ => cases same
  | _ =>
      cases phase' with
      | creatingChannel _ _ => cases same
      | _ => exact Or.inl same

theorem creating_of_place
    {attempt first : ℕ} {phase : InitializerPhase}
    (same : (creatingChannel attempt first).place = phase.place) :
    ∃ second, phase = .creatingChannel attempt second := by
  rcases place_cases same with equal | ⟨_, _, second, itself, channel⟩
  · exact ⟨first, equal.symm⟩
  · cases itself
    exact ⟨second, channel⟩

@[simp]
theorem result_place (phase : InitializerPhase) :
    phase.place.result = phase.result := by
  cases phase <;> rfl

@[simp]
theorem isSettled_place (phase : InitializerPhase) :
    phase.place.isSettled = phase.isSettled := by
  cases phase <;> rfl

theorem isSettled_iff (phase : InitializerPhase) :
    phase.isSettled = true ↔ ∃ result, phase = .settled result := by
  cases phase <;> simp [isSettled]

theorem returned_of_result
    {phase : InitializerPhase} {result : InitializerResult}
    (unsettled : ¬ phase.isSettled = true) (come : phase.result = some result) :
    phase = .returned result := by
  cases phase with
  | returned other => rw [Option.some.inj come]
  | settled other => exact absurd rfl unsettled
  | _ => cases come

/-- A move neither starts at a channel that is being created nor ends at one. -/
theorem Moves.start_ne
    (moves : Moves maxAttempts left phase event phase')
    (attempt amqplibConnection : ℕ) :
    phase ≠ .creatingChannel attempt amqplibConnection := by
  intro same
  subst same
  cases moves with
  | cancelled _ _ superseded place =>
      rcases place with ⟨impossible, _⟩ | ⟨_, impossible, _⟩ |
        ⟨_, impossible, _⟩ | ⟨_, impossible, _⟩
      all_goals cases impossible

/-- A run whose promise is current is not cancelled at a check. -/
theorem Moves.result_of_current
    (moves : Moves maxAttempts true phase event phase')
    (check : event.isCheck = true) : phase'.result ≠ some .cancelled := by
  have nextAttempt (attempt : ℕ) :
      (nextAttempt maxAttempts attempt).result ≠ some .cancelled := by
    rcases nextAttempt_cases maxAttempts attempt with next | next
    all_goals
      rw [next]
      nofun
  cases moves with
  | began current => exact nextAttempt 1
  | retried attempt current => exact nextAttempt (attempt + 1)
  | handedOut attempt current => nofun
  | exceeded attempt current last => nofun
  | uncreated current => nofun
  | postponed attempt current further => nofun
  | unopened attempt => cases check
  | rolledBack attempt => cases check
  | channelDisposed attempt => cases check
  | finished result => cases check
  | cancelled _ _ superseded place => cases superseded

end InitializerPhase

namespace InitializerRun

variable {maxAttempts : JsNumber} {left right : Bool}
  {run other next : InitializerRun}
  {resources resources' : AmqpResources} {event : InitializerEvent}

theorem step_refused
    (attempt : ℕ) (connection : AmqpConnection) (resources : AmqpResources) :
    step maxAttempts true ⟨.refused attempt, connection⟩ resources .resumed =
      if .ofNat attempt = maxAttempts then
        some
          (⟨.returned (.rejected .attemptsExceeded), connection⟩, resources)
      else
        some (⟨.delaying attempt, connection⟩, resources) := rfl

theorem step_opened
    {attempt : ℕ} (connecting : run.phase = .connecting attempt)
    (resources : AmqpResources) :
    run.step maxAttempts left resources (.connectionSettled .fulfilled) =
      some
        (⟨.creatingChannel attempt resources.opened,
            (run.connection.connectionOpened resources).1⟩,
          (run.connection.connectionOpened resources).2) := by
  unfold step
  rw [connecting]

theorem step_created
    {attempt number : ℕ} (creating : run.phase = .creatingChannel attempt number)
    (active : run.connection.isDisposed = false) (resources : AmqpResources) :
    run.step maxAttempts left resources (.channelSettled .fulfilled) =
      some
        (⟨.connected attempt, (run.connection.channelCreated resources number).1⟩,
          (run.connection.channelCreated resources number).2) := by
  unfold step
  rw [creating, active]
  rfl

theorem step_createdDisposed
    {attempt number : ℕ} (creating : run.phase = .creatingChannel attempt number)
    (disposed : run.connection.isDisposed = true) (resources : AmqpResources) :
    run.step maxAttempts left resources (.channelSettled .fulfilled) =
      some
        (⟨.disposingChannel attempt,
            (run.connection.channelCreated resources number).1⟩,
          (run.connection.channelCreated resources number).2) := by
  unfold step
  rw [creating, disposed]
  rfl

theorem step_failed
    {attempt number : ℕ} (creating : run.phase = .creatingChannel attempt number)
    (resources : AmqpResources) :
    run.step maxAttempts left resources (.channelSettled .rejected) =
      some
        (⟨.disposingConnection attempt,
            (run.connection.channelFailed resources number).1⟩,
          (run.connection.channelFailed resources number).2) := by
  unfold step
  rw [creating]

theorem step_of_moves
    {phase : InitializerPhase} (resources : AmqpResources)
    (moves : InitializerPhase.Moves maxAttempts left run.phase event phase) :
    run.step maxAttempts left resources event =
      some (run.moveTo phase, resources) := by
  obtain ⟨before, connection⟩ := run
  dsimp only at moves
  cases moves with
  | began current =>
      subst current
      rfl
  | uncreated current =>
      subst current
      rfl
  | unopened attempt => rfl
  | rolledBack attempt => rfl
  | channelDisposed attempt => rfl
  | handedOut attempt current =>
      subst current
      rfl
  | exceeded attempt current last =>
      subst current
      exact (step_refused attempt connection resources).trans (if_pos last)
  | postponed attempt current further =>
      subst current
      exact (step_refused attempt connection resources).trans (if_neg further)
  | retried attempt current =>
      subst current
      rfl
  | finished result => rfl
  | cancelled _ _ superseded place =>
      subst superseded
      rcases place with ⟨same, check⟩ | ⟨_, same, check⟩ | ⟨_, same, check⟩ |
        ⟨_, same, check⟩
      all_goals
        subst same check
        rfl

/-- Only the place of a run and the state of its connection matter to what it does
next. -/
theorem step_alike
    (place : run.phase.place = other.phase.place)
    (disposed : run.connection.isDisposed = other.connection.isDisposed)
    (same : left = right ∨ event.isCheck = false)
    (stepped :
      run.step maxAttempts left resources event = some (next, resources'))
    (others : AmqpResources) :
    ∃ next' others',
      other.step maxAttempts right others event = some (next', others') ∧
        next.phase.place = next'.phase.place ∧
          next.connection.isDisposed = next'.connection.isDisposed := by
  cases steps_of_step stepped with
  | @moved _ phase moves =>
      rcases InitializerPhase.place_cases place with equal | channel
      · have further := moves.congr same
        rw [equal] at further
        exact ⟨_, _, step_of_moves others further, rfl, disposed⟩
      · obtain ⟨attempt, first, second, impossible, _⟩ := channel
        exact absurd impossible (moves.start_ne attempt first)
  | @opened attempt before =>
      rw [before] at place
      rcases InitializerPhase.place_cases place with equal | channel
      · exact ⟨_, _, step_opened equal.symm others, rfl, disposed⟩
      · obtain ⟨_, _, _, impossible, _⟩ := channel
        cases impossible
  | @created attempt amqplibConnection before active =>
      rw [before] at place
      obtain ⟨number, creating⟩ := InitializerPhase.creating_of_place place
      rw [disposed] at active
      refine ⟨_, _, step_created creating active others, rfl, ?_⟩
      rw [AmqpConnection.channelCreated_isDisposed,
        AmqpConnection.channelCreated_isDisposed]
      exact disposed
  | @createdDisposed attempt amqplibConnection before isDisposed =>
      rw [before] at place
      obtain ⟨number, creating⟩ := InitializerPhase.creating_of_place place
      rw [disposed] at isDisposed
      refine ⟨_, _, step_createdDisposed creating isDisposed others, rfl, ?_⟩
      rw [AmqpConnection.channelCreated_isDisposed,
        AmqpConnection.channelCreated_isDisposed]
      exact disposed
  | @failed attempt amqplibConnection before =>
      rw [before] at place
      obtain ⟨number, creating⟩ := InitializerPhase.creating_of_place place
      exact ⟨_, _, step_failed creating others, rfl, rfl⟩

theorem observed_alike
    (place : run.phase.place = other.phase.place)
    (disposed : run.connection.isDisposed = other.connection.isDisposed)
    (same : left = right ∨ event.isCheck = false) :
    run.observed maxAttempts left event =
      other.observed maxAttempts right event := by
  obtain ⟨phase, connection⟩ := run
  obtain ⟨phase', connection'⟩ := other
  dsimp only at place disposed
  unfold observed
  dsimp only
  rw [disposed]
  rcases InitializerPhase.place_cases place with equal | channel
  · subst equal
    rcases same with current | unchecked
    · rw [current]
    · cases event with
      | started => cases unchecked
      | creationFailed => cases unchecked
      | resumed => cases unchecked
      | delayed => cases unchecked
      | connectionSettled settlement =>
          cases settlement <;> cases phase <;> rfl
      | channelSettled settlement => cases settlement <;> cases phase <;> rfl
      | disposed => cases phase <;> rfl
      | finished => cases phase <;> rfl
  · obtain ⟨attempt, first, second, isFirst, isSecond⟩ := channel
    subst isFirst isSecond
    cases event with
    | channelSettled settlement => cases settlement <;> rfl
    | _ => rfl

/-- Without the current promise a run does not call `connect`. -/
theorem observed_connects_of_superseded :
    (run.observed maxAttempts false event).countP (·.isConnectCalled) = 0 := by
  unfold observed
  split <;> first | rfl | (split <;> rfl)

/-- What a step of a run that is not current does to its phase. -/
theorem superseded_step
    (stepped :
      run.step maxAttempts false resources event = some (next, resources')) :
    (event.isCheck = true → next.phase = .returned .cancelled) ∧
      (event.isCheck = false → next.phase.result = run.phase.result) ∧
        next.phase.stepsLeft < run.phase.stepsLeft := by
  cases steps_of_step stepped with
  | moved moves => exact moves.superseded
  | opened before =>
      rw [before]
      exact ⟨nofun, fun _ => rfl, by simp [InitializerPhase.stepsLeft]⟩
  | created before active =>
      rw [before]
      exact ⟨nofun, fun _ => rfl, by simp [InitializerPhase.stepsLeft]⟩
  | createdDisposed before disposed =>
      rw [before]
      exact ⟨nofun, fun _ => rfl, by simp [InitializerPhase.stepsLeft]⟩
  | failed before =>
      rw [before]
      exact ⟨nofun, fun _ => rfl, by simp [InitializerPhase.stepsLeft]⟩

theorem result_of_current
    (stepped :
      run.step maxAttempts true resources event = some (next, resources'))
    (check : event.isCheck = true) :
    next.phase.result ≠ some .cancelled := by
  cases steps_of_step stepped with
  | moved moves => exact moves.result_of_current check
  | opened before => cases check
  | created before active => cases check
  | createdDisposed before disposed => cases check
  | failed before => cases check

end InitializerRun

/-! ## Steps of the initializer -/

namespace AmqpConnectionInitializer

variable {maxAttempts : JsNumber} {initializer next : AmqpConnectionInitializer}

/-- A step of a run, by the run before it and after it. -/
theorem stepRun_iff
    {index : ℕ} {event : InitializerEvent} :
    initializer.stepRun maxAttempts index event = some next ↔
      ∃ run history run' resources,
        initializer.runs[index]? = some ⟨run, history⟩ ∧
          run.step maxAttempts (initializer.connectionPromise == some index)
              initializer.resources event = some (run', resources) ∧
            next =
              { initializer with
                runs :=
                  initializer.runs.set index
                    ⟨run',
                      run.observed maxAttempts
                          (initializer.connectionPromise == some index) event ++
                        history⟩
                resources := resources
                connectionPromise :=
                  if event = .finished then none
                  else initializer.connectionPromise } := by
  unfold stepRun
  constructor
  · intro stepped
    cases present : initializer.runs[index]? with
    | none =>
        rw [present] at stepped
        cases stepped
    | some observed =>
        obtain ⟨run, history⟩ := observed
        rw [present] at stepped
        dsimp only at stepped
        cases moved :
            run.step maxAttempts (initializer.connectionPromise == some index)
              initializer.resources event with
        | none =>
            rw [moved] at stepped
            cases stepped
        | some following =>
            obtain ⟨run', resources⟩ := following
            rw [moved] at stepped
            exact ⟨run, history, run', resources, rfl, moved,
              (Option.some.inj stepped).symm⟩
  · rintro ⟨run, history, run', resources, present, moved, itself⟩
    rw [present, itself]
    dsimp only
    rw [moved]

/-! ## The only run of an initializer -/

/-- The events of a schedule that has only one run, after its start. -/
def ConcernsFirst : CancellableEvent → Prop
  | .cancel => True
  | .initializer (.run index _) => index = 0
  | .initializer (.connectionChanged index _ _) => index = 0
  | .initializer .initializeConnection => False

/-- The only run is current until it is cancelled or over. -/
structure Lone
    (own : List CancellableEvent) (alone : AmqpConnectionInitializer)
    (only : ObservedRun) : Prop where
  runs : alone.runs = [only]
  current :
    alone.connectionPromise = some 0 ↔
      .cancel ∉ own ∧ only.run.phase.isSettled = false

theorem not_mem_concat_iff
    {own : List CancellableEvent} {event : AmqpConnectionInitializerEvent} :
    .cancel ∉ own ++ [.initializer event] ↔ .cancel ∉ own := by
  rw [List.mem_append, List.mem_singleton, not_or]
  exact and_iff_left nofun

/-- The phase of a run that has taken a step is settled after its last one. -/
theorem isSettled_of_step
    {isCurrent : Bool} {run run' : InitializerRun}
    {resources resources' : AmqpResources} {event : InitializerEvent}
    (moved :
      run.step maxAttempts isCurrent resources event = some (run', resources')) :
    run.phase.isSettled = false ∧
      (run'.phase.isSettled = true ↔ event = .finished) := by
  constructor
  · apply Bool.eq_false_iff.mpr
    intro settled
    obtain ⟨result, itself⟩ := run.phase.isSettled_iff.mp settled
    exact InitializerRun.unsettled_of_step moved result itself
  · rw [InitializerPhase.isSettled_iff]
    exact InitializerRun.settled_iff_finished moved

theorem Lone.step
    {own : List CancellableEvent} {only : ObservedRun} {event : CancellableEvent}
    (lone : Lone own initializer only) (concerns : ConcernsFirst event)
    (stepped : initializer.stepCancellable maxAttempts event = some next) :
    ∃ only', Lone (own ++ [event]) next only' := by
  cases event with
  | cancel =>
      cases stepped
      refine ⟨only, lone.runs, iff_of_false nofun ?_⟩
      intro active
      exact active.1 (List.mem_append_right own List.mem_cons_self)
  | initializer event =>
      cases event with
      | initializeConnection => exact False.elim concerns
      | run index event =>
          cases concerns
          obtain ⟨run, history, run', resources, present, moved, itself⟩ :=
            stepRun_iff.mp stepped
          rw [lone.runs] at present
          cases present
          obtain ⟨unsettled, settles⟩ := isSettled_of_step moved
          rw [itself]
          refine ⟨_, by rw [lone.runs]; rfl, ?_⟩
          rw [not_mem_concat_iff]
          have current := lone.current
          rw [and_iff_left unsettled] at current
          by_cases finished : event = .finished
          · rw [if_pos finished]
            refine iff_of_false nofun ?_
            intro active
            have settled := settles.mpr finished
            rw [active.2] at settled
            exact Bool.false_ne_true settled
          · rw [if_neg finished, current]
            have open_ : run'.phase.isSettled = false :=
              Bool.eq_false_iff.mpr fun settled => finished (settles.mp settled)
            exact (and_iff_left open_).symm
      | connectionChanged index connection resources =>
          cases concerns
          obtain ⟨observed, present, itself⟩ := Option.map_eq_some_iff.mp stepped
          rw [lone.runs] at present
          cases present
          subst itself
          refine ⟨_, by rw [lone.runs]; rfl, ?_⟩
          rw [not_mem_concat_iff]
          exact lone.current

end AmqpConnectionInitializer

/-! ## The records -/

namespace RunRecord

variable {initializer : AmqpConnectionInitializer} {event : CancellableEvent}
  {records : List RunRecord} {index : ℕ} {record' : RunRecord}

/-- A record is an earlier one that has been advanced, or that of a new run. -/
theorem watch_cases
    (present : (watch records initializer event)[index]? = some record') :
    (∃ record, records[index]? = some record ∧
        record' = advance initializer event index record) ∨
      (index = records.length ∧ record' = start ∧
        event = .initializer .initializeConnection ∧
          initializer.connectionPromise = none) := by
  have length : (records.mapIdx (advance initializer event)).length =
      records.length := List.length_mapIdx
  unfold watch at present
  by_cases inside : index < records.length
  · rw [List.getElem?_append_left (by omega), List.getElem?_mapIdx] at present
    obtain ⟨record, itself, advanced⟩ := Option.map_eq_some_iff.mp present
    exact Or.inl ⟨record, itself, advanced.symm⟩
  · rw [List.getElem?_append_right (by omega)] at present
    right
    unfold started at present
    split at present
    · split at present
      · cases present
      · rename_i unpromised
        have first := (List.getElem?_eq_some_iff.mp present).1
        rw [List.length_singleton] at first
        have last : index = records.length := by omega
        rw [length, last, Nat.sub_self] at present
        refine ⟨last, (Option.some.inj present).symm, rfl, ?_⟩
        exact Option.not_isSome_iff_eq_none.mp unpromised
    · cases present

theorem watch_length :
    (watch records initializer event).length =
      records.length + (started initializer event).length := by
  unfold watch
  rw [List.length_append, List.length_mapIdx]

theorem watch_getElem
    {record : RunRecord} (present : records[index]? = some record) :
    (watch records initializer event)[index]? =
      some (advance initializer event index record) := by
  have inside := (List.getElem?_eq_some_iff.mp present).1
  unfold watch
  rw [List.getElem?_append_left (by rw [List.length_mapIdx]; exact inside),
    List.getElem?_mapIdx, present]
  rfl

/-- What a record says of its run. -/
structure Tracks
    (promise : Option ℕ) (index : ℕ) (observed : ObservedRun)
    (record : RunRecord) : Prop where
  current :
    promise = some index ↔
      observed.run.phase.isSettled = false ∧ record.cancelled = none ∧
        record.isCleared = false
  hit :
    observed.run.phase.isSettled = false →
      (record.cancelled = none ↔ .cancel ∉ record.own)
  steps :
    record.cancelled ≠ none →
      record.stepsSince + observed.run.phase.stepsLeft ≤ 5
  fresh : record.cancelled = none → record.stepsSince = 0

variable {promise : Option ℕ} {observed : ObservedRun} {record : RunRecord}

theorem tracks_start (index : ℕ) (history : List InitializerObservation) :
    Tracks (some index) index ⟨.create, history⟩ start where
  current := iff_of_true rfl ⟨rfl, rfl, rfl⟩
  hit := by
    intro _
    refine iff_of_true rfl ?_
    intro member
    cases List.mem_singleton.mp member
  steps := fun impossible => absurd rfl impossible
  fresh := fun _ => rfl

/-- The promise of a run that was cancelled or that another one has cleared. -/
theorem Tracks.not_current
    (tracks : Tracks promise index observed record)
    (lost : record.cancelled ≠ none ∨ record.isCleared = true) :
    (promise == some index) = false := by
  apply beq_false_of_ne
  intro same
  obtain ⟨_, uncancelled, kept⟩ := tracks.current.mp same
  rcases lost with cancelled | isCleared
  · exact cancelled uncancelled
  · rw [kept] at isCleared
    cases isCleared

/-- A step of another run adds nothing to the schedule of this one. -/
theorem advance_run_of_ne
    {other : ℕ} {event : InitializerEvent} {record' : RunRecord}
    (different : other ≠ index)
    (advanced :
      record' = advance initializer (.initializer (.run other event)) index record) :
    record'.own = record.own ∧ record'.cancelled = record.cancelled := by
  rw [advanced]
  unfold advance
  dsimp only
  rw [if_neg different]
  split
  · exact ⟨rfl, rfl⟩
  · exact ⟨rfl, rfl⟩

theorem cancelled_advance_cancel
    (present : initializer.runs[index]? = some observed) :
    (advance initializer .cancel index record).cancelled =
      record.cancelled.or
        (if observed.run.phase.isSettled then none else some observed) := by
  change record.cancelled.or (unsettledRun initializer index) = _
  unfold unsettledRun
  rw [present]
  cases settled : observed.run.phase.isSettled with
  | true => simp [Option.filter, settled]
  | false => simp [Option.filter, settled]

theorem Tracks.cancel
    (tracks : Tracks promise index observed record)
    (present : initializer.runs[index]? = some observed) :
    Tracks none index observed (advance initializer .cancel index record) := by
  have cancelled :
      (advance initializer .cancel index record).cancelled = _ :=
    cancelled_advance_cancel present
  have hit (unsettled : observed.run.phase.isSettled = false) :
      (advance initializer .cancel index record).cancelled ≠ none := by
    rw [cancelled, unsettled]
    cases record.cancelled <;> nofun
  refine ⟨?_, ?_, ?_, ?_⟩
  · refine iff_of_false nofun ?_
    intro active
    exact hit active.1 active.2.1
  · intro unsettled
    refine iff_of_false (hit unsettled) ?_
    intro absent
    exact absent (List.mem_append_right record.own List.mem_cons_self)
  · intro _
    change record.stepsSince + observed.run.phase.stepsLeft ≤ 5
    by_cases earlier : record.cancelled = none
    · have bounded := observed.run.phase.stepsLeft_le
      have fresh := tracks.fresh earlier
      omega
    · exact tracks.steps earlier
  · intro none
    apply tracks.fresh
    rw [cancelled] at none
    exact (Option.or_eq_none_iff.mp none).1

/-- The run itself takes a step. -/
theorem Tracks.run_self
    {maxAttempts : JsNumber} {run run' : InitializerRun}
    {history history' : List InitializerObservation}
    {resources resources' : AmqpResources} {event : InitializerEvent}
    (tracks : Tracks promise index ⟨run, history⟩ record)
    (moved :
      run.step maxAttempts (promise == some index) resources event =
        some (run', resources')) :
    Tracks (if event = .finished then none else promise) index
      ⟨run', history'⟩
      (advance initializer (.initializer (.run index event)) index record) := by
  obtain ⟨unsettled, settles⟩ :=
    AmqpConnectionInitializer.isSettled_of_step moved
  have advanced :
      advance initializer (.initializer (.run index event)) index record =
        { record with
          own := record.own ++ [.initializer (.run 0 event)]
          stepsSince := record.stepsSince + record.cancelled.isSome.toNat } :=
    if_pos rfl
  have current := tracks.current
  rw [and_iff_right unsettled] at current
  rw [advanced]
  refine ⟨?_, ?_, ?_, ?_⟩
  · by_cases finished : event = .finished
    · rw [if_pos finished]
      refine iff_of_false nofun ?_
      intro active
      have settled : run'.phase.isSettled = true := settles.mpr finished
      exact Bool.false_ne_true (active.1.symm.trans settled)
    · have unsettled' : run'.phase.isSettled = false :=
        Bool.eq_false_iff.mpr fun settled => finished (settles.mp settled)
      rw [if_neg finished, current]
      exact (and_iff_right unsettled').symm
  · intro _
    rw [AmqpConnectionInitializer.not_mem_concat_iff]
    exact tracks.hit unsettled
  · intro cancelled
    have superseded : (promise == some index) = false := by
      apply beq_false_of_ne
      intro same
      exact cancelled (current.mp same).1
    rw [superseded] at moved
    have fewer := (InitializerRun.superseded_step moved).2.2
    have bounded := tracks.steps cancelled
    have one : record.cancelled.isSome.toNat = 1 := by
      rw [Option.isSome_iff_ne_none.mpr cancelled]
      rfl
    dsimp only at bounded fewer ⊢
    omega
  · intro none
    have zero := tracks.fresh none
    dsimp only at none ⊢
    rw [none, zero]
    rfl

/-- Another run takes a step. -/
theorem Tracks.run_other
    {event : InitializerEvent} {other : ℕ}
    (tracks : Tracks initializer.connectionPromise index observed record)
    (different : other ≠ index) :
    Tracks
      (if event = .finished then none else initializer.connectionPromise) index
      observed
      (advance initializer (.initializer (.run other event)) index record) := by
  have advanced :
      advance initializer (.initializer (.run other event)) index record =
        if event = .finished ∧ initializer.connectionPromise = some index then
          { record with isCleared := true }
        else
          record := if_neg different
  rw [advanced]
  by_cases finished : event = .finished
  · rw [if_pos finished]
    by_cases current : initializer.connectionPromise = some index
    · rw [if_pos ⟨finished, current⟩]
      exact ⟨iff_of_false nofun fun active => Bool.false_ne_true active.2.2.symm,
        tracks.hit, tracks.steps, tracks.fresh⟩
    · rw [if_neg fun both => current both.2]
      refine ⟨?_, tracks.hit, tracks.steps, tracks.fresh⟩
      exact iff_of_false nofun fun active => current (tracks.current.mpr active)
  · rw [if_neg finished, if_neg fun both => finished both.1]
    exact tracks

theorem Tracks.connectionChanged
    {other : ℕ} {observed' : ObservedRun} (connection : AmqpConnection)
    (resources : AmqpResources)
    (tracks : Tracks promise index observed record)
    (same : observed'.run.phase = observed.run.phase) :
    Tracks promise index observed'
      (advance initializer
        (.initializer (.connectionChanged other connection resources)) index
        record) := by
  have kept : Tracks promise index observed' record := by
    refine ⟨?_, ?_, ?_, tracks.fresh⟩
    · rw [same]
      exact tracks.current
    · rw [same]
      exact tracks.hit
    · rw [same]
      exact tracks.steps
  by_cases own : other = index
  · have advanced :
        advance initializer
            (.initializer (.connectionChanged other connection resources)) index
            record =
          { record with
            own :=
              record.own ++
                [.initializer (.connectionChanged 0 connection resources)] } :=
      if_pos own
    rw [advanced]
    refine ⟨kept.current, ?_, kept.steps, kept.fresh⟩
    intro unsettled
    rw [AmqpConnectionInitializer.not_mem_concat_iff]
    exact kept.hit unsettled
  · have advanced :
        advance initializer
            (.initializer (.connectionChanged other connection resources)) index
            record = record := if_neg own
    rw [advanced]
    exact kept

/-- A record grows by what concerns its run. -/
theorem own_advance (record : RunRecord) :
    (advance initializer event index record).own = record.own ∨
      ∃ last, (advance initializer event index record).own = record.own ++ [last] ∧
        AmqpConnectionInitializer.ConcernsFirst last := by
  cases event with
  | cancel => exact Or.inr ⟨_, rfl, trivial⟩
  | initializer event =>
      cases event with
      | initializeConnection => exact Or.inl rfl
      | run other event =>
          unfold advance
          dsimp only
          split
          · exact Or.inr ⟨_, rfl, rfl⟩
          · split
            · exact Or.inl rfl
            · exact Or.inl rfl
      | connectionChanged other connection resources =>
          unfold advance
          dsimp only
          split
          · exact Or.inr ⟨_, rfl, rfl⟩
          · exact Or.inl rfl

end RunRecord

section Recorded

variable {maxAttempts : JsNumber} {resources : AmqpResources}
  {state next : AmqpConnectionInitializer × List RunRecord}
  {event : CancellableEvent}

/-- The records say of every run whether it is current, both here and alone. -/
structure Tracked
    (maxAttempts : JsNumber) (resources : AmqpResources)
    (state : AmqpConnectionInitializer × List RunRecord) : Prop where
  length : state.2.length = state.1.runs.length
  tracks :
    ∀ (index : ℕ) (observed : ObservedRun) (record : RunRecord),
      state.1.runs[index]? = some observed → state.2[index]? = some record →
        RunRecord.Tracks state.1.connectionPromise index observed record
  lone :
    ∀ (index : ℕ) (record : RunRecord) (alone : AmqpConnectionInitializer),
      state.2[index]? = some record →
        (AmqpConnectionInitializer.cancellable maxAttempts resources).run
            (.create resources) record.own = some alone →
          ∃ only, AmqpConnectionInitializer.Lone record.own alone only

theorem tracked_create :
    Tracked maxAttempts resources (.create resources, []) := by
  refine ⟨rfl, ?_, ?_⟩
  · intro index observed record present
    cases present
  · intro index record alone recorded
    cases recorded

/-- What happens to the only run when its schedule grows. -/
theorem lone_of_advance
    {index : ℕ} {record : RunRecord} {initializer : AmqpConnectionInitializer}
    (lone :
      ∀ alone,
        (AmqpConnectionInitializer.cancellable maxAttempts resources).run
            (.create resources) record.own = some alone →
          ∃ only, AmqpConnectionInitializer.Lone record.own alone only)
    {alone : AmqpConnectionInitializer}
    (execution :
      (AmqpConnectionInitializer.cancellable maxAttempts resources).run
          (.create resources)
          (RunRecord.advance initializer event index record).own = some alone) :
    ∃ only,
      AmqpConnectionInitializer.Lone
        (RunRecord.advance initializer event index record).own alone only := by
  rcases RunRecord.own_advance record with same | ⟨last, grown, concerns⟩
  · rw [same] at execution ⊢
    exact lone alone execution
  · rw [grown] at execution ⊢
    rw [Machine.run_append] at execution
    obtain ⟨middle, earlier, taken⟩ := Option.bind_eq_some_iff.mp execution
    obtain ⟨only, isLone⟩ := lone middle earlier
    rw [Machine.run_singleton] at taken
    exact isLone.step concerns taken

theorem lone_start
    {alone : AmqpConnectionInitializer}
    (execution :
      (AmqpConnectionInitializer.cancellable maxAttempts resources).run
          (.create resources) RunRecord.start.own = some alone) :
    ∃ only, AmqpConnectionInitializer.Lone RunRecord.start.own alone only := by
  have single : RunRecord.start.own = [.initializer .initializeConnection] := rfl
  rw [single, Machine.run_singleton] at execution
  have itself :
      (AmqpConnectionInitializer.create resources).initializeConnection = alone :=
    Option.some.inj execution
  rw [← itself]
  refine ⟨⟨.create, []⟩, rfl, iff_of_true rfl ⟨?_, rfl⟩⟩
  intro member
  cases List.mem_singleton.mp member

/-- What a step does to the runs that the initializer had before. -/
theorem Tracked.tracks_of_step
    (tracked : Tracked maxAttempts resources state)
    (stepped :
      state.1.stepCancellable maxAttempts event = some next.1)
    {index : ℕ} {observed : ObservedRun} {record : RunRecord}
    (present : next.1.runs[index]? = some observed)
    (recorded : state.2[index]? = some record) :
    RunRecord.Tracks next.1.connectionPromise index observed
      (RunRecord.advance state.1 event index record) := by
  have inside : index < state.1.runs.length := by
    rw [← tracked.length]
    exact (List.getElem?_eq_some_iff.mp recorded).1
  cases event with
  | cancel =>
      have itself := Option.some.inj stepped
      rw [← itself] at present ⊢
      exact (tracked.tracks index observed record present recorded).cancel present
  | initializer event =>
      cases event with
      | initializeConnection =>
          have itself := Option.some.inj stepped
          rw [← itself] at present ⊢
          unfold AmqpConnectionInitializer.initializeConnection at present ⊢
          cases promise : state.1.connectionPromise with
          | some other =>
              rw [promise] at present
              have tracks :=
                tracked.tracks index observed record present recorded
              rw [promise] at tracks
              exact tracks
          | none =>
              rw [promise] at present
              have earlier : state.1.runs[index]? = some observed :=
                (List.getElem?_append_left inside).symm.trans present
              have tracks :=
                tracked.tracks index observed record earlier recorded
              have current := tracks.current
              rw [promise] at current
              refine ⟨?_, tracks.hit, tracks.steps, tracks.fresh⟩
              refine iff_of_false ?_ ?_
              · intro same
                have last := Option.some.inj same
                omega
              · intro active
                cases current.mpr active
      | run other event =>
          obtain ⟨run, history, run', resources', found, moved, itself⟩ :=
            AmqpConnectionInitializer.stepRun_iff.mp stepped
          rw [itself] at present ⊢
          rcases set_cases present with ⟨same, isNew⟩ | ⟨different, earlier⟩
          · subst same isNew
            exact (tracked.tracks index _ record found recorded).run_self moved
          · exact (tracked.tracks index observed record earlier
              recorded).run_other (Ne.symm different)
      | connectionChanged other connection resources' =>
          obtain ⟨changed, found, itself⟩ := Option.map_eq_some_iff.mp stepped
          rw [← itself] at present ⊢
          rcases set_cases present with ⟨same, isNew⟩ | ⟨different, earlier⟩
          · subst same isNew
            exact (tracked.tracks index changed record found
              recorded).connectionChanged connection resources' rfl
          · exact (tracked.tracks index observed record earlier
              recorded).connectionChanged connection resources' rfl

/-- A run that has just been started is the only new one. -/
theorem runs_length_of_step
    (stepped : state.1.stepCancellable maxAttempts event = some next.1) :
    next.1.runs.length =
      state.1.runs.length + (RunRecord.started state.1 event).length := by
  cases event with
  | cancel =>
      rw [← Option.some.inj stepped]
      rfl
  | initializer event =>
      cases event with
      | initializeConnection =>
          rw [← Option.some.inj stepped]
          unfold AmqpConnectionInitializer.initializeConnection
            RunRecord.started
          cases state.1.connectionPromise with
          | some other => rfl
          | none => exact List.length_append
      | run other event =>
          obtain ⟨run, history, run', resources', found, moved, itself⟩ :=
            AmqpConnectionInitializer.stepRun_iff.mp stepped
          rw [itself]
          exact List.length_set
      | connectionChanged other connection resources' =>
          obtain ⟨changed, found, itself⟩ := Option.map_eq_some_iff.mp stepped
          rw [← itself]
          exact List.length_set

theorem Tracked.step
    (tracked : Tracked maxAttempts resources state)
    (stepped :
      (recordedInitializer maxAttempts resources).step state event =
        some next) :
    Tracked maxAttempts resources next := by
  obtain ⟨taken, watched⟩ := Machine.watched_step_iff.mp stepped
  have length : next.2.length = next.1.runs.length := by
    rw [watched, RunRecord.watch_length, runs_length_of_step taken, tracked.length]
  refine ⟨length, ?_, ?_⟩
  · intro index observed record' present recorded
    rw [watched] at recorded
    rcases RunRecord.watch_cases recorded with
      ⟨record, earlier, advanced⟩ | ⟨last, isStart, isCall, unpromised⟩
    · rw [advanced]
      exact tracked.tracks_of_step taken present earlier
    · subst isCall
      have itself := Option.some.inj taken
      rw [← itself] at present ⊢
      unfold AmqpConnectionInitializer.initializeConnection at present ⊢
      rw [unpromised] at present ⊢
      dsimp only at present ⊢
      rw [last, tracked.length, List.getElem?_concat_length] at present
      rw [isStart, last, tracked.length, ← Option.some.inj present]
      exact RunRecord.tracks_start state.1.runs.length []
  · intro index record' alone recorded execution
    rw [watched] at recorded
    rcases RunRecord.watch_cases recorded with
      ⟨record, earlier, advanced⟩ | ⟨last, isStart, isCall, unpromised⟩
    · rw [advanced] at execution ⊢
      exact lone_of_advance
        (fun middle run => tracked.lone index record middle earlier run)
        execution
    · rw [isStart] at execution ⊢
      exact lone_start execution

/-! ## Which steps disturb a run -/

/-- Every run comes to an end; the rest depends on its history and its record. -/
theorem Tracked.runUndisturbed
    (tracked : Tracked maxAttempts resources state) {index : ℕ}
    {observed : ObservedRun} {record : RunRecord}
    (present : state.1.runs[index]? = some observed)
    (recorded : state.2[index]? = some record)
    (cancelled :
      ∀ before, record.cancelled = some before → StaysCancelled before observed)
    (alone :
      ∃ (alone : AmqpConnectionInitializer) (only : ObservedRun),
        (AmqpConnectionInitializer.cancellable maxAttempts resources).run
            (.create resources) record.own = some alone ∧
          alone.runs = [only] ∧ Alike only observed) :
    RunUndisturbed maxAttempts resources state.1 index observed record := by
  have tracks := tracked.tracks index observed record present recorded
  refine ⟨cancelled, ?_, ?_, alone⟩
  · by_cases hit : record.cancelled = none
    · have fresh := tracks.fresh hit
      omega
    · have steps := tracks.steps hit
      omega
  · intro unsettled
    have open_ : ∀ result, observed.run.phase ≠ .settled result := by
      intro result settled
      rw [settled] at unsettled
      cases unsettled
    obtain ⟨event, ⟨run', resources'⟩, moved⟩ :=
      InitializerRun.exists_step maxAttempts
        (state.1.connectionPromise == some index) observed.run state.1.resources
        open_
    exact ⟨event, _,
      AmqpConnectionInitializer.stepRun_iff.mpr
        ⟨_, _, _, _, present, moved, rfl⟩⟩

/-- A run goes on alone. -/
theorem exists_alone_concat
    {own : List CancellableEvent} {last : CancellableEvent}
    {alone next : AmqpConnectionInitializer} {only observed : ObservedRun}
    (execution :
      (AmqpConnectionInitializer.cancellable maxAttempts resources).run
          (.create resources) own = some alone)
    (stepped : alone.stepCancellable maxAttempts last = some next)
    (runs : next.runs = [only]) (alike : Alike only observed) :
    ∃ (alone : AmqpConnectionInitializer) (only : ObservedRun),
      (AmqpConnectionInitializer.cancellable maxAttempts resources).run
          (.create resources) (own ++ [last]) = some alone ∧
        alone.runs = [only] ∧ Alike only observed := by
  refine ⟨next, only, ?_, runs, alike⟩
  rw [Machine.run_append, execution]
  exact (Machine.run_singleton _ alone last).trans stepped

theorem Tracked.exists_record
    (tracked : Tracked maxAttempts resources state) {index : ℕ}
    {observed : ObservedRun} (present : state.1.runs[index]? = some observed) :
    ∃ record, state.2[index]? = some record := by
  have inside := (List.getElem?_eq_some_iff.mp present).1
  rw [← tracked.length] at inside
  exact ⟨_, List.getElem?_eq_getElem inside⟩

/-- A run that is cancelled now gives its connection up, unless it is just about to
hand it out. -/
theorem staysCancelled_self
    {observed : ObservedRun} (unsettled : ¬ observed.run.phase.isSettled = true)
    (keeps : observed.run.phase ≠ .returned .connection) :
    StaysCancelled observed observed := by
  refine ⟨?_, rfl⟩
  intro result returned
  have phase := InitializerPhase.returned_of_result unsettled returned
  cases result with
  | cancelled => exact Or.inl rfl
  | rejected error => exact Or.inr ⟨error, rfl, returned⟩
  | connection => exact absurd phase keeps

/-- A cancellation finds no run that is about to hand out its connection. -/
theorem Tracked.undisturbed_cancel_iff
    (tracked : Tracked maxAttempts resources state)
    (undisturbed : Undisturbed maxAttempts resources state)
    (stepped :
      (recordedInitializer maxAttempts resources).step state .cancel =
        some next) :
    Undisturbed maxAttempts resources next ↔ SparesSuccessors state .cancel := by
  have trackedNext := tracked.step stepped
  obtain ⟨taken, watched⟩ := Machine.watched_step_iff.mp stepped
  have itself : state.1.cancel = next.1 := Option.some.inj taken
  have runs : next.1.runs = state.1.runs := by
    rw [← itself]
    rfl
  constructor
  · intro nextUndisturbed observed member handsOut
    obtain ⟨index, present⟩ := List.mem_iff_getElem?.mp member
    obtain ⟨record, recorded⟩ := tracked.exists_record present
    have advanced :
        next.2[index]? =
          some (RunRecord.advance state.1 .cancel index record) := by
      rw [watched]
      exact RunRecord.watch_getElem recorded
    have goes :=
      nextUndisturbed index observed _ (by rw [runs]; exact present) advanced
    have hit : ∃ before,
        (RunRecord.advance state.1 .cancel index record).cancelled =
          some before := by
      rw [RunRecord.cancelled_advance_cancel present, handsOut]
      cases record.cancelled with
      | none => exact ⟨observed, rfl⟩
      | some before => exact ⟨before, rfl⟩
    obtain ⟨before, cancelled⟩ := hit
    have returned : observed.run.phase.result = some .connection := by
      rw [handsOut]
      rfl
    rcases (goes.cancelled before cancelled).result _ returned with
      impossible | ⟨_, impossible, _⟩
    · cases impossible
    · cases impossible
  · intro spares index observed record' present recorded
    have recordedNext := recorded
    rw [watched] at recorded
    rw [runs] at present
    rcases RunRecord.watch_cases recorded with
      ⟨record, earlier, advanced⟩ | ⟨_, _, impossible, _⟩
    · have goes := undisturbed index observed record present earlier
      refine trackedNext.runUndisturbed (by rw [runs]; exact present)
        recordedNext ?_ ?_
      · intro before cancelled
        rw [advanced, RunRecord.cancelled_advance_cancel present] at cancelled
        cases hit : record.cancelled with
        | some first =>
            rw [hit] at cancelled
            cases cancelled
            exact goes.cancelled before hit
        | none =>
            rw [hit, Option.none_or] at cancelled
            by_cases settled : observed.run.phase.isSettled = true
            · rw [if_pos settled] at cancelled
              cases cancelled
            · rw [if_neg settled] at cancelled
              cases cancelled
              exact staysCancelled_self settled
                (spares observed (List.mem_of_getElem? present))
      · rw [advanced]
        obtain ⟨alone, only, execution, single, alike⟩ := goes.alone
        exact exists_alone_concat execution rfl single alike
    · cases impossible

/-- A call of `initializeConnection` leaves the runs alone. -/
theorem Tracked.undisturbed_initializeConnection
    (tracked : Tracked maxAttempts resources state)
    (undisturbed : Undisturbed maxAttempts resources state)
    (stepped :
      (recordedInitializer maxAttempts resources).step state
          (.initializer .initializeConnection) =
        some next) :
    Undisturbed maxAttempts resources next := by
  have trackedNext := tracked.step stepped
  obtain ⟨taken, watched⟩ := Machine.watched_step_iff.mp stepped
  have itself : state.1.initializeConnection = next.1 := Option.some.inj taken
  intro index observed record' present recorded
  have recordedNext := recorded
  rw [watched] at recorded
  rcases RunRecord.watch_cases recorded with
    ⟨record, earlier, advanced⟩ | ⟨last, isStart, _, unpromised⟩
  · have same : record' = record := advanced
    have inside := (List.getElem?_eq_some_iff.mp earlier).1
    rw [tracked.length] at inside
    have presentBefore : state.1.runs[index]? = some observed := by
      rw [← itself] at present
      unfold AmqpConnectionInitializer.initializeConnection at present
      cases promise : state.1.connectionPromise with
      | some other =>
          rw [promise] at present
          exact present
      | none =>
          rw [promise] at present
          exact (List.getElem?_append_left inside).symm.trans present
    have goes := undisturbed index observed record presentBefore earlier
    rw [← same] at goes
    exact trackedNext.runUndisturbed present recordedNext goes.cancelled goes.alone
  · refine trackedNext.runUndisturbed present recordedNext ?_ ?_
    · intro before cancelled
      rw [isStart] at cancelled
      cases cancelled
    · have created : observed = ⟨.create, []⟩ := by
        rw [← itself] at present
        unfold AmqpConnectionInitializer.initializeConnection at present
        rw [unpromised] at present
        dsimp only at present
        rw [last, tracked.length, List.getElem?_concat_length] at present
        exact (Option.some.inj present).symm
      rw [isStart, created]
      refine ⟨(AmqpConnectionInitializer.create resources).initializeConnection,
        ⟨.create, []⟩, ?_, rfl, rfl, rfl, rfl⟩
      exact Machine.run_singleton _ _ _

/-- What happens to a run from outside happens to it alone as well. -/
theorem Tracked.undisturbed_connectionChanged
    (tracked : Tracked maxAttempts resources state)
    (undisturbed : Undisturbed maxAttempts resources state)
    {other : ℕ} {connection : AmqpConnection} {resources' : AmqpResources}
    (stepped :
      (recordedInitializer maxAttempts resources).step state
          (.initializer (.connectionChanged other connection resources')) =
        some next) :
    Undisturbed maxAttempts resources next := by
  have trackedNext := tracked.step stepped
  obtain ⟨taken, watched⟩ := Machine.watched_step_iff.mp stepped
  obtain ⟨changed, found, itself⟩ := Option.map_eq_some_iff.mp taken
  intro index observed record' present recorded
  have recordedNext := recorded
  have presentNext := present
  rw [watched] at recorded
  rw [← itself] at present
  rcases RunRecord.watch_cases recorded with
    ⟨record, earlier, advanced⟩ | ⟨_, _, impossible, _⟩
  · rcases set_cases present with ⟨same, isNew⟩ | ⟨different, presentBefore⟩
    · subst same isNew
      have grown :
          record' =
            { record with
              own :=
                record.own ++
                  [.initializer
                    (.connectionChanged 0 connection resources')] } :=
        advanced.trans (if_pos rfl)
      have goes := undisturbed index changed record found earlier
      refine trackedNext.runUndisturbed presentNext recordedNext ?_ ?_
      · intro before cancelled
        rw [grown] at cancelled
        have stays := goes.cancelled before cancelled
        exact ⟨stays.result, stays.connects⟩
      · rw [grown]
        obtain ⟨alone, only, execution, single, alike⟩ := goes.alone
        have first : alone.runs[0]? = some only := by
          rw [single]
          rfl
        have changedAlone :
            alone.stepCancellable maxAttempts
                (.initializer (.connectionChanged 0 connection resources')) =
              some
                { alone with
                  runs :=
                    alone.runs.set 0
                      { only with run := { only.run with connection } }
                  resources := resources' } :=
          congrArg (Option.map _) first
        have stillAlike :
            Alike { only with run := { only.run with connection } }
              { changed with run := { changed.run with connection } } :=
          ⟨alike.history, alike.place, rfl⟩
        exact exists_alone_concat execution changedAlone (by rw [single]; rfl)
          stillAlike
    · have same : record' = record :=
        advanced.trans (if_neg (Ne.symm different))
      have goes := undisturbed index observed record presentBefore earlier
      rw [← same] at goes
      exact trackedNext.runUndisturbed presentNext recordedNext goes.cancelled
        goes.alone
  · cases impossible

/-- The promise of a run is current alone until it is cancelled or over. -/
theorem Tracked.current_alone
    (tracked : Tracked maxAttempts resources state) {index : ℕ}
    {observed : ObservedRun} {record : RunRecord}
    (present : state.1.runs[index]? = some observed)
    (recorded : state.2[index]? = some record)
    (unsettled : observed.run.phase.isSettled = false)
    {alone : AmqpConnectionInitializer} {only : ObservedRun}
    (execution :
      (AmqpConnectionInitializer.cancellable maxAttempts resources).run
          (.create resources) record.own = some alone)
    (single : alone.runs = [only]) (alike : Alike only observed) :
    alone.connectionPromise = some 0 ↔ record.cancelled = none := by
  obtain ⟨sole, lone⟩ := tracked.lone index record alone recorded execution
  have same : [only] = [sole] := single.symm.trans lone.runs
  cases same
  have open_ : only.run.phase.isSettled = false := by
    rw [← InitializerPhase.isSettled_place, alike.place,
      InitializerPhase.isSettled_place]
    exact unsettled
  have tracks := tracked.tracks index observed record present recorded
  rw [lone.current, and_iff_left open_]
  exact (tracks.hit unsettled).symm

/-- A check finds the promise as it would alone, if no other run has cleared it. -/
theorem Tracked.promise_alike
    (tracked : Tracked maxAttempts resources state) {index : ℕ}
    {observed : ObservedRun} {record : RunRecord} {event : InitializerEvent}
    (present : state.1.runs[index]? = some observed)
    (recorded : state.2[index]? = some record)
    (unsettled : observed.run.phase.isSettled = false)
    {alone : AmqpConnectionInitializer} {only : ObservedRun}
    (execution :
      (AmqpConnectionInitializer.cancellable maxAttempts resources).run
          (.create resources) record.own = some alone)
    (single : alone.runs = [only]) (alike : Alike only observed)
    (spared :
      event.isCheck = true → record.isCleared = true →
        record.cancelled.isSome = true) :
    (state.1.connectionPromise == some index) =
        (alone.connectionPromise == some 0) ∨
      event.isCheck = false := by
  have tracks := tracked.tracks index observed record present recorded
  have currentAlone :=
    tracked.current_alone present recorded unsettled execution single alike
  cases check : event.isCheck with
  | false => exact Or.inr rfl
  | true =>
      refine Or.inl (Bool.eq_iff_iff.mpr ?_)
      rw [beq_iff_eq, beq_iff_eq, tracks.current, currentAlone,
        and_iff_right unsettled]
      apply and_iff_left_of_imp
      intro uncancelled
      apply Bool.eq_false_iff.mpr
      intro isCleared
      have cancelled := spared check isCleared
      rw [uncancelled] at cancelled
      cases cancelled

/-- A run without its promise stays cancelled. -/
theorem StaysCancelled.run
    {before : ObservedRun} {run run' : InitializerRun}
    {history : List InitializerObservation} {event : InitializerEvent}
    {shared shared' : AmqpResources}
    (stays : StaysCancelled before ⟨run, history⟩)
    (moved : run.step maxAttempts false shared event = some (run', shared')) :
    StaysCancelled before
      ⟨run', run.observed maxAttempts false event ++ history⟩ := by
  obtain ⟨checked, unchecked, _⟩ := InitializerRun.superseded_step moved
  refine ⟨?_, ?_⟩
  · intro result come
    cases check : event.isCheck with
    | true =>
        rw [checked check] at come
        exact Or.inl (Option.some.inj come).symm
    | false =>
        rw [unchecked check] at come
        exact stays.result result come
  · rw [List.countP_append, InitializerRun.observed_connects_of_superseded,
      Nat.zero_add]
    exact stays.connects

/-- If it finds its promise alike, the run takes the same step alone. -/
theorem exists_alone_run
    {own : List CancellableEvent} {alone : AmqpConnectionInitializer}
    {only : ObservedRun} {run run' : InitializerRun}
    {history : List InitializerObservation} {event : InitializerEvent}
    {isCurrent : Bool} {shared shared' : AmqpResources}
    (execution :
      (AmqpConnectionInitializer.cancellable maxAttempts resources).run
          (.create resources) own = some alone)
    (single : alone.runs = [only]) (alike : Alike only ⟨run, history⟩)
    (same :
      isCurrent = (alone.connectionPromise == some 0) ∨ event.isCheck = false)
    (moved : run.step maxAttempts isCurrent shared event = some (run', shared')) :
    ∃ (alone : AmqpConnectionInitializer) (only : ObservedRun),
      (AmqpConnectionInitializer.cancellable maxAttempts resources).run
          (.create resources) (own ++ [.initializer (.run 0 event)]) =
          some alone ∧
        alone.runs = [only] ∧
          Alike only ⟨run', run.observed maxAttempts isCurrent event ++ history⟩ := by
  obtain ⟨only', sharedAlone, movedAlone, place, disposed⟩ :=
    InitializerRun.step_alike alike.place.symm alike.disposed.symm same moved
      alone.resources
  have observed :
      run.observed maxAttempts isCurrent event =
        only.run.observed maxAttempts (alone.connectionPromise == some 0) event :=
    InitializerRun.observed_alike alike.place.symm alike.disposed.symm same
  have first : alone.runs[0]? = some ⟨only.run, only.history⟩ := by
    rw [single]
    rfl
  have takenAlone :=
    AmqpConnectionInitializer.stepRun_iff.mpr
      ⟨_, _, _, _, first, movedAlone, rfl⟩
  have stillAlike :
      Alike
        ⟨only',
          only.run.observed maxAttempts (alone.connectionPromise == some 0)
              event ++
            only.history⟩
        ⟨run', run.observed maxAttempts isCurrent event ++ history⟩ := by
    refine ⟨?_, place.symm, disposed.symm⟩
    rw [observed, alike.history]
  exact exists_alone_concat execution takenAlone (by rw [single]; rfl) stillAlike

/-- A check that fails among others and would not fail alone. -/
theorem not_alike_of_superseded
    {own : List CancellableEvent} {alone : AmqpConnectionInitializer}
    {only : ObservedRun} {run run' : InitializerRun}
    {history : List InitializerObservation} {event : InitializerEvent}
    {shared shared' : AmqpResources}
    (execution :
      (AmqpConnectionInitializer.cancellable maxAttempts resources).run
          (.create resources) own = some alone)
    (single : alone.runs = [only])
    (promised : alone.connectionPromise = some 0)
    (check : event.isCheck = true)
    (moved : run.step maxAttempts false shared event = some (run', shared')) :
    ¬ ∃ (alone : AmqpConnectionInitializer) (only : ObservedRun),
        (AmqpConnectionInitializer.cancellable maxAttempts resources).run
            (.create resources) (own ++ [.initializer (.run 0 event)]) =
            some alone ∧
          alone.runs = [only] ∧ Alike only ⟨run', history⟩ := by
  rintro ⟨alone', only', execution', single', alike'⟩
  have gaveUp := (InitializerRun.superseded_step moved).1 check
  rw [Machine.run_append, execution] at execution'
  have takenAlone : alone.stepRun maxAttempts 0 event = some alone' :=
    (Machine.run_singleton _ _ _).symm.trans execution'
  obtain ⟨run₀, history₀, run₁, shared₁, found₀, moved₀, itself₀⟩ :=
    AmqpConnectionInitializer.stepRun_iff.mp takenAlone
  rw [promised, beq_self_eq_true] at moved₀
  have wentOn := InitializerRun.result_of_current moved₀ check
  rw [itself₀] at single'
  dsimp only at single'
  rw [single] at found₀ single'
  cases single'
  have place := congrArg InitializerPhase.result alike'.place
  rw [InitializerPhase.result_place, InitializerPhase.result_place, gaveUp] at place
  exact wentOn place

/-- A step of a run disturbs it exactly if it asks for a promise that another run
has cleared, and that alone it would still have. -/
theorem Tracked.undisturbed_run_iff
    (tracked : Tracked maxAttempts resources state)
    (undisturbed : Undisturbed maxAttempts resources state)
    {other : ℕ} {event : InitializerEvent}
    (stepped :
      (recordedInitializer maxAttempts resources).step state
          (.initializer (.run other event)) =
        some next) :
    Undisturbed maxAttempts resources next ↔
      SparesSuccessors state (.initializer (.run other event)) := by
  have trackedNext := tracked.step stepped
  obtain ⟨taken, watched⟩ := Machine.watched_step_iff.mp stepped
  obtain ⟨run, history, run', shared', found, moved, itself⟩ :=
    AmqpConnectionInitializer.stepRun_iff.mp taken
  obtain ⟨record, earlier⟩ := tracked.exists_record found
  have goes := undisturbed other ⟨run, history⟩ record found earlier
  have tracks := tracked.tracks other ⟨run, history⟩ record found earlier
  have unsettled := (AmqpConnectionInitializer.isSettled_of_step moved).1
  have grown :
      RunRecord.advance state.1 (.initializer (.run other event)) other record =
        { record with
          own := record.own ++ [.initializer (.run 0 event)]
          stepsSince := record.stepsSince + record.cancelled.isSome.toNat } :=
    if_pos rfl
  have inside := (List.getElem?_eq_some_iff.mp found).1
  have presentNext :
      next.1.runs[other]? =
        some
          ⟨run',
            run.observed maxAttempts
                (state.1.connectionPromise == some other) event ++
              history⟩ := by
    rw [itself]
    exact List.getElem?_set_self inside
  have recordedNext :
      next.2[other]? =
        some
          (RunRecord.advance state.1 (.initializer (.run other event)) other
            record) := by
    rw [watched]
    exact RunRecord.watch_getElem earlier
  obtain ⟨alone, only, execution, single, alike⟩ := goes.alone
  have currentAlone :=
    tracked.current_alone found earlier unsettled execution single alike
  constructor
  · intro nextUndisturbed check record' recorded' isCleared
    rw [earlier] at recorded'
    cases recorded'
    by_contra notCancelled
    have uncancelled := Option.not_isSome_iff_eq_none.mp notCancelled
    have superseded := tracks.not_current (Or.inr isCleared)
    have promised := currentAlone.mpr uncancelled
    rw [superseded] at moved
    rw [grown] at recordedNext
    exact not_alike_of_superseded execution single promised check moved
      (nextUndisturbed other _ _ presentNext recordedNext).alone
  · intro spares index observed record' present recorded
    have recordedAgain := recorded
    have presentAgain := present
    rw [watched] at recorded
    rw [itself] at present
    rcases RunRecord.watch_cases recorded with
      ⟨found', earlier', advanced⟩ | ⟨_, _, impossible, _⟩
    · rcases set_cases present with ⟨same, isNew⟩ | ⟨different, presentBefore⟩
      · subst same isNew
        rw [earlier] at earlier'
        cases earlier'
        rw [grown] at advanced
        refine trackedNext.runUndisturbed presentAgain recordedAgain ?_ ?_
        · intro before cancelled
          rw [advanced] at cancelled
          have superseded := tracks.not_current
            (Or.inl (by rw [cancelled]; exact Option.some_ne_none before))
          rw [superseded] at moved ⊢
          exact (goes.cancelled before cancelled).run moved
        · have same := tracked.promise_alike found earlier unsettled execution single
            alike (spares · record earlier)
          rw [advanced]
          exact exists_alone_run execution single alike same moved
      · have goes' :=
          undisturbed index observed found' presentBefore earlier'
        have kept := RunRecord.advance_run_of_ne (Ne.symm different) advanced
        refine trackedNext.runUndisturbed presentAgain recordedAgain ?_ ?_
        · rw [kept.2]
          exact goes'.cancelled
        · rw [kept.1]
          exact goes'.alone
    · cases impossible

theorem Tracked.undisturbed_iff
    (tracked : Tracked maxAttempts resources state)
    (undisturbed : Undisturbed maxAttempts resources state)
    (stepped :
      (recordedInitializer maxAttempts resources).step state event =
        some next) :
    Undisturbed maxAttempts resources next ↔ SparesSuccessors state event := by
  cases event with
  | cancel => exact tracked.undisturbed_cancel_iff undisturbed stepped
  | initializer event =>
      cases event with
      | initializeConnection =>
          exact iff_of_true
            (tracked.undisturbed_initializeConnection undisturbed stepped) trivial
      | run index event =>
          exact tracked.undisturbed_run_iff undisturbed stepped
      | connectionChanged index connection resources' =>
          exact iff_of_true
            (tracked.undisturbed_connectionChanged undisturbed stepped) trivial

end Recorded

/-- In every run of an initializer its cancelled runs end with `null` and disturb
no other run, exactly if no run asks for its promise after another run has cleared
it and no cancellation comes when a connection is being handed out. -/
theorem cancellations_undisturbing_iff
    (maxAttempts : JsNumber) (resources : AmqpResources)
    (schedule : List CancellableEvent)
    (state : AmqpConnectionInitializer × List RunRecord)
    (execution :
      (recordedInitializer maxAttempts resources).run (.create resources, [])
          schedule = some state) :
    (∀ first current, first <+: schedule →
        (recordedInitializer maxAttempts resources).run (.create resources, [])
            first = some current →
          Undisturbed maxAttempts resources current) ↔
      (recordedInitializer maxAttempts resources).Throughout SparesSuccessors
        (.create resources, []) schedule := by
  have preserved :
      (recordedInitializer maxAttempts resources).PreservedUnder
        (fun _ _ => True) (Tracked maxAttempts resources) :=
    fun _ _ _ tracked _ stepped => tracked.step stepped
  have initially : Undisturbed maxAttempts resources (.create resources, []) := by
    intro index observed record present
    cases present
  rw [← Machine.throughout_next_iff (Undisturbed maxAttempts resources) initially
    execution]
  exact Machine.throughout_sound_iff (Undisturbed maxAttempts resources)
    SparesSuccessors preserved
    (fun _ _ _ tracked undisturbed stepped =>
      tracked.undisturbed_iff undisturbed stepped)
    tracked_create initially (Machine.throughout_true _ _ _) execution

/-- A run is cancelled while it connects, and the next one starts when it is
over. -/
def restartAfterCancellation : List CancellableEvent :=
  [.initializer .initializeConnection, .initializer (.run 0 .started), .cancel,
    .initializer (.run 0 (.connectionSettled .rejected)),
    .initializer (.run 0 .resumed), .initializer (.run 0 .finished),
    .initializer .initializeConnection, .initializer (.run 1 .started),
    .initializer (.run 1 (.connectionSettled .fulfilled)),
    .initializer (.run 1 (.channelSettled .fulfilled)),
    .initializer (.run 1 .resumed), .initializer (.run 1 .finished)]

theorem cancellations_undisturbing_iff_restart :
    ∃ state : AmqpConnectionInitializer × List RunRecord,
      (recordedInitializer (.ofNat 3) InitializerRun.unusedResources).run
          (.create InitializerRun.unusedResources, [])
          restartAfterCancellation = some state ∧
        ∀ first current, first <+: restartAfterCancellation →
          (recordedInitializer (.ofNat 3) InitializerRun.unusedResources).run
              (.create InitializerRun.unusedResources, []) first =
            some current →
          Undisturbed (.ofNat 3) InitializerRun.unusedResources current :=
  ⟨_, rfl,
    (cancellations_undisturbing_iff (.ofNat 3) InitializerRun.unusedResources
      restartAfterCancellation _ rfl).mpr (by decide)⟩

/-- The connection is initialized, cancelled and initialized again at once. -/
def immediateRestart : List CancellableEvent :=
  [.initializer .initializeConnection, .cancel,
    .initializer .initializeConnection, .initializer (.run 0 .started),
    .initializer (.run 1 .started), .initializer (.run 0 .finished),
    .initializer (.run 1 (.connectionSettled .fulfilled)),
    .initializer (.run 1 (.channelSettled .fulfilled)),
    .initializer (.run 1 .resumed)]

/-- The `finally` callback of the cancelled run cancels the second one, which has
connected. -/
theorem immediateRestart_disturbed :
    ¬ ∀ (maxAttempts : JsNumber) (resources : AmqpResources)
        (schedule : List CancellableEvent)
        (state : AmqpConnectionInitializer × List RunRecord),
        (recordedInitializer maxAttempts resources).run (.create resources, [])
            schedule = some state →
          ∀ first current, first <+: schedule →
            (recordedInitializer maxAttempts resources).run
                (.create resources, []) first = some current →
              Undisturbed maxAttempts resources current := by
  intro always
  have undisturbed :=
    always (.ofNat 3) InitializerRun.unusedResources immediateRestart _ rfl
      immediateRestart _ List.prefix_rfl rfl
  obtain ⟨alone, only, execution, single, alike⟩ :=
    (undisturbed 1 _ _ rfl rfl).alone
  cases execution
  cases single
  have place := alike.place
  cases place

end Amq.Core
