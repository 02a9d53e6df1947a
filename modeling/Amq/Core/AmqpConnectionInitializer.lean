import Amq.Core.AmqpConnection
import Amq.JsNumber
import Amq.Transition.Machine
import Amq.Transition.Records

/-!
# Connection initialization

A run of `initializeConnection` creates one connection and calls `connect` on
it until an attempt succeeds or the attempts are used up.  After each of its
awaits the run asks whether its promise is still the current one.

The runs of one initializer are numbered, and the connection of a run is known
by the number of its run.
-/

namespace Amq.Core

open Amq.Transition

inductive InitializerError where
  /-- A `MaxReconnectionAttemptsExceededError`. -/
  | attemptsExceeded
  /-- What the constructor of `AmqpConnection` has thrown, for an option that the
  wrapper does not check. -/
  | creationFailed
  deriving DecidableEq, Repr

/-- How the promise of a run ends. -/
inductive InitializerResult where
  /-- Resolved with the connection of the run. -/
  | connection
  /-- Resolved with `null`. -/
  | cancelled
  | rejected (error : InitializerError)
  deriving DecidableEq, Repr

/-- Where a run waits. -/
inductive InitializerPhase where
  /-- Its promise has been made, its first microtask has not run. -/
  | scheduled
  /-- In `connect`, for `amqplibConnect`. -/
  | connecting (attempt : ℕ)
  /-- In `connect`, for the channel. -/
  | creatingChannel (attempt amqplibConnection : ℕ)
  /-- In `connect`, after the channel failed. -/
  | disposingConnection (attempt : ℕ)
  /-- In `connect`, after a channel was created for a disposed connection. -/
  | disposingChannel (attempt : ℕ)
  /-- `connect` has resolved. -/
  | connected (attempt : ℕ)
  /-- `connect` has been rejected. -/
  | refused (attempt : ℕ)
  | delaying (attempt : ℕ)
  /-- The body is over, the `finally` callback has not run. -/
  | returned (result : InitializerResult)
  | settled (result : InitializerResult)
  deriving DecidableEq, Repr

inductive InitializerEvent where
  | started
  /-- The first microtask, if `amqpConnectionProvider.create()` throws. -/
  | creationFailed
  | connectionSettled (settlement : Settlement)
  | channelSettled (settlement : Settlement)
  | disposed
  /-- The run sees that `connect` has settled. -/
  | resumed
  | delayed
  /-- The `finally` callback. -/
  | finished
  deriving DecidableEq, Repr

structure InitializerRun where
  phase : InitializerPhase
  connection : AmqpConnection
  deriving DecidableEq, Repr

/-- The head of the loop: without another attempt it hands the connection out. -/
def InitializerPhase.nextAttempt
    (maxAttempts : JsNumber) (attempt : ℕ) : InitializerPhase :=
  if (JsNumber.ofNat attempt).atMost maxAttempts then
    .connecting attempt
  else
    .returned .connection

namespace InitializerRun

def create : InitializerRun where
  phase := .scheduled
  connection := .create

/-- The run goes on with another phase, its connection as it is. -/
def moveTo (run : InitializerRun) (phase : InitializerPhase) : InitializerRun :=
  { run with phase := phase }

/-- One event of a run, and what it does to the shared resources.  `isCurrent`
tells whether the promise of the run is the current one. -/
def step
    (maxAttempts : JsNumber) (isCurrent : Bool)
    (run : InitializerRun) (resources : AmqpResources)
    (event : InitializerEvent) :
    Option (InitializerRun × AmqpResources) :=
  match run.phase, event with
  | .scheduled, .started =>
      if isCurrent then
        some (run.moveTo (.nextAttempt maxAttempts 1), resources)
      else
        some (run.moveTo (.returned .cancelled), resources)
  | .scheduled, .creationFailed =>
      if isCurrent then
        some (run.moveTo (.returned (.rejected .creationFailed)), resources)
      else
        none
  | .connecting attempt, .connectionSettled .fulfilled =>
      let (connection, resources') := run.connection.connectionOpened resources
      some (⟨.creatingChannel attempt resources.opened, connection⟩, resources')
  | .connecting attempt, .connectionSettled .rejected =>
      some (run.moveTo (.refused attempt), resources)
  | .creatingChannel attempt amqplibConnection, .channelSettled .fulfilled =>
      let (connection, resources) :=
        run.connection.channelCreated resources amqplibConnection
      if run.connection.isDisposed then
        some (⟨.disposingChannel attempt, connection⟩, resources)
      else
        some (⟨.connected attempt, connection⟩, resources)
  | .creatingChannel attempt amqplibConnection, .channelSettled .rejected =>
      let (connection, resources) :=
        run.connection.channelFailed resources amqplibConnection
      some (⟨.disposingConnection attempt, connection⟩, resources)
  | .disposingConnection attempt, .disposed =>
      some (run.moveTo (.refused attempt), resources)
  | .disposingChannel attempt, .disposed =>
      some (run.moveTo (.connected attempt), resources)
  | .connected _, .resumed =>
      if isCurrent then
        some (run.moveTo (.returned .connection), resources)
      else
        some (run.moveTo (.returned .cancelled), resources)
  | .refused attempt, .resumed =>
      if isCurrent then
        if .ofNat attempt = maxAttempts then
          some (run.moveTo (.returned (.rejected .attemptsExceeded)), resources)
        else
          some (run.moveTo (.delaying attempt), resources)
      else
        some (run.moveTo (.returned .cancelled), resources)
  | .delaying attempt, .delayed =>
      if isCurrent then
        some (run.moveTo (.nextAttempt maxAttempts (attempt + 1)), resources)
      else
        some (run.moveTo (.returned .cancelled), resources)
  | .returned result, .finished =>
      some (run.moveTo (.settled result), resources)
  | _, _ => none

end InitializerRun

/-! ## What a step does -/

/-- The moves that leave the connection and the resources alone. -/
inductive InitializerPhase.Moves (maxAttempts : JsNumber) (isCurrent : Bool) :
    InitializerPhase → InitializerEvent → InitializerPhase → Prop where
  | began (current : isCurrent = true) :
      Moves maxAttempts isCurrent .scheduled .started
        (.nextAttempt maxAttempts 1)
  | uncreated (current : isCurrent = true) :
      Moves maxAttempts isCurrent .scheduled .creationFailed
        (.returned (.rejected .creationFailed))
  | unopened (attempt : ℕ) :
      Moves maxAttempts isCurrent (.connecting attempt)
        (.connectionSettled .rejected) (.refused attempt)
  | rolledBack (attempt : ℕ) :
      Moves maxAttempts isCurrent (.disposingConnection attempt) .disposed
        (.refused attempt)
  | channelDisposed (attempt : ℕ) :
      Moves maxAttempts isCurrent (.disposingChannel attempt) .disposed
        (.connected attempt)
  | handedOut (attempt : ℕ) (current : isCurrent = true) :
      Moves maxAttempts isCurrent (.connected attempt) .resumed
        (.returned .connection)
  | exceeded (attempt : ℕ) (current : isCurrent = true)
      (last : .ofNat attempt = maxAttempts) :
      Moves maxAttempts isCurrent (.refused attempt) .resumed
        (.returned (.rejected .attemptsExceeded))
  | postponed (attempt : ℕ) (current : isCurrent = true)
      (further : .ofNat attempt ≠ maxAttempts) :
      Moves maxAttempts isCurrent (.refused attempt) .resumed (.delaying attempt)
  | retried (attempt : ℕ) (current : isCurrent = true) :
      Moves maxAttempts isCurrent (.delaying attempt) .delayed
        (.nextAttempt maxAttempts (attempt + 1))
  | cancelled (phase : InitializerPhase) (event : InitializerEvent)
      (superseded : isCurrent = false)
      (place :
        (phase = .scheduled ∧ event = .started) ∨
          (∃ attempt, phase = .connected attempt ∧ event = .resumed) ∨
          (∃ attempt, phase = .refused attempt ∧ event = .resumed) ∨
          (∃ attempt, phase = .delaying attempt ∧ event = .delayed)) :
      Moves maxAttempts isCurrent phase event (.returned .cancelled)
  | finished (result : InitializerResult) :
      Moves maxAttempts isCurrent (.returned result) .finished (.settled result)

/-- The steps of a run, by what they do to its connection. -/
inductive InitializerRun.Steps
    (maxAttempts : JsNumber) (isCurrent : Bool)
    (run : InitializerRun) (resources : AmqpResources) :
    InitializerEvent → InitializerRun → AmqpResources → Prop where
  | moved {event : InitializerEvent} {phase : InitializerPhase}
      (moves : InitializerPhase.Moves maxAttempts isCurrent run.phase event phase) :
      Steps maxAttempts isCurrent run resources event
        (run.moveTo phase) resources
  | opened {attempt : ℕ}
      (before : run.phase = .connecting attempt) :
      Steps maxAttempts isCurrent run resources (.connectionSettled .fulfilled)
        ⟨.creatingChannel attempt resources.opened,
          (run.connection.connectionOpened resources).1⟩
        (run.connection.connectionOpened resources).2
  | created {attempt amqplibConnection : ℕ}
      (before : run.phase = .creatingChannel attempt amqplibConnection)
      (active : run.connection.isDisposed = false) :
      Steps maxAttempts isCurrent run resources (.channelSettled .fulfilled)
        ⟨.connected attempt,
          (run.connection.channelCreated resources amqplibConnection).1⟩
        (run.connection.channelCreated resources amqplibConnection).2
  | createdDisposed {attempt amqplibConnection : ℕ}
      (before : run.phase = .creatingChannel attempt amqplibConnection)
      (disposed : run.connection.isDisposed = true) :
      Steps maxAttempts isCurrent run resources (.channelSettled .fulfilled)
        ⟨.disposingChannel attempt,
          (run.connection.channelCreated resources amqplibConnection).1⟩
        (run.connection.channelCreated resources amqplibConnection).2
  | failed {attempt amqplibConnection : ℕ}
      (before : run.phase = .creatingChannel attempt amqplibConnection) :
      Steps maxAttempts isCurrent run resources (.channelSettled .rejected)
        ⟨.disposingConnection attempt,
          (run.connection.channelFailed resources amqplibConnection).1⟩
        (run.connection.channelFailed resources amqplibConnection).2

namespace InitializerRun

theorem steps_of_step
    {maxAttempts : JsNumber} {isCurrent : Bool}
    {run run' : InitializerRun} {resources resources' : AmqpResources}
    {event : InitializerEvent}
    (stepped :
      run.step maxAttempts isCurrent resources event = some (run', resources')) :
    Steps maxAttempts isCurrent run resources event run' resources' := by
  obtain ⟨phase, connection⟩ := run
  unfold step at stepped
  split at stepped
  case h_1 before =>
    change phase = .scheduled at before
    subst before
    by_cases current : isCurrent = true
    · rw [if_pos current] at stepped
      cases stepped
      exact .moved (.began current)
    · rw [if_neg current] at stepped
      cases stepped
      exact .moved
        (.cancelled _ _ (Bool.eq_false_iff.mpr current) (Or.inl ⟨rfl, rfl⟩))
  case h_2 before =>
    change phase = .scheduled at before
    subst before
    simp only [Option.ite_none_right_eq_some, Option.some.injEq] at stepped
    obtain ⟨current, moved⟩ := stepped
    cases moved
    exact .moved (.uncreated current)
  case h_3 attempt before =>
    cases stepped
    exact .opened before
  case h_4 attempt before =>
    change phase = .connecting attempt at before
    subst before
    cases stepped
    exact .moved (.unopened attempt)
  case h_5 attempt amqplibConnection before =>
    dsimp only at stepped
    by_cases disposed : connection.isDisposed = true
    · rw [if_pos disposed] at stepped
      cases stepped
      exact .createdDisposed before disposed
    · rw [if_neg disposed] at stepped
      cases stepped
      exact .created before (Bool.eq_false_iff.mpr disposed)
  case h_6 attempt amqplibConnection before =>
    cases stepped
    exact .failed before
  case h_7 attempt before =>
    change phase = .disposingConnection attempt at before
    subst before
    cases stepped
    exact .moved (.rolledBack attempt)
  case h_8 attempt before =>
    change phase = .disposingChannel attempt at before
    subst before
    cases stepped
    exact .moved (.channelDisposed attempt)
  case h_9 attempt before =>
    change phase = .connected attempt at before
    subst before
    by_cases current : isCurrent = true
    · rw [if_pos current] at stepped
      cases stepped
      exact .moved (.handedOut attempt current)
    · rw [if_neg current] at stepped
      cases stepped
      exact .moved
        (.cancelled _ _ (Bool.eq_false_iff.mpr current)
          (Or.inr (Or.inl ⟨attempt, rfl, rfl⟩)))
  case h_10 attempt before =>
    change phase = .refused attempt at before
    subst before
    by_cases current : isCurrent = true
    · rw [if_pos current] at stepped
      by_cases last : JsNumber.ofNat attempt = maxAttempts
      · rw [if_pos last] at stepped
        cases stepped
        exact .moved (.exceeded attempt current last)
      · rw [if_neg last] at stepped
        cases stepped
        exact .moved (.postponed attempt current last)
    · rw [if_neg current] at stepped
      cases stepped
      exact .moved
        (.cancelled _ _ (Bool.eq_false_iff.mpr current)
          (Or.inr (Or.inr (Or.inl ⟨attempt, rfl, rfl⟩))))
  case h_11 attempt before =>
    change phase = .delaying attempt at before
    subst before
    by_cases current : isCurrent = true
    · rw [if_pos current] at stepped
      cases stepped
      exact .moved (.retried attempt current)
    · rw [if_neg current] at stepped
      cases stepped
      exact .moved
        (.cancelled _ _ (Bool.eq_false_iff.mpr current)
          (Or.inr (Or.inr (Or.inr ⟨attempt, rfl, rfl⟩))))
  case h_12 result before =>
    change phase = .returned result at before
    subst before
    cases stepped
    exact .moved (.finished result)
  case h_13 =>
    cases stepped

end InitializerRun

/-! ## A run that nobody cancels -/

namespace InitializerPhase

/-- The attempt that a run is making or has just made. -/
def attempt : InitializerPhase → Option ℕ
  | .connecting attempt => some attempt
  | .creatingChannel attempt _ => some attempt
  | .disposingConnection attempt => some attempt
  | .disposingChannel attempt => some attempt
  | .connected attempt => some attempt
  | .refused attempt => some attempt
  | .delaying attempt => some attempt
  | _ => none

/-- The last call of `connect` has resolved, and its outcome stands. -/
def isConnected : InitializerPhase → Bool
  | .connected _ => true
  | .returned .connection => true
  | .settled .connection => true
  | _ => false

theorem Moves.not_channelSettled
    {maxAttempts : JsNumber} {isCurrent : Bool}
    {phase phase' : InitializerPhase} {event : InitializerEvent}
    (moves : Moves maxAttempts isCurrent phase event phase')
    (settlement : Settlement) :
    event ≠ .channelSettled settlement := by
  intro same
  subst same
  cases moves with
  | cancelled _ _ superseded place =>
      rcases place with ⟨-, impossible⟩ | ⟨_, -, impossible⟩ |
        ⟨_, -, impossible⟩ | ⟨_, -, impossible⟩
      all_goals cases impossible

theorem nextAttempt_cases (maxAttempts : JsNumber) (attempt : ℕ) :
    nextAttempt maxAttempts attempt = .connecting attempt ∨
      nextAttempt maxAttempts attempt = .returned .connection := by
  unfold nextAttempt
  split
  · exact Or.inl rfl
  · exact Or.inr rfl

/-- The phases around a channel are only entered by way of the channel. -/
theorem Moves.not_channel
    {maxAttempts : JsNumber} {isCurrent : Bool}
    {phase phase' : InitializerPhase} {event : InitializerEvent}
    (moves : Moves maxAttempts isCurrent phase event phase') :
    (∀ attempt amqplibConnection,
        phase' ≠ .creatingChannel attempt amqplibConnection) ∧
      ∀ attempt, phase' ≠ .disposingChannel attempt := by
  cases moves with
  | began current =>
      rcases nextAttempt_cases maxAttempts 1 with next | next
      all_goals
        rw [next]
        exact ⟨nofun, nofun⟩
  | retried attempt current =>
      rcases nextAttempt_cases maxAttempts (attempt + 1) with next | next
      all_goals
        rw [next]
        exact ⟨nofun, nofun⟩
  | _ => exact ⟨nofun, nofun⟩

theorem nextAttempt_ofNat
    {maxAttempts attempt : ℕ} (within : attempt ≤ maxAttempts) :
    nextAttempt (.ofNat maxAttempts) attempt = .connecting attempt := by
  unfold nextAttempt
  rw [JsNumber.atMost_ofNat, decide_eq_true within]
  rfl

/-- With a positive integer of attempts the loop is never left at its head. -/
theorem Moves.within
    {maxAttempts : ℕ} {isCurrent : Bool}
    {phase phase' : InitializerPhase} {event : InitializerEvent}
    (moves : Moves (.ofNat maxAttempts) isCurrent phase event phase')
    (positive : 0 < maxAttempts)
    (bounded : ∀ attempt, phase.attempt = some attempt → attempt ≤ maxAttempts)
    (fewer :
      ∀ attempt, phase = .delaying attempt → attempt < maxAttempts) :
    (∀ attempt, phase'.attempt = some attempt → attempt ≤ maxAttempts) ∧
      (∀ attempt, phase' = .delaying attempt → attempt < maxAttempts) ∧
      (phase'.isConnected = true →
        phase.isConnected = true ∨ ∃ attempt, phase = .disposingChannel attempt) := by
  cases moves with
  | began current =>
      have first : nextAttempt (.ofNat maxAttempts) 1 = .connecting 1 :=
        nextAttempt_ofNat positive
      rw [first]
      refine ⟨?_, ?_, ?_⟩
      · intro attempt made
        cases made
        exact positive
      · intro attempt impossible
        cases impossible
      · intro impossible
        cases impossible
  | uncreated current => exact ⟨nofun, nofun, nofun⟩
  | unopened attempt =>
      exact ⟨bounded, nofun, nofun⟩
  | rolledBack attempt =>
      exact ⟨bounded, nofun, nofun⟩
  | channelDisposed attempt =>
      exact ⟨bounded, nofun, fun _ => Or.inr ⟨attempt, rfl⟩⟩
  | handedOut attempt current =>
      exact ⟨nofun, nofun, fun _ => Or.inl rfl⟩
  | exceeded attempt current last =>
      exact ⟨nofun, nofun, nofun⟩
  | postponed attempt current further =>
      refine ⟨bounded, ?_, nofun⟩
      intro later same
      cases same
      have atMost : attempt ≤ maxAttempts := bounded attempt rfl
      have different : attempt ≠ maxAttempts := by
        intro equal
        exact further (congrArg JsNumber.ofNat equal)
      omega
  | retried attempt current =>
      have within : attempt + 1 ≤ maxAttempts := fewer attempt rfl
      rw [nextAttempt_ofNat within]
      refine ⟨?_, nofun, nofun⟩
      intro later same
      cases same
      exact within
  | cancelled phase event superseded place =>
      exact ⟨nofun, nofun, nofun⟩
  | finished result =>
      refine ⟨nofun, nofun, ?_⟩
      intro connected
      exact Or.inl (by cases result <;> first | rfl | cases connected)

end InitializerPhase

namespace InitializerRun

/-- One call of `initializeConnection` that nobody cancels. -/
def uninterrupted (maxAttempts : ℕ) (resources : AmqpResources) :
    Machine (InitializerRun × AmqpResources) InitializerEvent where
  initial := (.create, resources)
  step := fun state event =>
    state.1.step (.ofNat maxAttempts) true state.2 event

/-- What holds of the run at every await. -/
structure OnTrack (maxAttempts : ℕ) (run : InitializerRun)
    (resources : AmqpResources) : Prop where
  bounded :
    ∀ attempt, run.phase.attempt = some attempt → attempt ≤ maxAttempts
  fewer : ∀ attempt, run.phase = .delaying attempt → attempt < maxAttempts
  owned :
    ∀ attempt amqplibConnection,
      run.phase = .creatingChannel attempt amqplibConnection →
        run.connection.amqplibConnection = some amqplibConnection
  rollingBack :
    ∀ attempt, run.phase = .disposingChannel attempt →
      run.connection.isDisposed = true
  usable :
    run.phase.isConnected = true → run.connection.isDisposed = false →
      run.connection.Usable resources

theorem onTrack_create (maxAttempts : ℕ) (resources : AmqpResources) :
    OnTrack maxAttempts .create resources :=
  ⟨nofun, nofun, nofun, nofun, nofun⟩

theorem OnTrack.steps
    {maxAttempts : ℕ} {run run' : InitializerRun}
    {resources resources' : AmqpResources} {event : InitializerEvent}
    (onTrack : OnTrack maxAttempts run resources)
    (positive : 0 < maxAttempts)
    (steps :
      Steps (.ofNat maxAttempts) true run resources event run' resources') :
    OnTrack maxAttempts run' resources' := by
  cases steps with
  | moved moves =>
      obtain ⟨bounded, fewer, connected⟩ :=
        moves.within positive onTrack.bounded onTrack.fewer
      refine ⟨bounded, fewer, ?_, ?_, ?_⟩
      · intro attempt amqplibConnection creating
        exact absurd creating (moves.not_channel.1 attempt amqplibConnection)
      · intro attempt disposing
        exact absurd disposing (moves.not_channel.2 attempt)
      · intro isConnected active
        rcases connected isConnected with before | ⟨attempt, before⟩
        · exact onTrack.usable before active
        · have disposed : run.connection.isDisposed = true :=
            onTrack.rollingBack attempt before
          exact absurd (active.symm.trans disposed) Bool.false_ne_true
  | @opened attempt before =>
      refine ⟨?_, nofun, ?_, nofun, nofun⟩
      · intro made same
        cases same
        exact onTrack.bounded attempt (by rw [before]; rfl)
      · intro made amqplibConnection same
        cases same
        rfl
  | @created attempt amqplibConnection before active =>
      refine ⟨?_, nofun, nofun, nofun, ?_⟩
      · intro made same
        cases same
        exact onTrack.bounded attempt (by rw [before]; rfl)
      · intro _ _
        have owned := onTrack.owned attempt amqplibConnection before
        rw [AmqpConnection.channelCreated_of_active resources
          amqplibConnection active]
        exact
          { not_disposed := active
            has_channel := ⟨_, rfl, owned⟩
            handles_connection :=
              ⟨Option.isSome_iff_exists.mpr ⟨_, owned⟩, owned.symm⟩
            handles_channels := rfl }
  | @createdDisposed attempt amqplibConnection before disposed =>
      refine ⟨?_, nofun, nofun, ?_, nofun⟩
      · intro made same
        cases same
        exact onTrack.bounded attempt (by rw [before]; rfl)
      · intro _ _
        exact
          (AmqpConnection.channelCreated_isDisposed run.connection resources
            amqplibConnection).trans disposed
  | @failed attempt amqplibConnection before =>
      refine ⟨?_, nofun, nofun, nofun, nofun⟩
      intro made same
      cases same
      exact onTrack.bounded attempt (by rw [before]; rfl)

/-- Only a failed channel creation disposes of the connection of a run. -/
theorem Steps.isDisposed_iff
    {maxAttempts : JsNumber} {isCurrent : Bool}
    {run run' : InitializerRun} {resources resources' : AmqpResources}
    {event : InitializerEvent}
    (steps :
      Steps maxAttempts isCurrent run resources event run' resources') :
    run'.connection.isDisposed = true ↔
      run.connection.isDisposed = true ∨ event = .channelSettled .rejected := by
  cases steps with
  | moved moves =>
      have different := moves.not_channelSettled .rejected
      exact ⟨Or.inl, fun either => either.resolve_right different⟩
  | opened before =>
      exact ⟨Or.inl, fun either => either.resolve_right nofun⟩
  | created before active =>
      rw [AmqpConnection.channelCreated_isDisposed]
      exact ⟨Or.inl, fun either => either.resolve_right nofun⟩
  | createdDisposed before disposed =>
      rw [AmqpConnection.channelCreated_isDisposed]
      exact ⟨Or.inl, fun either => either.resolve_right nofun⟩
  | failed before =>
      exact ⟨fun _ => Or.inr rfl, fun _ => rfl⟩

/-- A run without cancellation ends up with a connection that is not disposed of
exactly when none of its channel creations has failed. -/
theorem uninterrupted_active_iff
    {maxAttempts : ℕ} {resources resources' : AmqpResources}
    {run : InitializerRun} {schedule : List InitializerEvent}
    (execution :
      (uninterrupted maxAttempts resources).run (.create, resources) schedule =
        some (run, resources')) :
    run.connection.isDisposed = false ↔
      .channelSettled .rejected ∉ schedule := by
  have active_of_step :
      ∀ (state : InitializerRun × AmqpResources) (event : InitializerEvent)
        (next : InitializerRun × AmqpResources),
        (uninterrupted maxAttempts resources).step state event = some next →
          (next.1.connection.isDisposed = false ↔
            state.1.connection.isDisposed = false ∧
              event ≠ .channelSettled .rejected) := by
    intro state event next stepped
    have decided := (steps_of_step stepped).isDisposed_iff
    rw [← Bool.not_eq_true, decided, not_or, Bool.not_eq_true]
  have decided :=
    Machine.sound_iff_throughout
      (fun state : InitializerRun × AmqpResources =>
        state.1.connection.isDisposed = false)
      (fun _ event => event ≠ InitializerEvent.channelSettled .rejected)
      (fun _ _ _ _ _ => trivial)
      (fun state event next _ stepped sound =>
        ((active_of_step state event next stepped).mp sound).1)
      (fun state event next _ sound stepped =>
        (active_of_step state event next stepped).trans (and_iff_right sound))
      trivial rfl execution
  rw [decided, Machine.throughout_events_iff execution]
  constructor
  · intro allowed failed
    exact allowed _ failed rfl
  · intro absent event member same
    exact absent (same ▸ member)

/-- A connection that is handed out is usable exactly when no channel creation
has failed before: the flag set by the rollback of a failed channel creation
outlives the attempt, and the attempt that succeeds takes it for a disposal. -/
theorem handedOut_usable_iff
    (maxAttempts : ℕ) (resources resources' : AmqpResources)
    (schedule : List InitializerEvent) (run : InitializerRun)
    (positive : 0 < maxAttempts)
    (execution :
      (uninterrupted maxAttempts resources).run (.create, resources) schedule =
        some (run, resources'))
    (handedOut : run.phase = .settled .connection) :
    run.connection.Usable resources' ↔
      .channelSettled .rejected ∉ schedule := by
  have preserved :
      (uninterrupted maxAttempts resources).Preserved
        (fun state => OnTrack maxAttempts state.1 state.2) := by
    intro state event next onTrack stepped
    exact onTrack.steps positive (steps_of_step stepped)
  have onTrack : OnTrack maxAttempts run resources' :=
    Machine.run_invariant preserved (onTrack_create maxAttempts resources)
      execution
  have isConnected : run.phase.isConnected = true := by
    rw [handedOut]
    rfl
  constructor
  · intro usable
    exact (uninterrupted_active_iff execution).mp usable.not_disposed
  · intro absent
    exact onTrack.usable isConnected
      ((uninterrupted_active_iff execution).mpr absent)

/-- Nothing opened, no channel in the container. -/
def unusedResources : AmqpResources where
  opened := 0
  created := 0
  channel := none
  disposedConnections := []
  disposedChannels := []

/-- The first attempt cannot connect, the second one succeeds. -/
def secondAttempt : List InitializerEvent :=
  [.started, .connectionSettled .rejected, .resumed, .delayed,
    .connectionSettled .fulfilled, .channelSettled .fulfilled, .resumed,
    .finished]

theorem handedOut_usable_iff_secondAttempt :
    ∃ run resources,
      (uninterrupted 2 unusedResources).run (.create, unusedResources)
          secondAttempt = some (run, resources) ∧
        (run.connection.Usable resources ↔
          .channelSettled .rejected ∉ secondAttempt) :=
  ⟨_, _, rfl,
    handedOut_usable_iff 2 unusedResources _ secondAttempt _ (by decide) rfl rfl⟩

/-- The first attempt fails at its channel, the second one succeeds at both. -/
def attemptAfterFailedChannel : List InitializerEvent :=
  [.started, .connectionSettled .fulfilled, .channelSettled .rejected,
    .disposed, .resumed, .delayed, .connectionSettled .fulfilled,
    .channelSettled .fulfilled, .disposed, .resumed, .finished]

theorem attemptAfterFailedChannel_unusable :
    ¬ ∀ (maxAttempts : ℕ) (resources resources' : AmqpResources)
        (schedule : List InitializerEvent) (run : InitializerRun),
        0 < maxAttempts →
        (uninterrupted maxAttempts resources).run (.create, resources)
            schedule = some (run, resources') →
        run.phase = .settled .connection →
        run.connection.Usable resources' := by
  intro always
  have usable :=
    always 2 unusedResources _ attemptAfterFailedChannel _ (by decide) rfl rfl
  exact Bool.false_ne_true usable.not_disposed.symm

end InitializerRun

end Amq.Core
