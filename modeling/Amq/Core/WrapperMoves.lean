import Amq.Core.AmqpSystem
import Amq.Core.ChannelCustody

/-!
# How a wrapper goes on

The calls of `connect`, `reconnect` and `dispose` exclude each other, so a wrapper is
always in one of seven modes.  `Moves` lists what a step can do in them and which
effects it has on the calls of the executors.
-/

namespace Amq.Core

open Amq.Transition

namespace AmqpConnectionWrapper

/-! ## Modes -/

/-- Someone waits for the promise of the last run, which nobody has cancelled. -/
inductive Awaited (wrapper : AmqpConnectionWrapper) (run : ℕ) : Prop where
  | pending (current : InitializerRun)
      (found : wrapper.runs[run]? = some current)
      (last : wrapper.IsLast run)
      (promise : wrapper.connectionPromise = some run)
      (unsettled : ∀ result, current.phase ≠ .settled result)
      (wanted : current.phase ≠ .returned .cancelled)
  | settled (current : InitializerRun) (result : InitializerResult)
      (found : wrapper.runs[run]? = some current)
      (last : wrapper.IsLast run)
      (promise : wrapper.connectionPromise = none)
      (settled : current.phase = .settled result)
      (wanted : result ≠ .cancelled)

/-- The last connection has been given up, and no run is under way. -/
structure Retired (wrapper : AmqpConnectionWrapper) : Prop where
  promise : wrapper.connectionPromise = none
  ended :
    ∀ (run : ℕ) (current : InitializerRun), wrapper.runs[run]? = some current →
      wrapper.IsLast run →
        (∃ result, current.phase = .settled result) ∧
          current.connection.isDisposed = true

/-- Before `connect`. -/
structure Unused (wrapper : AmqpConnectionWrapper) : Prop where
  state : wrapper.state = .ready
  container : wrapper.container = none
  listens : wrapper.listens = false
  isCancelled : wrapper.isCancelled = false
  connecting : wrapper.connecting = none
  reconnecting : wrapper.reconnecting = none
  promise : wrapper.connectionPromise = none
  runs : wrapper.runs = []

/-- In `connect`. -/
structure Connecting (wrapper : AmqpConnectionWrapper) (run : ℕ) : Prop where
  state : wrapper.state = .connected
  container : wrapper.container = none
  listens : wrapper.listens = false
  isCancelled : wrapper.isCancelled = false
  connecting : wrapper.connecting = some run
  reconnecting : wrapper.reconnecting = none
  awaited : wrapper.Awaited run

/-- `connect` has failed. -/
structure Refused (wrapper : AmqpConnectionWrapper) : Prop where
  state : wrapper.state = .disposed
  container : wrapper.container = none
  listens : wrapper.listens = false
  isCancelled : wrapper.isCancelled = false
  connecting : wrapper.connecting = none
  reconnecting : wrapper.reconnecting = none

/-- The last connection is in use. -/
structure Online (wrapper : AmqpConnectionWrapper) (run : ℕ) : Prop where
  state : wrapper.state = .connected
  container : wrapper.container = some run
  listens : wrapper.listens = true
  isCancelled : wrapper.isCancelled = false
  connecting : wrapper.connecting = none
  reconnecting : wrapper.reconnecting = none
  promise : wrapper.connectionPromise = none
  handedOut : wrapper.HandedOut run
  last : wrapper.IsLast run

/-- In `reconnect`, before its run of the initializer. -/
structure Replacing (wrapper : AmqpConnectionWrapper) : Prop where
  state : wrapper.state = .connected
  container : wrapper.container = none
  listens : wrapper.listens = true
  isCancelled : wrapper.isCancelled = false
  connecting : wrapper.connecting = none
  reconnecting : wrapper.reconnecting = some .disposingOld
  retired : wrapper.Retired

/-- In `reconnect`, during its run of the initializer. -/
structure Reconnecting (wrapper : AmqpConnectionWrapper) (run : ℕ) : Prop where
  state : wrapper.state = .connected
  container : wrapper.container = none
  listens : wrapper.listens = true
  isCancelled : wrapper.isCancelled = false
  connecting : wrapper.connecting = none
  reconnecting : wrapper.reconnecting = some (.awaiting run)
  awaited : wrapper.Awaited run

/-- The call that a wrapper without a connection has not finished. -/
inductive Pending (wrapper : AmqpConnectionWrapper) : Prop where
  | idle (connecting : wrapper.connecting = none)
      (awaiting : ∀ run, wrapper.reconnecting ≠ some (.awaiting run))
      (replacing : wrapper.reconnecting ≠ some .disposingOld)
  | connecting (run : ℕ) (connecting : wrapper.connecting = some run)
      (reconnecting : wrapper.reconnecting = none)
      (last : wrapper.IsLast run)
  | reconnecting (run : ℕ) (connecting : wrapper.connecting = none)
      (reconnecting : wrapper.reconnecting = some (.awaiting run))
      (last : wrapper.IsLast run)
  | replacing (connecting : wrapper.connecting = none)
      (reconnecting : wrapper.reconnecting = some .disposingOld)
      (retired : wrapper.Retired)

/-- `dispose` has been called. -/
structure Disposed (wrapper : AmqpConnectionWrapper) : Prop where
  state : wrapper.state = .disposed
  container : wrapper.container = none
  isCancelled : wrapper.isCancelled = true
  pending : wrapper.Pending

inductive Mode (wrapper : AmqpConnectionWrapper) : Prop where
  | unused (unused : wrapper.Unused)
  | connecting (run : ℕ) (connecting : wrapper.Connecting run)
  | refused (refused : wrapper.Refused)
  | online (run : ℕ) (online : wrapper.Online run)
  | replacing (replacing : wrapper.Replacing)
  | reconnecting (run : ℕ) (reconnecting : wrapper.Reconnecting run)
  | disposed (disposed : wrapper.Disposed)

structure Orderly (wrapper : AmqpConnectionWrapper) : Prop where
  mode : wrapper.Mode
  custody : wrapper.Custody

theorem orderly_create : Orderly create :=
  ⟨.unused ⟨rfl, rfl, rfl, rfl, rfl, rfl, rfl, rfl⟩, custody_create⟩

/-! ## What a step does -/

/-- What `dispose` does to the wrapper before it calls that of the connection. -/
def shut (wrapper : AmqpConnectionWrapper) : AmqpConnectionWrapper :=
  { wrapper with
    state := .disposed
    isCancelled := true
    listens := false
    container := none
    connectionPromise := none }

/-- What `reconnect` does before it calls `dispose` of the old connection. -/
def released (wrapper : AmqpConnectionWrapper) : AmqpConnectionWrapper :=
  { wrapper with container := none, reconnecting := some .disposingOld }

/-- The calls of `initializeConnection` in `connect` and `reconnect`. -/
def withRun (wrapper : AmqpConnectionWrapper) : AmqpConnectionWrapper :=
  { wrapper with
    connectionPromise := some wrapper.runs.length
    runs := wrapper.runs ++ [.create] }

/-- `dispose` of the connection of a run; a `recreateChannel` that has failed has
ended before. -/
inductive Disposal (wrapper : AmqpConnectionWrapper) (run : ℕ) :
    List WrapperEffect → AmqpConnectionWrapper → Prop where
  | ignored
      (inactive :
        ∀ (current : InitializerRun), wrapper.runs[run]? = some current →
          current.connection.isDisposed = true) :
      Disposal wrapper run [] wrapper
  | disposed (current : InitializerRun) (connection : AmqpConnection)
      (found : wrapper.runs[run]? = some current)
      (last : wrapper.IsLast run)
      (active : current.connection.isDisposed = false)
      (ended :
        connection = current.connection ∨
          connection = { current.connection with recreatingChannel := none }) :
      Disposal wrapper run [.cancelChannelCommands run]
        { wrapper with
          runs :=
            wrapper.runs.set run
              { current with
                connection := (connection.dispose wrapper.resources).1 }
          resources := (connection.dispose wrapper.resources).2 }

/-- Why a connection is given up. -/
def IsLost
    (wrapper : AmqpConnectionWrapper) (event : WrapperEvent) (run : ℕ) : Prop :=
  event = .connectionBecameUnavailable ∨
    ∃ current, wrapper.runs[run]? = some current ∧
      ((event = .connectionLost run ∧
          (current.connection.handledConnection.isSome ∨
            current.connection.handlesChannels = true)) ∨
        (event = .channelRecreationSettled run .rejected ∧
          current.connection.recreatingChannel ≠ none))

inductive Moves (maxAttempts : JsNumber) (wrapper : AmqpConnectionWrapper) :
    WrapperEvent → List WrapperEffect → AmqpConnectionWrapper → Prop where
  | ignored {event : WrapperEvent}
      (served :
        event = .connectionBecameUnavailable → wrapper.reconnecting ≠ none) :
      Moves maxAttempts wrapper event [] wrapper
  | connects (unused : wrapper.Unused) :
      Moves maxAttempts wrapper .connectCalled []
        { wrapper.withRun with
          state := .connected
          connecting := some wrapper.runs.length }
  | disposes (state : wrapper.state = .connected)
      (container : wrapper.container = none) (pending : wrapper.Pending) :
      Moves maxAttempts wrapper .disposeCalled [.cancelCommands] wrapper.shut
  | disposesOnline {run : ℕ} {effects : List WrapperEffect}
      {next : AmqpConnectionWrapper} (online : wrapper.Online run)
      (disposal : wrapper.shut.Disposal run effects next) :
      Moves maxAttempts wrapper .disposeCalled (.cancelCommands :: effects) next
  | initializes {run : ℕ} {event : InitializerEvent}
      {current next : InitializerRun} {resources : AmqpResources}
      (found : wrapper.runs[run]? = some current)
      (steps :
        InitializerRun.Steps maxAttempts (wrapper.connectionPromise == some run)
          current wrapper.resources event next resources) :
      Moves maxAttempts wrapper (.initializer run event)
        (wrapper.initializerEffects run event)
        { wrapper with
          runs := wrapper.runs.set run next
          resources := resources
          connectionPromise :=
            if event = .finished then none else wrapper.connectionPromise }
  | connectFails {run : ℕ} {error : InitializerError}
      (connecting : wrapper.Connecting run)
      (rejected : wrapper.settledResult run = some (.rejected error)) :
      Moves maxAttempts wrapper .connectResumed []
        { wrapper with connecting := none, state := .disposed }
  | connectSucceeds {run : ℕ} (connecting : wrapper.Connecting run)
      (last : wrapper.IsLast run) (promise : wrapper.connectionPromise = none)
      (handedOut : wrapper.HandedOut run) :
      Moves maxAttempts wrapper .connectResumed [.connectionAvailable run]
        { wrapper with
          connecting := none, container := some run, listens := true }
  | connectEnds {run : ℕ} {listens : Bool} (disposed : wrapper.Disposed)
      (connecting : wrapper.connecting = some run) :
      Moves maxAttempts wrapper .connectResumed []
        { wrapper with connecting := none, container := none, listens := listens }
  | connectRollsBack {run : ℕ} {effects : List WrapperEffect}
      {next : AmqpConnectionWrapper} (disposed : wrapper.Disposed)
      (connecting : wrapper.connecting = some run)
      (disposal :
        Disposal { wrapper with connecting := none } run effects next) :
      Moves maxAttempts wrapper .connectResumed effects next
  | replaces (mode : wrapper.Replacing ∨ wrapper.Disposed)
      (connecting : wrapper.connecting = none)
      (reconnecting : wrapper.reconnecting = some .disposingOld)
      (retired : wrapper.Retired) :
      Moves maxAttempts wrapper .oldConnectionDisposed []
        { wrapper.withRun with
          reconnecting := some (.awaiting wrapper.runs.length) }
  | reconnectFails {run : ℕ} (reconnecting : wrapper.Reconnecting run) :
      Moves maxAttempts wrapper .reconnectResumed
        [.emitted .closed, .cancelCommands]
        { wrapper.shut with reconnecting := some .finishing }
  | reconnectSucceeds {run : ℕ} (reconnecting : wrapper.Reconnecting run)
      (last : wrapper.IsLast run) (promise : wrapper.connectionPromise = none)
      (handedOut : wrapper.HandedOut run) :
      Moves maxAttempts wrapper .reconnectResumed
        [.connectionAvailable run, .resumeCommands, .emitted .reconnected]
        { wrapper with container := some run, reconnecting := none }
  | reconnectEnds {run : ℕ} (disposed : wrapper.Disposed)
      (reconnecting : wrapper.reconnecting = some (.awaiting run)) :
      Moves maxAttempts wrapper .reconnectResumed []
        { wrapper with reconnecting := none }
  | reconnectCancelled {run : ℕ} (disposed : wrapper.Disposed)
      (reconnecting : wrapper.reconnecting = some (.awaiting run))
      (cancelled : wrapper.settledResult run = some .cancelled) :
      Moves maxAttempts wrapper .reconnectResumed
        [.resumeCommands, .emitted .reconnected]
        { wrapper with container := none, reconnecting := none }
  | reconnectRollsBack {run : ℕ} {effects : List WrapperEffect}
      {next : AmqpConnectionWrapper} (disposed : wrapper.Disposed)
      (reconnecting : wrapper.reconnecting = some (.awaiting run))
      (disposal :
        Disposal { wrapper with reconnecting := some .finishing } run effects
          next) :
      Moves maxAttempts wrapper .reconnectResumed effects next
  | reconnectFinishes (disposed : wrapper.Disposed)
      (reconnecting : wrapper.reconnecting = some .finishing) :
      Moves maxAttempts wrapper .reconnectFinished []
        { wrapper with reconnecting := none }
  | loses {run : ℕ} {event : WrapperEvent} {effects : List WrapperEffect}
      {next : AmqpConnectionWrapper} (online : wrapper.Online run)
      (lost : wrapper.IsLost event run)
      (disposal : wrapper.released.Disposal run effects next) :
      Moves maxAttempts wrapper event effects next
  | drops {run : ℕ} {event : WrapperEvent} {effects : List WrapperEffect}
      {next : AmqpConnectionWrapper} (elsewhere : wrapper.container ≠ some run)
      (lost : wrapper.IsLost event run)
      (served : event ≠ .connectionBecameUnavailable)
      (disposal : wrapper.Disposal run effects next) :
      Moves maxAttempts wrapper event effects next
  | losesChannel {run : ℕ} {current : InitializerRun}
      (found : wrapper.runs[run]? = some current)
      (listens : current.connection.handlesChannels = true) :
      Moves maxAttempts wrapper (.channelLost run) []
        (wrapper.withConnection run AmqpConnection.recreateChannel)
  | recreatesChannel {run amqplibConnection : ℕ} {current : InitializerRun}
      {emissions : List WrapperEffect}
      (found : wrapper.runs[run]? = some current)
      (active : current.connection.isDisposed = false)
      (recreating :
        current.connection.recreatingChannel = some amqplibConnection)
      (announced :
        emissions = [] ∨
          (emissions = [.emitted .channelRecreated] ∧ wrapper.Online run)) :
      Moves maxAttempts wrapper (.channelRecreationSettled run .fulfilled)
        ([.channelAvailable ⟨amqplibConnection, wrapper.resources.created⟩,
            .resumeChannelCommands run] ++ emissions)
        (wrapper.withConnection run fun connection resources =>
          connection.channelRecreated resources amqplibConnection)
  | dropsChannel {run : ℕ} {settlement : Settlement} {current : InitializerRun}
      {resources : AmqpResources}
      (found : wrapper.runs[run]? = some current)
      (disposed : current.connection.isDisposed = true)
      (opened : resources.opened = wrapper.resources.opened)
      (channel : resources.channel = wrapper.resources.channel) :
      Moves maxAttempts wrapper (.channelRecreationSettled run settlement) []
        { wrapper with
          runs :=
            wrapper.runs.set run
              { current with
                connection :=
                  { current.connection with recreatingChannel := none } }
          resources := resources }

/-! ### Disposal of a connection -/

theorem disposal_of_last
    {wrapper : AmqpConnectionWrapper} {run : ℕ}
    (last :
      ∀ (current : InitializerRun), wrapper.runs[run]? = some current →
        current.connection.isDisposed = false → wrapper.IsLast run) :
    wrapper.Disposal run (wrapper.disposalEffects run)
      (wrapper.disposeConnection run) := by
  unfold disposalEffects disposeConnection
  cases found : wrapper.runs[run]? with
  | none =>
      have absent :
          wrapper.withConnection run AmqpConnection.dispose = wrapper := by
        unfold withConnection
        rw [found]
      rw [absent]
      refine .ignored ?_
      intro current present
      cases found.symm.trans present
  | some current =>
      rw [withConnection_of_found AmqpConnection.dispose found]
      dsimp only
      by_cases disposed : current.connection.isDisposed = true
      · rw [if_pos disposed,
          AmqpConnection.dispose_of_disposed wrapper.resources disposed]
        have same : wrapper.runs.set run current = wrapper.runs := by
          obtain ⟨inRange, here⟩ := List.getElem?_eq_some_iff.mp found
          rw [← here]
          exact List.set_getElem_self inRange
        dsimp only
        rw [same]
        refine .ignored ?_
        intro other present
        cases found.symm.trans present
        exact disposed
      · rw [if_neg disposed]
        have active := Bool.eq_false_iff.mpr disposed
        exact .disposed current current.connection found (last current found active)
          active (Or.inl rfl)

/-- A connection that listens belongs to the last run. -/
theorem Orderly.last_of_lost
    {wrapper : AmqpConnectionWrapper} {run : ℕ} {current : InitializerRun}
    (orderly : wrapper.Orderly) (found : wrapper.runs[run]? = some current)
    (active : current.connection.isDisposed = false)
    (used :
      current.connection.handledConnection.isSome ∨
        current.connection.handlesChannels = true ∨
        current.connection.recreatingChannel ≠ none) :
    wrapper.IsLast run := by
  apply orderly.custody.last found
  left
  by_contra silent
  have unused :=
    (orderly.custody.records run current found).unused
      (Bool.eq_false_iff.mpr silent) active
  rcases used with handled | listens | recreating
  · rw [unused.1] at handled
    cases handled
  · exact silent listens
  · exact recreating unused.2

/-! ### The mode of a step -/

theorem Orderly.online_of_container
    {wrapper : AmqpConnectionWrapper} {run : ℕ}
    (orderly : wrapper.Orderly) (holds : wrapper.container = some run) :
    wrapper.Online run := by
  cases orderly.mode with
  | unused unused => cases unused.container.symm.trans holds
  | connecting other connecting => cases connecting.container.symm.trans holds
  | refused refused => cases refused.container.symm.trans holds
  | online other online =>
      cases online.container.symm.trans holds
      exact online
  | replacing replacing => cases replacing.container.symm.trans holds
  | reconnecting other reconnecting =>
      cases reconnecting.container.symm.trans holds
  | disposed disposed => cases disposed.container.symm.trans holds

theorem Orderly.connecting_or_disposed
    {wrapper : AmqpConnectionWrapper} {run : ℕ}
    (orderly : wrapper.Orderly) (connecting : wrapper.connecting = some run) :
    wrapper.Connecting run ∨ wrapper.Disposed := by
  cases orderly.mode with
  | unused unused => cases unused.connecting.symm.trans connecting
  | connecting other waiting =>
      cases waiting.connecting.symm.trans connecting
      exact Or.inl waiting
  | refused refused => cases refused.connecting.symm.trans connecting
  | online other online => cases online.connecting.symm.trans connecting
  | replacing replacing => cases replacing.connecting.symm.trans connecting
  | reconnecting other reconnecting =>
      cases reconnecting.connecting.symm.trans connecting
  | disposed disposed => exact Or.inr disposed

theorem Orderly.reconnecting_or_disposed
    {wrapper : AmqpConnectionWrapper} {phase : ReconnectPhase}
    (orderly : wrapper.Orderly)
    (reconnecting : wrapper.reconnecting = some phase) :
    (phase = .disposingOld ∧ wrapper.Replacing) ∨
      (∃ run, phase = .awaiting run ∧ wrapper.Reconnecting run) ∨
      wrapper.Disposed := by
  cases orderly.mode with
  | unused unused => cases unused.reconnecting.symm.trans reconnecting
  | connecting other waiting => cases waiting.reconnecting.symm.trans reconnecting
  | refused refused => cases refused.reconnecting.symm.trans reconnecting
  | online other online => cases online.reconnecting.symm.trans reconnecting
  | replacing replacing =>
      cases replacing.reconnecting.symm.trans reconnecting
      exact Or.inl ⟨rfl, replacing⟩
  | reconnecting other waiting =>
      cases waiting.reconnecting.symm.trans reconnecting
      exact Or.inr (Or.inl ⟨other, rfl, waiting⟩)
  | disposed disposed => exact Or.inr (Or.inr disposed)

theorem settledResult_iff
    {wrapper : AmqpConnectionWrapper} {run : ℕ} {result : InitializerResult} :
    wrapper.settledResult run = some result ↔
      ∃ current, wrapper.runs[run]? = some current ∧
        current.phase = .settled result := by
  unfold settledResult
  constructor
  · intro decided
    split at decided
    case h_1 other connection found =>
      cases decided
      exact ⟨_, found, rfl⟩
    case h_2 => cases decided
  · rintro ⟨⟨phase, connection⟩, found, settled⟩
    change phase = .settled result at settled
    subst settled
    rw [found]

theorem Awaited.of_settled
    {wrapper : AmqpConnectionWrapper} {run : ℕ} {result : InitializerResult}
    (awaited : wrapper.Awaited run)
    (decided : wrapper.settledResult run = some result) :
    wrapper.IsLast run ∧ wrapper.connectionPromise = none ∧
      result ≠ .cancelled := by
  obtain ⟨other, atOther, settled⟩ := settledResult_iff.mp decided
  cases awaited with
  | pending current found last promise unsettled wanted =>
      cases found.symm.trans atOther
      exact absurd settled (unsettled result)
  | settled current kept found last promise settled' wanted =>
      cases found.symm.trans atOther
      cases settled'.symm.trans settled
      exact ⟨last, promise, wanted⟩

theorem Awaited.last
    {wrapper : AmqpConnectionWrapper} {run : ℕ}
    (awaited : wrapper.Awaited run) : wrapper.IsLast run := by
  cases awaited with
  | pending current found last promise unsettled wanted => exact last
  | settled current result found last promise settled wanted => exact last

theorem Disposed.last_of_connecting
    {wrapper : AmqpConnectionWrapper} {run : ℕ}
    (disposed : wrapper.Disposed) (connecting : wrapper.connecting = some run) :
    wrapper.IsLast run ∧ wrapper.reconnecting = none := by
  cases disposed.pending with
  | idle idle awaiting replacing => cases idle.symm.trans connecting
  | connecting other waiting reconnecting last =>
      cases waiting.symm.trans connecting
      exact ⟨last, reconnecting⟩
  | reconnecting other idle reconnecting last => cases idle.symm.trans connecting
  | replacing idle reconnecting retired => cases idle.symm.trans connecting

theorem Disposed.last_of_awaiting
    {wrapper : AmqpConnectionWrapper} {run : ℕ}
    (disposed : wrapper.Disposed)
    (awaiting : wrapper.reconnecting = some (.awaiting run)) :
    wrapper.IsLast run ∧ wrapper.connecting = none := by
  cases disposed.pending with
  | idle idle none replacing => exact absurd awaiting (none run)
  | connecting other waiting reconnecting last =>
      cases reconnecting.symm.trans awaiting
  | reconnecting other idle reconnecting last =>
      cases reconnecting.symm.trans awaiting
      exact ⟨last, idle⟩
  | replacing idle reconnecting retired => cases reconnecting.symm.trans awaiting

/-! ### One lemma for each event -/

section Events

variable {wrapper : AmqpConnectionWrapper} (maxAttempts : JsNumber)

theorem Orderly.moves_connect (orderly : wrapper.Orderly) :
    Moves maxAttempts wrapper .connectCalled [] wrapper.connect := by
  have started (state : wrapper.state ≠ .ready) :
      Moves maxAttempts wrapper .connectCalled [] wrapper.connect := by
    have same : wrapper.connect = wrapper := by
      unfold connect
      split
      · rfl
      · rfl
      case h_3 ready => exact absurd ready state
    rw [same]
    exact .ignored nofun
  cases orderly.mode with
  | unused unused =>
      have next :
          wrapper.connect =
            { wrapper.withRun with
              state := .connected
              connecting := some wrapper.runs.length } := by
        unfold connect initializeConnection withRun
        rw [unused.state]
        dsimp only
        rw [unused.promise]
      rw [next]
      exact .connects unused
  | connecting run connecting => exact started (by rw [connecting.state]; nofun)
  | refused refused => exact started (by rw [refused.state]; nofun)
  | online run online => exact started (by rw [online.state]; nofun)
  | replacing replacing => exact started (by rw [replacing.state]; nofun)
  | reconnecting run reconnecting =>
      exact started (by rw [reconnecting.state]; nofun)
  | disposed disposed => exact started (by rw [disposed.state]; nofun)

theorem dispose_of_connected
    (state : wrapper.state = .connected) (container : wrapper.container = none) :
    wrapper.dispose = wrapper.shut ∧
      wrapper.disposeEffects = [.cancelCommands] := by
  unfold dispose disposeEffects
  rw [state, container]
  exact ⟨rfl, rfl⟩

theorem Orderly.moves_dispose (orderly : wrapper.Orderly) :
    Moves maxAttempts wrapper .disposeCalled wrapper.disposeEffects
      wrapper.dispose := by
  have inactive (state : wrapper.state ≠ .connected) :
      Moves maxAttempts wrapper .disposeCalled wrapper.disposeEffects
        wrapper.dispose := by
    have same : wrapper.dispose = wrapper ∧ wrapper.disposeEffects = [] := by
      unfold dispose disposeEffects
      cases current : wrapper.state with
      | ready => exact ⟨rfl, rfl⟩
      | disposed => exact ⟨rfl, rfl⟩
      | connected => exact absurd current state
    rw [same.1, same.2]
    exact .ignored nofun
  have empty (state : wrapper.state = .connected)
      (container : wrapper.container = none) (pending : wrapper.Pending) :
      Moves maxAttempts wrapper .disposeCalled wrapper.disposeEffects
        wrapper.dispose := by
    obtain ⟨next, effects⟩ := dispose_of_connected state container
    rw [next, effects]
    exact .disposes state container pending
  cases orderly.mode with
  | unused unused => exact inactive (by rw [unused.state]; nofun)
  | connecting run connecting =>
      exact empty connecting.state connecting.container
        (.connecting run connecting.connecting connecting.reconnecting
          connecting.awaited.last)
  | refused refused => exact inactive (by rw [refused.state]; nofun)
  | online run online =>
      have next : wrapper.dispose = wrapper.shut.disposeConnection run := by
        unfold dispose
        rw [online.state, online.container]
        rfl
      have effects :
          wrapper.disposeEffects =
            .cancelCommands :: wrapper.shut.disposalEffects run := by
        unfold disposeEffects
        rw [online.state, online.container]
        rfl
      rw [next, effects]
      exact .disposesOnline online (disposal_of_last fun _ _ _ => online.last)
  | replacing replacing =>
      exact empty replacing.state replacing.container
        (.replacing replacing.connecting replacing.reconnecting
          replacing.retired)
  | reconnecting run reconnecting =>
      exact empty reconnecting.state reconnecting.container
        (.reconnecting run reconnecting.connecting reconnecting.reconnecting
          reconnecting.awaited.last)
  | disposed disposed => exact inactive (by rw [disposed.state]; nofun)

theorem Orderly.moves_connectResumed
    {run : ℕ} {result : InitializerResult} (orderly : wrapper.Orderly)
    (connecting : wrapper.connecting = some run)
    (decided : wrapper.settledResult run = some result) :
    Moves maxAttempts wrapper .connectResumed
      (wrapper.connectResumedEffects run result)
      (wrapper.connectResumed run result) := by
  unfold connectResumedEffects connectResumed
  rcases orderly.connecting_or_disposed connecting with waiting | disposed
  · obtain ⟨last, promise, wanted⟩ := waiting.awaited.of_settled decided
    have active : wrapper.state ≠ .disposed := by
      rw [waiting.state]
      exact nofun
    cases result with
    | rejected error => exact .connectFails waiting decided
    | cancelled => exact absurd rfl wanted
    | connection =>
        dsimp only
        rw [if_neg active, if_neg active]
        exact .connectSucceeds waiting last promise (settledResult_iff.mp decided)
  · have last := disposed.last_of_connecting connecting
    cases result with
    | rejected error =>
        have same :
            { wrapper with connecting := none, state := .disposed } =
              { wrapper with
                connecting := none
                container := none
                listens := wrapper.listens } := by
          rw [← disposed.state, ← disposed.container]
        dsimp only
        rw [same]
        exact .connectEnds disposed connecting
    | cancelled => exact .connectEnds disposed connecting
    | connection =>
        dsimp only
        rw [if_pos disposed.state, if_pos disposed.state]
        exact .connectRollsBack disposed connecting
          (disposal_of_last fun _ _ _ => last.1)

theorem Orderly.moves_oldConnectionDisposed
    (orderly : wrapper.Orderly)
    (reconnecting : wrapper.reconnecting = some .disposingOld) :
    Moves maxAttempts wrapper .oldConnectionDisposed []
      wrapper.awaitConnection := by
  have next (promise : wrapper.connectionPromise = none) :
      wrapper.awaitConnection =
        { wrapper.withRun with
          reconnecting := some (.awaiting wrapper.runs.length) } := by
    unfold awaitConnection initializeConnection withRun
    rw [promise]
  rcases orderly.reconnecting_or_disposed reconnecting with
    ⟨_, replacing⟩ | ⟨run, impossible, _⟩ | disposed
  · rw [next replacing.retired.promise]
    exact .replaces (Or.inl replacing) replacing.connecting reconnecting
      replacing.retired
  · cases impossible
  · cases disposed.pending with
    | idle idle awaiting none => exact absurd reconnecting none
    | connecting run waiting none last => cases none.symm.trans reconnecting
    | reconnecting run idle awaiting last =>
        cases awaiting.symm.trans reconnecting
    | replacing idle same retired =>
        rw [next retired.promise]
        exact .replaces (Or.inr disposed) idle reconnecting retired

theorem Orderly.moves_reconnectResumed
    {run : ℕ} {result : InitializerResult} (orderly : wrapper.Orderly)
    (reconnecting : wrapper.reconnecting = some (.awaiting run))
    (decided : wrapper.settledResult run = some result) :
    Moves maxAttempts wrapper .reconnectResumed
      (wrapper.reconnectResumedEffects run result)
      (wrapper.reconnectResumed run result) := by
  unfold reconnectResumedEffects reconnectResumed
  rcases orderly.reconnecting_or_disposed reconnecting with
    ⟨impossible, _⟩ | ⟨other, same, waiting⟩ | disposed
  · cases impossible
  · cases same
    obtain ⟨last, promise, wanted⟩ := waiting.awaited.of_settled decided
    have active : wrapper.state ≠ .disposed := by
      rw [waiting.state]
      exact nofun
    cases result with
    | rejected error =>
        have closing :
            dispose { wrapper with reconnecting := some .finishing } =
              { wrapper.shut with reconnecting := some .finishing } := by
          unfold dispose
          rw [waiting.state, waiting.container]
          rfl
        dsimp only
        rw [if_neg active, if_neg active, closing,
          (dispose_of_connected waiting.state waiting.container).2]
        exact .reconnectFails waiting
    | cancelled => exact absurd rfl wanted
    | connection =>
        dsimp only
        rw [if_neg active, if_neg active]
        exact .reconnectSucceeds waiting last promise
          (settledResult_iff.mp decided)
  · have last := disposed.last_of_awaiting reconnecting
    cases result with
    | rejected error =>
        dsimp only
        rw [if_pos disposed.state, if_pos disposed.state]
        exact .reconnectEnds disposed reconnecting
    | cancelled => exact .reconnectCancelled disposed reconnecting decided
    | connection =>
        dsimp only
        rw [if_pos disposed.state, if_pos disposed.state]
        exact .reconnectRollsBack disposed reconnecting
          (disposal_of_last fun _ _ _ => last.1)

theorem Online.reconnect
    {run : ℕ} (online : wrapper.Online run) :
    wrapper.reconnect = wrapper.released.disposeConnection run ∧
      wrapper.reconnectEffects = wrapper.released.disposalEffects run := by
  unfold AmqpConnectionWrapper.reconnect reconnectEffects
  rw [online.reconnecting, online.container]
  exact ⟨rfl, rfl⟩

theorem Disposal.isDisposed
    {run : ℕ} {effects : List WrapperEffect} {next : AmqpConnectionWrapper}
    {current : InitializerRun} (disposal : wrapper.Disposal run effects next)
    (found : next.runs[run]? = some current) :
    current.connection.isDisposed = true := by
  cases disposal with
  | ignored inactive => exact inactive current found
  | disposed previous connection before last active ended =>
      have inRange := (List.getElem?_eq_some_iff.mp before).1
      change (wrapper.runs.set run _)[run]? = some current at found
      rw [List.getElem?_set_self inRange] at found
      cases found
      exact AmqpConnection.dispose_isDisposed connection wrapper.resources

/-- After its disposal a connection is not disposed of again. -/
theorem Disposal.again
    {run : ℕ} {effects : List WrapperEffect} {next : AmqpConnectionWrapper}
    (disposal : wrapper.Disposal run effects next) :
    next.disposalEffects run = [] ∧ next.disposeConnection run = next := by
  have inactive (current : InitializerRun)
      (found : next.runs[run]? = some current) :
      current.connection.isDisposed = true :=
    disposal.isDisposed found
  have last (current : InitializerRun) (found : next.runs[run]? = some current)
      (active : current.connection.isDisposed = false) :
      next.IsLast run := by
    cases (inactive current found).symm.trans active
  cases hence : next.runs[run]? with
  | none =>
      unfold disposalEffects disposeConnection withConnection
      rw [hence]
      exact ⟨rfl, rfl⟩
  | some current =>
      have disposal := disposal_of_last last
      generalize next.disposalEffects run = effects at disposal
      generalize next.disposeConnection run = later at disposal
      cases disposal with
      | ignored inactive => exact ⟨rfl, rfl⟩
      | disposed other connection found last active ended =>
          cases (inactive other found).symm.trans active

theorem Orderly.moves_connectionLost
    {run : ℕ} {current : InitializerRun} (orderly : wrapper.Orderly)
    (found : wrapper.runs[run]? = some current)
    (used :
      current.connection.handledConnection.isSome ∨
        current.connection.handlesChannels = true) :
    Moves maxAttempts wrapper (.connectionLost run)
      (wrapper.connectionLostEffects run)
      ((wrapper.emitClosed run).disposeConnection run) := by
  have lost : wrapper.IsLost (.connectionLost run) run :=
    Or.inr ⟨current, found, Or.inl ⟨rfl, used⟩⟩
  unfold connectionLostEffects closedEffects emitClosed
  by_cases holds : wrapper.container = some run
  · have online := orderly.online_of_container holds
    obtain ⟨next, effects⟩ := online.reconnect
    have disposal :
        wrapper.released.Disposal run (wrapper.released.disposalEffects run)
          (wrapper.released.disposeConnection run) :=
      disposal_of_last fun _ _ _ => online.last
    rw [if_pos ⟨holds, online.listens⟩, if_pos ⟨holds, online.listens⟩, next,
      effects, disposal.again.1, disposal.again.2, List.append_nil]
    exact .loses online lost disposal
  · have elsewhere : ¬ (wrapper.container = some run ∧ wrapper.listens = true) :=
      fun both => holds both.1
    rw [if_neg elsewhere, if_neg elsewhere, List.nil_append]
    refine .drops holds lost nofun (disposal_of_last ?_)
    intro other atOther active
    cases found.symm.trans atOther
    apply orderly.last_of_lost found active
    rcases used with handled | listens
    · exact Or.inl handled
    · exact Or.inr (Or.inl listens)

theorem Orderly.moves_becameUnavailable
    (orderly : wrapper.Orderly) (listens : wrapper.listens = true)
    (active : wrapper.isCancelled = false) :
    Moves maxAttempts wrapper .connectionBecameUnavailable
      wrapper.reconnectEffects wrapper.reconnect := by
  have served (phase : ReconnectPhase)
      (reconnecting : wrapper.reconnecting = some phase) :
      Moves maxAttempts wrapper .connectionBecameUnavailable
        wrapper.reconnectEffects wrapper.reconnect := by
    unfold reconnectEffects reconnect
    rw [reconnecting]
    refine .ignored ?_
    intro _
    rw [reconnecting]
    exact nofun
  cases orderly.mode with
  | unused unused => cases unused.listens.symm.trans listens
  | connecting run connecting => cases connecting.listens.symm.trans listens
  | refused refused => cases refused.listens.symm.trans listens
  | online run online =>
      obtain ⟨next, effects⟩ := online.reconnect
      rw [next, effects]
      exact .loses online (Or.inl rfl) (disposal_of_last fun _ _ _ => online.last)
  | replacing replacing => exact served _ replacing.reconnecting
  | reconnecting run reconnecting => exact served _ reconnecting.reconnecting
  | disposed disposed => cases disposed.isCancelled.symm.trans active

/-- The end of a `recreateChannel` that has failed. -/
def withoutRecreation (wrapper : AmqpConnectionWrapper) (run : ℕ) :
    AmqpConnectionWrapper :=
  wrapper.withConnection run fun connection resources =>
    ({ connection with recreatingChannel := none }, resources)

theorem disposal_of_ended
    {run : ℕ} {current : InitializerRun}
    (found : wrapper.runs[run]? = some current) (last : wrapper.IsLast run)
    (active : current.connection.isDisposed = false) :
    wrapper.Disposal run ((wrapper.withoutRecreation run).disposalEffects run)
      ((wrapper.withoutRecreation run).disposeConnection run) := by
  have inRange := (List.getElem?_eq_some_iff.mp found).1
  have ended := withConnection_of_found
    (fun connection resources =>
      ({ connection with recreatingChannel := none }, resources)) found
  change wrapper.withoutRecreation run = _ at ended
  have there :
      (wrapper.withoutRecreation run).runs[run]? =
        some
          { current with
            connection := { current.connection with recreatingChannel := none } } := by
    rw [ended]
    exact List.getElem?_set_self inRange
  have effects :
      (wrapper.withoutRecreation run).disposalEffects run =
        [.cancelChannelCommands run] := by
    unfold disposalEffects
    rw [there]
    exact if_neg (Bool.eq_false_iff.mp active)
  have next := withConnection_of_found AmqpConnection.dispose there
  rw [ended] at next
  dsimp only at next
  rw [List.set_set] at next
  unfold disposeConnection
  rw [effects, ended, next]
  exact .disposed current _ found last active (Or.inr rfl)

theorem Orderly.moves_channelRecreationFailed
    {run : ℕ} {current : InitializerRun} (orderly : wrapper.Orderly)
    (found : wrapper.runs[run]? = some current)
    (recreating : current.connection.recreatingChannel ≠ none) :
    Moves maxAttempts wrapper (.channelRecreationSettled run .rejected)
      (wrapper.channelRecreationEffects run .rejected)
      (wrapper.channelRecreationFailed run current.connection.isDisposed) := by
  have lost : wrapper.IsLost (.channelRecreationSettled run .rejected) run :=
    Or.inr ⟨current, found, Or.inr ⟨rfl, recreating⟩⟩
  unfold channelRecreationEffects channelRecreationFailed
  rw [found]
  dsimp only
  by_cases disposed : current.connection.isDisposed = true
  · rw [if_pos disposed, if_pos disposed, withConnection_of_found _ found]
    exact .dropsChannel found disposed rfl rfl
  · have active := Bool.eq_false_iff.mpr disposed
    have last := orderly.last_of_lost found active (Or.inr (Or.inr recreating))
    rw [if_neg disposed, if_neg disposed]
    change
      Moves maxAttempts wrapper _
        ((wrapper.withoutRecreation run).connectionLostEffects run)
        (((wrapper.withoutRecreation run).emitClosed run).disposeConnection run)
    have ended := withConnection_of_found
      (fun connection resources =>
        ({ connection with recreatingChannel := none }, resources)) found
    change wrapper.withoutRecreation run = _ at ended
    have container :
        (wrapper.withoutRecreation run).container = wrapper.container := by
      rw [ended]
    have listens :
        (wrapper.withoutRecreation run).listens = wrapper.listens := by
      rw [ended]
    unfold connectionLostEffects closedEffects emitClosed
    rw [container, listens]
    by_cases holds : wrapper.container = some run
    · have online := orderly.online_of_container holds
      have released :
          (wrapper.withoutRecreation run).reconnect =
              (wrapper.released.withoutRecreation run).disposeConnection run ∧
            (wrapper.withoutRecreation run).reconnectEffects =
              (wrapper.released.withoutRecreation run).disposalEffects run := by
        have later : wrapper.released.runs[run]? = some current := found
        have same := withConnection_of_found
          (fun connection resources =>
            ({ connection with recreatingChannel := none }, resources)) later
        change wrapper.released.withoutRecreation run = _ at same
        unfold reconnect reconnectEffects
        rw [container, same, ended]
        dsimp only
        rw [online.reconnecting, holds]
        exact ⟨rfl, rfl⟩
      have disposal :
          wrapper.released.Disposal run
            ((wrapper.released.withoutRecreation run).disposalEffects run)
            ((wrapper.released.withoutRecreation run).disposeConnection run) :=
        disposal_of_ended found online.last active
      rw [if_pos ⟨holds, online.listens⟩, if_pos ⟨holds, online.listens⟩,
        released.1, released.2, disposal.again.1, disposal.again.2,
        List.append_nil]
      exact .loses online lost disposal
    · have elsewhere :
          ¬ (wrapper.container = some run ∧ wrapper.listens = true) :=
        fun both => holds both.1
      rw [if_neg elsewhere, if_neg elsewhere, List.nil_append]
      exact .drops holds lost nofun (disposal_of_ended found last active)

theorem Orderly.moves_channelRecreated
    {run amqplibConnection : ℕ} {current : InitializerRun}
    (orderly : wrapper.Orderly)
    (found : wrapper.runs[run]? = some current)
    (recreating :
      current.connection.recreatingChannel = some amqplibConnection) :
    Moves maxAttempts wrapper (.channelRecreationSettled run .fulfilled)
      (wrapper.channelRecreationEffects run .fulfilled)
      (wrapper.withConnection run fun connection resources =>
        connection.channelRecreated resources amqplibConnection) := by
  unfold channelRecreationEffects
  rw [found]
  dsimp only
  by_cases disposed : current.connection.isDisposed = true
  · rw [if_pos disposed, withConnection_of_found _ found]
    unfold AmqpConnection.channelRecreated
    dsimp only
    rw [if_pos disposed]
    exact .dropsChannel found disposed rfl rfl
  · rw [if_neg disposed, recreating]
    refine .recreatesChannel found (Bool.eq_false_iff.mpr disposed) recreating ?_
    by_cases holds : wrapper.container = some run
    · have online := orderly.online_of_container holds
      rw [if_pos ⟨holds, online.listens⟩]
      exact Or.inr ⟨rfl, online⟩
    · rw [if_neg fun both => holds both.1]
      exact Or.inl rfl

/-- Whatever a step does is one of the moves. -/
theorem Orderly.moves_of_step
    {next : AmqpConnectionWrapper} {event : WrapperEvent}
    (orderly : wrapper.Orderly)
    (stepped : wrapper.step maxAttempts event = some next) :
    Moves maxAttempts wrapper event (wrapper.effects event) next := by
  cases event with
  | connectCalled =>
      cases stepped
      exact orderly.moves_connect maxAttempts
  | disposeCalled =>
      cases stepped
      exact orderly.moves_dispose maxAttempts
  | initializer run event =>
      simp only [step, initializerStep] at stepped
      cases found : wrapper.runs[run]? with
      | none =>
          rw [found] at stepped
          cases stepped
      | some current =>
          rw [found] at stepped
          dsimp only at stepped
          split at stepped
          case h_1 => cases stepped
          case h_2 run' resources taken =>
            cases stepped
            exact .initializes found (InitializerRun.steps_of_step taken)
  | connectResumed =>
      simp only [step] at stepped
      split at stepped
      case h_1 => cases stepped
      case h_2 run connecting =>
        obtain ⟨result, decided, rfl⟩ := Option.map_eq_some_iff.mp stepped
        simp only [effects, connecting, decided, Option.elim_some]
        exact orderly.moves_connectResumed maxAttempts connecting decided
  | oldConnectionDisposed =>
      simp only [step] at stepped
      split at stepped
      case h_1 reconnecting =>
        cases stepped
        exact orderly.moves_oldConnectionDisposed maxAttempts reconnecting
      case h_2 => cases stepped
  | reconnectResumed =>
      simp only [step] at stepped
      split at stepped
      case h_1 run reconnecting =>
        obtain ⟨result, decided, rfl⟩ := Option.map_eq_some_iff.mp stepped
        simp only [effects, reconnecting, decided, Option.elim_some]
        exact orderly.moves_reconnectResumed maxAttempts reconnecting decided
      case h_2 => cases stepped
  | reconnectFinished =>
      simp only [step] at stepped
      split at stepped
      case h_1 reconnecting =>
        cases stepped
        rcases orderly.reconnecting_or_disposed reconnecting with
          ⟨impossible, _⟩ | ⟨_, impossible, _⟩ | disposed
        · cases impossible
        · cases impossible
        · exact .reconnectFinishes disposed reconnecting
      case h_2 => cases stepped
  | connectionLost run =>
      simp only [step] at stepped
      split at stepped
      case h_1 => cases stepped
      case h_2 current found =>
        split at stepped
        case isTrue used =>
          cases stepped
          exact orderly.moves_connectionLost maxAttempts found used
        case isFalse => cases stepped
  | channelLost run =>
      simp only [step] at stepped
      split at stepped
      case h_1 => cases stepped
      case h_2 current found =>
        split at stepped
        case isTrue listens =>
          cases stepped
          exact .losesChannel found listens
        case isFalse => cases stepped
  | channelRecreationSettled run settlement =>
      simp only [step] at stepped
      split at stepped
      case h_1 => cases stepped
      case h_2 current found =>
        split at stepped
        case h_1 => cases stepped
        case h_2 amqplibConnection recreating =>
          cases stepped
          exact orderly.moves_channelRecreated maxAttempts found recreating
        case h_3 amqplibConnection recreating =>
          cases stepped
          apply orderly.moves_channelRecreationFailed maxAttempts found
          rw [recreating]
          exact Option.some_ne_none amqplibConnection
  | connectionBecameUnavailable =>
      simp only [step] at stepped
      split at stepped
      case isTrue available =>
        cases stepped
        exact
          orderly.moves_becameUnavailable maxAttempts available.1 available.2
      case isFalse => cases stepped

end Events

end AmqpConnectionWrapper

end Amq.Core
