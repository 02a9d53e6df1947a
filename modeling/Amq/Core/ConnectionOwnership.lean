import Amq.Core.AmqpConnectionWrapper

/-!
# Who owns an amqplib connection

From the moment `amqplibConnect` opens a connection, either it has been handed
to the disposer, or one run of the initializer still answers for it: the run
holds it in an attempt, or its promise hands it to a waiting caller, or it is
the connection in the container.

Two steps drop a connection that nobody else answers for.  One is a cancelled
run that resumes after `connect` has succeeded; the other is a channel created
for a connection that an earlier failed channel creation has marked as disposed.
-/

namespace Amq.Core

open Amq.Transition

/-! ## Runs -/

namespace InitializerRun

/-- The run answers for this amqplib connection. -/
def Keeps (run : InitializerRun) (amqplibConnection : ℕ) : Prop :=
  run.connection.amqplibConnection = some amqplibConnection ∧
    ((∃ attempt, run.phase = .creatingChannel attempt amqplibConnection) ∨
      (run.connection.isDisposed = false ∧ run.phase.isConnected = true))

/-- The run is over and hands out nothing that would have to be disposed of. -/
def IsSpent (run : InitializerRun) : Prop :=
  ∃ result, run.phase = .settled result ∧
    (result = .connection → run.connection.isDisposed = true)

theorem Keeps.not_spent
    {run : InitializerRun} {amqplibConnection : ℕ}
    (keeps : run.Keeps amqplibConnection) : ¬ run.IsSpent := by
  rintro ⟨result, settled, spent⟩
  obtain ⟨_, ⟨attempt, creating⟩ | ⟨active, connected⟩⟩ := keeps
  · cases settled.symm.trans creating
  · rw [settled] at connected
    cases result with
    | connection =>
        have disposed : run.connection.isDisposed = true := spent rfl
        exact Bool.false_ne_true (active.symm.trans disposed)
    | cancelled => cases connected
    | rejected error => cases connected

/-- A change of one run loses no connection, and the run answers for those that
it has opened. -/
structure Carries
    (run : InitializerRun) (resources : AmqpResources)
    (run' : InitializerRun) (resources' : AmqpResources) : Prop where
  extended : resources'.Extends resources
  opened :
    ∀ connection, resources.opened ≤ connection →
      connection < resources'.opened → run'.Keeps connection
  kept :
    ∀ connection, run.Keeps connection →
      connection ∈ resources'.disposedConnections ∨ run'.Keeps connection
  settled :
    ∀ result, run.phase = .settled result → run'.phase = .settled result
  disposed :
    run.connection.isDisposed = true → run'.connection.isDisposed = true

/-- The step of a run loses the connection of the run. -/
def loses (run : InitializerRun) (isCurrent : Bool) (event : InitializerEvent) :
    Bool :=
  match run.phase, event with
  | .connected _, .resumed => !isCurrent && !run.connection.isDisposed
  | .creatingChannel _ _, .channelSettled .fulfilled => run.connection.isDisposed
  | _, _ => false

end InitializerRun

namespace InitializerPhase

theorem Moves.from_settled
    {maxAttempts : JsNumber} {isCurrent : Bool}
    {phase phase' : InitializerPhase} {event : InitializerEvent}
    (moves : Moves maxAttempts isCurrent phase event phase')
    (result : InitializerResult) :
    phase ≠ .settled result := by
  intro settled
  subst settled
  cases moves with
  | cancelled _ _ superseded place =>
      rcases place with ⟨impossible, -⟩ | ⟨_, impossible, -⟩ |
        ⟨_, impossible, -⟩ | ⟨_, impossible, -⟩
      all_goals cases impossible

theorem Moves.from_creatingChannel
    {maxAttempts : JsNumber} {isCurrent : Bool}
    {phase phase' : InitializerPhase} {event : InitializerEvent}
    (moves : Moves maxAttempts isCurrent phase event phase')
    (attempt amqplibConnection : ℕ) :
    phase ≠ .creatingChannel attempt amqplibConnection := by
  intro creating
  subst creating
  cases moves with
  | cancelled _ _ superseded place =>
      rcases place with ⟨impossible, -⟩ | ⟨_, impossible, -⟩ |
        ⟨_, impossible, -⟩ | ⟨_, impossible, -⟩
      all_goals cases impossible

/-- A connected run stays connected until it hands its connection out, unless it
finds itself cancelled. -/
theorem Moves.connected
    {maxAttempts : JsNumber} {isCurrent : Bool}
    {phase phase' : InitializerPhase} {event : InitializerEvent}
    (moves : Moves maxAttempts isCurrent phase event phase')
    (isConnected : phase.isConnected = true) :
    phase'.isConnected = true ∨
      (event = .resumed ∧ (∃ attempt, phase = .connected attempt) ∧
        isCurrent = false) := by
  cases moves with
  | handedOut attempt current => exact Or.inl rfl
  | finished result =>
      cases result with
      | connection => exact Or.inl rfl
      | cancelled => cases isConnected
      | rejected error => cases isConnected
  | cancelled phase event superseded place =>
      rcases place with ⟨before, -⟩ | ⟨attempt, before, resumed⟩ |
        ⟨attempt, before, -⟩ | ⟨attempt, before, -⟩
      · rw [before] at isConnected
        cases isConnected
      · exact Or.inr ⟨resumed, ⟨attempt, before⟩, superseded⟩
      · rw [before] at isConnected
        cases isConnected
      · rw [before] at isConnected
        cases isConnected
  | began current => cases isConnected
  | uncreated current => cases isConnected
  | unopened attempt => cases isConnected
  | rolledBack attempt => cases isConnected
  | channelDisposed attempt => cases isConnected
  | exceeded attempt current last => cases isConnected
  | postponed attempt current further => cases isConnected
  | retried attempt current => cases isConnected

end InitializerPhase

namespace InitializerRun

/-- Every other step of a run carries its connection on. -/
theorem Steps.carries
    {maxAttempts : JsNumber} {isCurrent : Bool}
    {run run' : InitializerRun} {resources resources' : AmqpResources}
    {event : InitializerEvent}
    (steps :
      Steps maxAttempts isCurrent run resources event run' resources')
    (keeps : run.loses isCurrent event = false) :
    Carries run resources run' resources' := by
  cases steps with
  | @moved _ phase moves =>
      refine
        { extended := .refl resources
          opened := fun connection atLeast below =>
            absurd below (Nat.not_lt.mpr atLeast)
          kept := ?_
          settled := fun result settled =>
            absurd settled (moves.from_settled result)
          disposed := id }
      rintro connection ⟨owned, ⟨attempt, creating⟩ | ⟨active, connected⟩⟩
      · exact absurd creating (moves.from_creatingChannel attempt connection)
      · rcases moves.connected connected with
          next | ⟨rfl, ⟨attempt, before⟩, superseded⟩
        · exact Or.inr ⟨owned, Or.inr ⟨active, next⟩⟩
        · unfold loses at keeps
          rw [before, superseded, active] at keeps
          cases keeps
  | @opened attempt before =>
      refine
        { extended := ⟨Nat.le_succ _, fun _ member => member⟩
          opened := ?_
          kept := ?_
          settled := fun result settled => by cases before.symm.trans settled
          disposed := id }
      · intro connection atLeast below
        have same : connection = resources.opened :=
          Nat.le_antisymm (Nat.lt_succ_iff.mp below) atLeast
        subst same
        exact ⟨rfl, Or.inl ⟨attempt, rfl⟩⟩
      · rintro connection ⟨-, ⟨_, creating⟩ | ⟨-, connected⟩⟩
        · cases before.symm.trans creating
        · rw [before] at connected
          cases connected
  | @created attempt amqplibConnection before active =>
      rw [AmqpConnection.channelCreated_of_active resources amqplibConnection
        active]
      refine
        { extended := ⟨Nat.le_refl _, fun _ member => member⟩
          opened := fun connection atLeast below =>
            absurd below (Nat.not_lt.mpr atLeast)
          kept := ?_
          settled := fun result settled => by cases before.symm.trans settled
          disposed := id }
      intro connection held
      exact Or.inr ⟨held.1, Or.inr ⟨active, rfl⟩⟩
  | @createdDisposed attempt amqplibConnection before disposed =>
      unfold loses at keeps
      rw [before] at keeps
      cases disposed.symm.trans keeps
  | @failed attempt amqplibConnection before =>
      refine
        { extended :=
            ⟨Nat.le_refl _, fun _ member => List.mem_cons_of_mem _ member⟩
          opened := fun connection atLeast below =>
            absurd below (Nat.not_lt.mpr atLeast)
          kept := ?_
          settled := fun result settled => by cases before.symm.trans settled
          disposed := fun _ => rfl }
      rintro connection ⟨-, ⟨_, creating⟩ | ⟨-, connected⟩⟩
      · cases before.symm.trans creating
        exact Or.inl List.mem_cons_self
      · rw [before] at connected
        cases connected

end InitializerRun

/-! ## Operations on a connection -/

/-- An operation of a connection that neither opens nor forgets an amqplib
connection. -/
structure AmqpConnection.Careful
    (operation : AmqpConnection → AmqpResources → AmqpConnection × AmqpResources)
    (connection : AmqpConnection) (resources : AmqpResources) : Prop where
  same :
    (operation connection resources).1.amqplibConnection =
      connection.amqplibConnection
  opened : (operation connection resources).2.opened = resources.opened
  extended : (operation connection resources).2.Extends resources
  stays :
    connection.isDisposed = true →
      (operation connection resources).1.isDisposed = true
  disposes :
    ∀ amqplibConnection, connection.isDisposed = false →
      connection.amqplibConnection = some amqplibConnection →
      (operation connection resources).1.isDisposed = true →
        amqplibConnection ∈
          (operation connection resources).2.disposedConnections

namespace AmqpConnection

/-- An operation that leaves the connection's own fields alone. -/
theorem careful_of_same
    {operation : AmqpConnection → AmqpResources → AmqpConnection × AmqpResources}
    {connection : AmqpConnection} {resources : AmqpResources}
    (same :
      (operation connection resources).1.amqplibConnection =
        connection.amqplibConnection)
    (flag :
      (operation connection resources).1.isDisposed = connection.isDisposed)
    (opened : (operation connection resources).2.opened = resources.opened)
    (disposed :
      (operation connection resources).2.disposedConnections =
        resources.disposedConnections) :
    Careful operation connection resources where
  same := same
  opened := opened
  extended :=
    ⟨Nat.le_of_eq opened.symm, fun _ member => disposed.symm ▸ member⟩
  stays := fun before => flag.trans before
  disposes := by
    intro amqplibConnection active _ after
    rw [flag, active] at after
    cases after

theorem careful_dispose
    (connection : AmqpConnection) (resources : AmqpResources) :
    Careful dispose connection resources where
  same := dispose_amqplibConnection connection resources
  opened := dispose_opened connection resources
  extended := dispose_extends connection resources
  stays := fun _ => dispose_isDisposed connection resources
  disposes := fun _ active owned _ => dispose_disposes active owned

theorem careful_recreateChannel
    (connection : AmqpConnection) (resources : AmqpResources) :
    Careful recreateChannel connection resources :=
  careful_of_same (recreateChannel_connection connection resources).1
    (recreateChannel_connection connection resources).2
    (recreateChannel_resources connection resources).1
    (recreateChannel_resources connection resources).2

theorem careful_channelRecreated
    (connection : AmqpConnection) (resources : AmqpResources)
    (amqplibConnection : ℕ) :
    Careful (fun current shared => current.channelRecreated shared amqplibConnection)
      connection resources :=
  careful_of_same rfl rfl
    (channelRecreated_resources connection resources amqplibConnection).1
    (channelRecreated_resources connection resources amqplibConnection).2

theorem Careful.carries
    {operation : AmqpConnection → AmqpResources → AmqpConnection × AmqpResources}
    {run : InitializerRun} {resources : AmqpResources}
    (careful : Careful operation run.connection resources) :
    run.Carries resources
      { run with connection := (operation run.connection resources).1 }
      (operation run.connection resources).2 where
  extended := careful.extended
  opened := fun connection atLeast below =>
    absurd (careful.opened ▸ below) (Nat.not_lt.mpr atLeast)
  kept := by
    rintro connection ⟨owned, place⟩
    have owned' := careful.same.trans owned
    rcases place with creating | ⟨active, connected⟩
    · exact Or.inr ⟨owned', Or.inl creating⟩
    · by_cases disposed : (operation run.connection resources).1.isDisposed = true
      · exact Or.inl (careful.disposes connection active owned disposed)
      · exact Or.inr
          ⟨owned', Or.inr ⟨Bool.eq_false_iff.mpr disposed, connected⟩⟩
  settled := fun _ settled => settled
  disposed := careful.stays

end AmqpConnection

/-! ## The wrapper -/

namespace AmqpConnectionWrapper

/-- Someone will take over what the promise of the run hands out, or has. -/
def Attends (wrapper : AmqpConnectionWrapper) (run : ℕ) : Prop :=
  wrapper.connecting = some run ∨
    wrapper.reconnecting = some (.awaiting run) ∨
    wrapper.container = some run

/-- A settled run that resolved with its connection. -/
def HandedOut (wrapper : AmqpConnectionWrapper) (run : ℕ) : Prop :=
  ∃ current, wrapper.runs[run]? = some current ∧
    current.phase = .settled .connection

/-- Every open connection is accounted for. -/
structure Accounted (wrapper : AmqpConnectionWrapper) : Prop where
  custody :
    ∀ connection < wrapper.resources.opened,
      connection ∈ wrapper.resources.disposedConnections ∨
        ∃ current ∈ wrapper.runs, current.Keeps connection
  attended :
    ∀ run current, wrapper.runs[run]? = some current →
      wrapper.Attends run ∨ current.IsSpent
  held : ∀ run, wrapper.container = some run → wrapper.HandedOut run

/-- How the calls of the wrapper exclude each other. -/
structure Calls (wrapper : AmqpConnectionWrapper) : Prop where
  owner :
    ∀ run, wrapper.container = some run →
      wrapper.state = .connected ∧ wrapper.connecting = none ∧
        wrapper.reconnecting = none
  alone :
    ∀ run, wrapper.connecting = some run →
      wrapper.reconnecting = none ∧ wrapper.listens = false ∧
        wrapper.state ≠ .ready
  after : wrapper.reconnecting ≠ none → wrapper.state ≠ .ready
  listening : wrapper.listens = true → wrapper.state ≠ .ready

/-- While `connect` waits, there is no connection in the container. -/
theorem Calls.empty_of_connecting
    {wrapper : AmqpConnectionWrapper} {run : ℕ} (calls : wrapper.Calls)
    (connecting : wrapper.connecting = some run) :
    wrapper.container = none := by
  cases content : wrapper.container with
  | none => rfl
  | some other => cases connecting.symm.trans (calls.owner other content).2.1

/-- While `reconnect` waits, there is no connection in the container. -/
theorem Calls.empty_of_reconnecting
    {wrapper : AmqpConnectionWrapper} {phase : ReconnectPhase}
    (calls : wrapper.Calls) (reconnecting : wrapper.reconnecting = some phase) :
    wrapper.container = none := by
  cases content : wrapper.container with
  | none => rfl
  | some other =>
      cases reconnecting.symm.trans (calls.owner other content).2.2

/-- `reconnect` is only called once `connect` is over. -/
theorem Calls.connected_of_reconnecting
    {wrapper : AmqpConnectionWrapper} {phase : ReconnectPhase}
    (calls : wrapper.Calls) (reconnecting : wrapper.reconnecting = some phase) :
    wrapper.connecting = none ∧ wrapper.state ≠ .ready := by
  constructor
  · cases connecting : wrapper.connecting with
    | none => rfl
    | some other =>
        cases (calls.alone other connecting).1.symm.trans reconnecting
  · apply calls.after
    rw [reconnecting]
    exact nofun

/-- A wrapper that is neither new nor disposed of is connected. -/
theorem connected_of_state
    {wrapper : AmqpConnectionWrapper}
    (started : wrapper.state ≠ .ready) (active : wrapper.state ≠ .disposed) :
    wrapper.state = .connected := by
  cases state : wrapper.state with
  | ready => exact absurd state started
  | connected => rfl
  | disposed => exact absurd state active

theorem accounted_create : Accounted create where
  custody := by
    intro connection opened
    exact absurd opened (Nat.not_lt_zero connection)
  attended := by
    intro run current found
    cases List.mem_of_getElem? found
  held := nofun

theorem calls_create : Calls create where
  owner := nofun
  alone := nofun
  after := fun reconnecting => absurd rfl reconnecting
  listening := nofun

/-! ### Changes of a single run -/

/-- One run changes, and what it carries is not lost. -/
theorem Accounted.setRun
    {wrapper : AmqpConnectionWrapper} {run : ℕ}
    {current next : InitializerRun} {resources : AmqpResources}
    (accounted : wrapper.Accounted)
    (found : wrapper.runs[run]? = some current)
    (carries : current.Carries wrapper.resources next resources)
    (promise : Option ℕ) :
    Accounted
      { wrapper with
        runs := wrapper.runs.set run next
        resources := resources
        connectionPromise := promise } := by
  obtain ⟨inRange, _⟩ := List.getElem?_eq_some_iff.mp found
  have present : next ∈ wrapper.runs.set run next :=
    List.mem_set inRange next
  refine ⟨?_, ?_, ?_⟩
  · intro connection below
    change connection < resources.opened at below
    by_cases before : connection < wrapper.resources.opened
    · rcases accounted.custody connection before with disposed | ⟨other, member, keeps⟩
      · exact Or.inl (carries.extended.disposed connection disposed)
      · obtain ⟨index, atIndex⟩ := List.mem_iff_getElem?.mp member
        by_cases same : index = run
        · subst same
          have equal : other = current :=
            Option.some.inj (atIndex.symm.trans found)
          subst equal
          rcases carries.kept connection keeps with disposed | kept
          · exact Or.inl disposed
          · exact Or.inr ⟨next, present, kept⟩
        · refine Or.inr ⟨other, ?_, keeps⟩
          apply List.mem_iff_getElem?.mpr
          refine ⟨index, ?_⟩
          rw [List.getElem?_set_ne (Ne.symm same)]
          exact atIndex
    · exact Or.inr
        ⟨next, present,
          carries.opened connection (Nat.not_lt.mp before) below⟩
  · intro index other atIndex
    change (wrapper.runs.set run next)[index]? = some other at atIndex
    rcases set_cases atIndex with ⟨same, itself⟩ | ⟨_, earlier⟩
    · subst same itself
      rcases accounted.attended index current found with attends | spent
      · exact Or.inl attends
      · obtain ⟨result, settled, disposed⟩ := spent
        refine Or.inr ⟨result, carries.settled result settled, ?_⟩
        intro handedOut
        exact carries.disposed (disposed handedOut)
    · exact accounted.attended index other earlier
  · intro index holds
    obtain ⟨other, atIndex, settled⟩ := accounted.held index holds
    by_cases same : index = run
    · subst same
      have equal : other = current :=
        Option.some.inj (atIndex.symm.trans found)
      subst equal
      exact ⟨next, List.getElem?_set_self inRange,
        carries.settled .connection settled⟩
    · refine ⟨other, ?_, settled⟩
      change (wrapper.runs.set run next)[index]? = some other
      rw [List.getElem?_set_ne (Ne.symm same)]
      exact atIndex

section Operations

variable
  {operation : AmqpConnection → AmqpResources → AmqpConnection × AmqpResources}

theorem withConnection_of_found
    {wrapper : AmqpConnectionWrapper} {run : ℕ} {current : InitializerRun}
    (operation :
      AmqpConnection → AmqpResources → AmqpConnection × AmqpResources)
    (found : wrapper.runs[run]? = some current) :
    wrapper.withConnection run operation =
      { wrapper with
        runs :=
          wrapper.runs.set run
            { current with
              connection := (operation current.connection wrapper.resources).1 }
        resources := (operation current.connection wrapper.resources).2 } := by
  unfold AmqpConnectionWrapper.withConnection
  rw [found]

/-- Operations of a connection leave the wrapper's own fields alone. -/
theorem withConnection_frame
    (wrapper : AmqpConnectionWrapper) (run : ℕ)
    (operation :
      AmqpConnection → AmqpResources → AmqpConnection × AmqpResources) :
    ∃ runs resources,
      wrapper.withConnection run operation =
        { wrapper with runs := runs, resources := resources } := by
  cases found : wrapper.runs[run]? with
  | none =>
      refine ⟨wrapper.runs, wrapper.resources, ?_⟩
      unfold withConnection
      rw [found]
  | some current =>
      exact ⟨_, _, withConnection_of_found operation found⟩

theorem Calls.withConnection
    {wrapper : AmqpConnectionWrapper} (calls : wrapper.Calls) (run : ℕ) :
    (wrapper.withConnection run operation).Calls := by
  obtain ⟨runs, resources, frame⟩ :=
    withConnection_frame wrapper run operation
  rw [frame]
  exact ⟨calls.owner, calls.alone, calls.after, calls.listening⟩

theorem Accounted.withConnection
    {wrapper : AmqpConnectionWrapper} {run : ℕ}
    (accounted : wrapper.Accounted)
    (careful :
      ∀ current, wrapper.runs[run]? = some current →
        AmqpConnection.Careful operation current.connection wrapper.resources) :
    (wrapper.withConnection run operation).Accounted := by
  cases found : wrapper.runs[run]? with
  | none =>
      unfold AmqpConnectionWrapper.withConnection
      rw [found]
      exact accounted
  | some current =>
      rw [withConnection_of_found operation found]
      exact accounted.setRun found (careful current found).carries
        wrapper.connectionPromise

end Operations

theorem Accounted.disposeConnection
    {wrapper : AmqpConnectionWrapper}
    (accounted : wrapper.Accounted) (run : ℕ) :
    (wrapper.disposeConnection run).Accounted :=
  accounted.withConnection fun current _ =>
    AmqpConnection.careful_dispose current.connection wrapper.resources

theorem Calls.disposeConnection
    {wrapper : AmqpConnectionWrapper}
    (calls : wrapper.Calls) (run : ℕ) :
    (wrapper.disposeConnection run).Calls :=
  calls.withConnection run

/-- A connection that was handed out is spent once it has been disposed of. -/
theorem HandedOut.spent
    {wrapper : AmqpConnectionWrapper} {run : ℕ} {current : InitializerRun}
    (handedOut : wrapper.HandedOut run)
    (found : (wrapper.disposeConnection run).runs[run]? = some current) :
    current.IsSpent := by
  obtain ⟨before, atRun, settled⟩ := handedOut
  obtain ⟨inRange, _⟩ := List.getElem?_eq_some_iff.mp atRun
  change (wrapper.withConnection run AmqpConnection.dispose).runs[run]? = _
    at found
  rw [withConnection_of_found AmqpConnection.dispose atRun,
    List.getElem?_set_self inRange] at found
  cases found
  refine ⟨.connection, settled, fun _ => ?_⟩
  exact AmqpConnection.dispose_isDisposed before.connection wrapper.resources

/-! ### Changes of who attends to a run -/

/-- Only the callers and the container change. -/
theorem Accounted.reassign
    {wrapper wrapper' : AmqpConnectionWrapper}
    (accounted : wrapper.Accounted)
    (runs : wrapper'.runs = wrapper.runs)
    (resources : wrapper'.resources = wrapper.resources)
    (attends :
      ∀ run current, wrapper.runs[run]? = some current →
        wrapper.Attends run → wrapper'.Attends run ∨ current.IsSpent)
    (held : ∀ run, wrapper'.container = some run → wrapper.HandedOut run) :
    wrapper'.Accounted := by
  refine ⟨?_, ?_, ?_⟩
  · rw [resources, runs]
    exact accounted.custody
  · intro run current found
    rw [runs] at found
    rcases accounted.attended run current found with attended | spent
    · exact attends run current found attended
    · exact Or.inr spent
  · intro run holds
    unfold HandedOut
    rw [runs]
    exact held run holds

/-- A connection that was handed out is disposed of, after the callers and the
container have let go of its run. -/
theorem Accounted.giveUp
    {wrapper wrapper' : AmqpConnectionWrapper} {run : ℕ}
    (accounted : wrapper.Accounted)
    (handedOut : wrapper.HandedOut run)
    (runs : wrapper'.runs = wrapper.runs)
    (resources : wrapper'.resources = wrapper.resources)
    (attends :
      ∀ other, other ≠ run → wrapper.Attends other → wrapper'.Attends other)
    (held :
      ∀ other, wrapper'.container = some other →
        wrapper.container = some other) :
    (wrapper'.disposeConnection run).Accounted := by
  have accounted' := accounted.disposeConnection run
  obtain ⟨current, found, _⟩ := id handedOut
  have found' : wrapper'.runs[run]? = some current := by
    rw [runs]
    exact found
  have before := withConnection_of_found AmqpConnection.dispose found
  have after := withConnection_of_found AmqpConnection.dispose found'
  rw [runs, resources] at after
  change wrapper.disposeConnection run = _ at before
  change wrapper'.disposeConnection run = _ at after
  rw [after]
  refine accounted'.reassign ?_ ?_ ?_ ?_
  · rw [before]
  · rw [before]
  · intro other next present attended
    by_cases same : other = run
    · subst same
      exact Or.inr (handedOut.spent present)
    · rw [before] at attended
      exact Or.inl (attends other same attended)
  · intro other holds
    apply accounted'.held other
    rw [before]
    exact held other holds

/-- A new run is scheduled and somebody attends to it. -/
theorem Accounted.schedule
    {wrapper wrapper' : AmqpConnectionWrapper}
    (accounted : wrapper.Accounted)
    (runs : wrapper'.runs = wrapper.runs ++ [.create])
    (resources : wrapper'.resources = wrapper.resources)
    (container : wrapper'.container = wrapper.container)
    (attends : ∀ run, wrapper.Attends run → wrapper'.Attends run)
    (attended : wrapper'.Attends wrapper.runs.length) :
    wrapper'.Accounted := by
  refine ⟨?_, ?_, ?_⟩
  · intro connection below
    rw [resources] at below
    rw [resources, runs]
    rcases accounted.custody connection below with disposed | ⟨current, member, keeps⟩
    · exact Or.inl disposed
    · exact Or.inr ⟨current, List.mem_append_left _ member, keeps⟩
  · intro run current found
    rw [runs] at found
    by_cases earlier : run < wrapper.runs.length
    · rw [List.getElem?_append_left earlier] at found
      rcases accounted.attended run current found with attended | spent
      · exact Or.inl (attends run attended)
      · exact Or.inr spent
    · obtain ⟨inRange, _⟩ := List.getElem?_eq_some_iff.mp found
      rw [List.length_append, List.length_singleton] at inRange
      have last : run = wrapper.runs.length := by omega
      subst last
      exact Or.inl attended
  · intro run holds
    rw [container] at holds
    obtain ⟨current, found, settled⟩ := accounted.held run holds
    obtain ⟨inRange, _⟩ := List.getElem?_eq_some_iff.mp found
    refine ⟨current, ?_, settled⟩
    rw [runs, List.getElem?_append_left inRange]
    exact found

/-! ### The calls of the wrapper -/

theorem Accounted.awaitConnection
    {wrapper : AmqpConnectionWrapper}
    (accounted : wrapper.Accounted)
    (idle : ∀ run, wrapper.reconnecting ≠ some (.awaiting run)) :
    wrapper.awaitConnection.Accounted := by
  have attends :
      ∀ promise run, wrapper.Attends run →
        wrapper.connecting = some run ∨
          some (ReconnectPhase.awaiting promise) = some (.awaiting run) ∨
          wrapper.container = some run := by
    rintro promise run (connecting | reconnecting | holds)
    · exact Or.inl connecting
    · exact absurd reconnecting (idle run)
    · exact Or.inr (Or.inr holds)
  unfold AmqpConnectionWrapper.awaitConnection initializeConnection
  cases wrapper.connectionPromise with
  | some promise =>
      exact accounted.reassign rfl rfl
        (fun run _ _ attended => Or.inl (attends promise run attended))
        accounted.held
  | none =>
      exact accounted.schedule rfl rfl rfl
        (attends wrapper.runs.length) (Or.inr (Or.inl rfl))

theorem Accounted.connect
    {wrapper : AmqpConnectionWrapper}
    (accounted : wrapper.Accounted) (calls : wrapper.Calls) :
    wrapper.connect.Accounted := by
  unfold AmqpConnectionWrapper.connect
  cases ready : wrapper.state with
  | connected => exact accounted
  | disposed => exact accounted
  | ready =>
      have attends :
          ∀ promise run, wrapper.Attends run →
            some promise = some run ∨
              wrapper.reconnecting = some (.awaiting run) ∨
              wrapper.container = some run := by
        rintro promise run (connecting | reconnecting | holds)
        · exact absurd ready (calls.alone run connecting).2.2
        · exact Or.inr (Or.inl reconnecting)
        · exact Or.inr (Or.inr holds)
      unfold initializeConnection
      dsimp only
      cases wrapper.connectionPromise with
      | some promise =>
          exact accounted.reassign rfl rfl
            (fun run _ _ attended => Or.inl (attends promise run attended))
            accounted.held
      | none =>
          exact accounted.schedule rfl rfl rfl
            (attends wrapper.runs.length) (Or.inl rfl)

theorem Accounted.dispose
    {wrapper : AmqpConnectionWrapper}
    (accounted : wrapper.Accounted) : wrapper.dispose.Accounted := by
  unfold AmqpConnectionWrapper.dispose
  cases wrapper.state with
  | ready => exact accounted
  | disposed => exact accounted
  | connected =>
      cases content : wrapper.container with
      | none =>
          refine accounted.reassign rfl rfl ?_ nofun
          rintro run current found (connecting | reconnecting | holds)
          · exact Or.inl (Or.inl connecting)
          · exact Or.inl (Or.inr (Or.inl reconnecting))
          · cases content.symm.trans holds
      | some old =>
          refine accounted.giveUp (accounted.held old content) rfl rfl ?_ ?_
          · rintro other different (connecting | reconnecting | holds)
            · exact Or.inl connecting
            · exact Or.inr (Or.inl reconnecting)
            · exact absurd (Option.some.inj (holds.symm.trans content)) different
          · exact nofun

theorem Accounted.reconnect
    {wrapper : AmqpConnectionWrapper}
    (accounted : wrapper.Accounted) : wrapper.reconnect.Accounted := by
  unfold AmqpConnectionWrapper.reconnect
  cases reconnecting : wrapper.reconnecting with
  | some phase => exact accounted
  | none =>
      have idle : ∀ run, wrapper.reconnecting ≠ some (.awaiting run) := by
        intro run awaiting
        cases reconnecting.symm.trans awaiting
      cases content : wrapper.container with
      | none => exact accounted.awaitConnection idle
      | some old =>
          refine accounted.giveUp (accounted.held old content) rfl rfl ?_ ?_
          · rintro other different (connecting | awaiting | holds)
            · exact Or.inl connecting
            · exact absurd awaiting (idle other)
            · exact absurd (Option.some.inj (holds.symm.trans content)) different
          · exact nofun

theorem Accounted.emitClosed
    {wrapper : AmqpConnectionWrapper}
    (accounted : wrapper.Accounted) (run : ℕ) :
    (wrapper.emitClosed run).Accounted := by
  unfold AmqpConnectionWrapper.emitClosed
  split
  · exact accounted.reconnect
  · exact accounted

theorem handedOut_of_settledResult
    {wrapper : AmqpConnectionWrapper} {run : ℕ} {result : InitializerResult}
    (settled : wrapper.settledResult run = some result) :
    ∃ current, wrapper.runs[run]? = some current ∧
      current.phase = .settled result := by
  unfold settledResult at settled
  split at settled
  case h_1 result' connection found =>
    cases settled
    exact ⟨_, found, rfl⟩
  case h_2 =>
    cases settled

/-- A caller whose run handed nothing out leaves a spent run behind. -/
theorem spent_of_settledResult
    {wrapper : AmqpConnectionWrapper} {run : ℕ} {result : InitializerResult}
    {current : InitializerRun}
    (settled : wrapper.settledResult run = some result)
    (nothing : result ≠ .connection)
    (found : wrapper.runs[run]? = some current) :
    current.IsSpent := by
  obtain ⟨other, found', settled'⟩ := handedOut_of_settledResult settled
  have equal : other = current := Option.some.inj (found'.symm.trans found)
  subst equal
  exact ⟨result, settled', fun connection => absurd connection nothing⟩

/-- The connection that the only attended run has handed out is installed. -/
theorem Accounted.install
    {wrapper wrapper' : AmqpConnectionWrapper} {run : ℕ}
    (accounted : wrapper.Accounted) (handedOut : wrapper.HandedOut run)
    (only : ∀ other, wrapper.Attends other → other = run)
    (runs : wrapper'.runs = wrapper.runs)
    (resources : wrapper'.resources = wrapper.resources)
    (installed : wrapper'.container = some run) : wrapper'.Accounted := by
  refine accounted.reassign runs resources ?_ ?_
  · intro other _ _ attended
    have same := only other attended
    subst same
    exact Or.inl (Or.inr (Or.inr installed))
  · intro other holds
    cases installed.symm.trans holds
    exact handedOut

theorem Accounted.connectResumed
    {wrapper : AmqpConnectionWrapper} {run : ℕ} {result : InitializerResult}
    (accounted : wrapper.Accounted) (calls : wrapper.Calls)
    (connecting : wrapper.connecting = some run)
    (settled : wrapper.settledResult run = some result) :
    (wrapper.connectResumed run result).Accounted := by
  have empty : wrapper.container = none := calls.empty_of_connecting connecting
  have only : ∀ other, wrapper.Attends other → other = run := by
    rintro other (connecting' | reconnecting | holds)
    · exact Option.some.inj (connecting'.symm.trans connecting)
    · cases (calls.alone run connecting).1.symm.trans reconnecting
    · cases empty.symm.trans holds
  unfold AmqpConnectionWrapper.connectResumed
  cases result with
  | rejected error =>
      refine accounted.reassign rfl rfl ?_ accounted.held
      intro other current found attended
      have same := only other attended
      subst same
      exact Or.inr (spent_of_settledResult settled nofun found)
  | cancelled =>
      refine accounted.reassign rfl rfl ?_ nofun
      intro other current found attended
      have same := only other attended
      subst same
      exact Or.inr (spent_of_settledResult settled nofun found)
  | connection =>
      have handedOut : wrapper.HandedOut run :=
        handedOut_of_settledResult settled
      dsimp only
      by_cases disposed : wrapper.state = .disposed
      · rw [if_pos disposed]
        refine accounted.giveUp handedOut rfl rfl ?_ ?_
        · intro other different attended
          exact absurd (only other attended) different
        · exact fun _ holds => holds
      · rw [if_neg disposed]
        exact accounted.install handedOut only rfl rfl rfl

theorem Accounted.reconnectResumed
    {wrapper : AmqpConnectionWrapper} {run : ℕ} {result : InitializerResult}
    (accounted : wrapper.Accounted) (calls : wrapper.Calls)
    (reconnecting : wrapper.reconnecting = some (.awaiting run))
    (settled : wrapper.settledResult run = some result) :
    (wrapper.reconnectResumed run result).Accounted := by
  have empty : wrapper.container = none :=
    calls.empty_of_reconnecting reconnecting
  have only : ∀ other, wrapper.Attends other → other = run := by
    rintro other (connecting | reconnecting' | holds)
    · cases (calls.alone other connecting).1.symm.trans reconnecting
    · cases reconnecting'.symm.trans reconnecting
      rfl
    · cases empty.symm.trans holds
  have ended :
      ∀ phase, result ≠ .connection →
        Accounted { wrapper with reconnecting := phase } := by
    intro phase nothing
    refine accounted.reassign rfl rfl ?_ accounted.held
    intro other current found attended
    have same := only other attended
    subst same
    exact Or.inr (spent_of_settledResult settled nothing found)
  unfold AmqpConnectionWrapper.reconnectResumed
  cases result with
  | rejected error =>
      dsimp only
      split
      · exact ended none nofun
      · exact (ended (some .finishing) nofun).dispose
  | cancelled =>
      refine (ended none nofun).reassign rfl rfl ?_ nofun
      rintro other current found (connecting | impossible | holds)
      · exact Or.inl (Or.inl connecting)
      · cases impossible
      · cases empty.symm.trans holds
  | connection =>
      have handedOut : wrapper.HandedOut run :=
        handedOut_of_settledResult settled
      dsimp only
      by_cases disposed : wrapper.state = .disposed
      · rw [if_pos disposed]
        refine accounted.giveUp handedOut rfl rfl ?_ ?_
        · intro other different attended
          exact absurd (only other attended) different
        · exact fun _ holds => holds
      · rw [if_neg disposed]
        exact accounted.install handedOut only rfl rfl rfl

theorem Accounted.channelRecreationFailed
    {wrapper : AmqpConnectionWrapper}
    (accounted : wrapper.Accounted) (run : ℕ) (isDisposed : Bool) :
    (wrapper.channelRecreationFailed run isDisposed).Accounted := by
  have ended :
      (wrapper.withConnection run fun connection resources =>
        ({ connection with recreatingChannel := none }, resources)).Accounted :=
    accounted.withConnection fun _ _ =>
      AmqpConnection.careful_of_same rfl rfl rfl rfl
  unfold AmqpConnectionWrapper.channelRecreationFailed
  dsimp only
  split
  · exact ended
  · exact (ended.emitClosed run).disposeConnection run

/-! ### How the calls exclude each other -/

theorem Calls.awaitConnection
    {wrapper : AmqpConnectionWrapper} (calls : wrapper.Calls)
    (empty : wrapper.container = none)
    (connected : wrapper.connecting = none)
    (started : wrapper.state ≠ .ready) :
    wrapper.awaitConnection.Calls := by
  unfold AmqpConnectionWrapper.awaitConnection initializeConnection
  cases wrapper.connectionPromise with
  | some promise =>
      refine ⟨?_, ?_, fun _ => started, calls.listening⟩
      · intro run holds
        cases empty.symm.trans holds
      · intro run connecting
        cases connected.symm.trans connecting
  | none =>
      refine ⟨?_, ?_, fun _ => started, calls.listening⟩
      · intro run holds
        cases empty.symm.trans holds
      · intro run connecting
        cases connected.symm.trans connecting

theorem Calls.connect
    {wrapper : AmqpConnectionWrapper} (calls : wrapper.Calls) :
    wrapper.connect.Calls := by
  unfold AmqpConnectionWrapper.connect
  cases ready : wrapper.state with
  | connected => exact calls
  | disposed => exact calls
  | ready =>
      have empty : wrapper.container = none := by
        cases content : wrapper.container with
        | none => rfl
        | some run => cases ready.symm.trans (calls.owner run content).1
      have settled : wrapper.reconnecting = none := by
        cases reconnecting : wrapper.reconnecting with
        | none => rfl
        | some phase =>
            exact absurd ready (calls.after (by rw [reconnecting]; nofun))
      have silent : wrapper.listens = false := by
        cases listens : wrapper.listens with
        | false => rfl
        | true => exact absurd ready (calls.listening listens)
      unfold initializeConnection
      dsimp only
      cases wrapper.connectionPromise with
      | some promise =>
          refine ⟨?_, fun _ _ => ⟨settled, silent, nofun⟩, nofun, nofun⟩
          intro run holds
          cases empty.symm.trans holds
      | none =>
          refine ⟨?_, fun _ _ => ⟨settled, silent, nofun⟩, nofun, nofun⟩
          intro run holds
          cases empty.symm.trans holds

theorem Calls.dispose
    {wrapper : AmqpConnectionWrapper} (calls : wrapper.Calls) :
    wrapper.dispose.Calls := by
  unfold AmqpConnectionWrapper.dispose
  cases wrapper.state with
  | ready => exact calls
  | disposed => exact calls
  | connected =>
      have disposed :
          Calls
            { wrapper with
              state := .disposed
              isCancelled := true
              listens := false
              container := none
              connectionPromise := none } :=
        ⟨nofun, fun run connecting => ⟨(calls.alone run connecting).1, rfl, nofun⟩,
          nofun, nofun⟩
      dsimp only
      cases wrapper.container with
      | none => exact disposed
      | some run => exact disposed.disposeConnection run

theorem Calls.reconnect
    {wrapper : AmqpConnectionWrapper} (calls : wrapper.Calls)
    (listens : wrapper.listens = true) :
    wrapper.reconnect.Calls := by
  have started : wrapper.state ≠ .ready := calls.listening listens
  have connected : wrapper.connecting = none := by
    cases connecting : wrapper.connecting with
    | none => rfl
    | some run =>
        have silent := (calls.alone run connecting).2.1
        cases silent.symm.trans listens
  unfold AmqpConnectionWrapper.reconnect
  split
  · exact calls
  · split
    case h_1 content =>
      exact calls.awaitConnection content connected started
    case h_2 old content =>
      have released :
          Calls
            { wrapper with
              container := none
              reconnecting := some .disposingOld } := by
        refine ⟨nofun, ?_, fun _ => started, calls.listening⟩
        intro run connecting
        cases connected.symm.trans connecting
      exact released.disposeConnection old

theorem Calls.emitClosed
    {wrapper : AmqpConnectionWrapper} (calls : wrapper.Calls) (run : ℕ) :
    (wrapper.emitClosed run).Calls := by
  unfold AmqpConnectionWrapper.emitClosed
  split
  case isTrue passedOn => exact calls.reconnect passedOn.2
  case isFalse => exact calls

theorem Calls.connectResumed
    {wrapper : AmqpConnectionWrapper} {run : ℕ}
    (calls : wrapper.Calls) (result : InitializerResult)
    (connecting : wrapper.connecting = some run) :
    (wrapper.connectResumed run result).Calls := by
  obtain ⟨settled, silent, started⟩ := calls.alone run connecting
  have empty : wrapper.container = none := calls.empty_of_connecting connecting
  have ended :
      ∀ state, state ≠ .ready →
        Calls { wrapper with connecting := none, state := state } := by
    intro state later
    refine ⟨?_, nofun, fun _ => later, fun _ => later⟩
    intro other holds
    cases empty.symm.trans holds
  unfold AmqpConnectionWrapper.connectResumed
  cases result with
  | rejected error => exact ended .disposed nofun
  | cancelled => exact ⟨nofun, nofun, fun _ => started, fun _ => started⟩
  | connection =>
      dsimp only
      by_cases disposed : wrapper.state = .disposed
      · rw [if_pos disposed]
        exact (ended wrapper.state started).disposeConnection run
      · rw [if_neg disposed]
        refine ⟨?_, nofun, fun _ => started, fun _ => started⟩
        intro other holds
        exact ⟨connected_of_state started disposed, rfl, settled⟩

theorem Calls.reconnectResumed
    {wrapper : AmqpConnectionWrapper} {run : ℕ}
    (calls : wrapper.Calls) (result : InitializerResult)
    (reconnecting : wrapper.reconnecting = some (.awaiting run)) :
    (wrapper.reconnectResumed run result).Calls := by
  obtain ⟨connected, started⟩ := calls.connected_of_reconnecting reconnecting
  have empty : wrapper.container = none :=
    calls.empty_of_reconnecting reconnecting
  have ended : ∀ phase, Calls { wrapper with reconnecting := phase } := by
    intro phase
    refine ⟨?_, ?_, fun _ => started, calls.listening⟩
    · intro other holds
      cases empty.symm.trans holds
    · intro other connecting
      cases connected.symm.trans connecting
  unfold AmqpConnectionWrapper.reconnectResumed
  cases result with
  | rejected error =>
      dsimp only
      split
      · exact ended none
      · exact (ended (some .finishing)).dispose
  | cancelled =>
      refine ⟨nofun, ?_, fun _ => started, calls.listening⟩
      intro other connecting
      cases connected.symm.trans connecting
  | connection =>
      dsimp only
      by_cases disposed : wrapper.state = .disposed
      · rw [if_pos disposed]
        exact (ended (some .finishing)).disposeConnection run
      · rw [if_neg disposed]
        refine ⟨?_, ?_, nofun, calls.listening⟩
        · intro other holds
          exact ⟨connected_of_state started disposed, connected, rfl⟩
        · intro other connecting
          cases connected.symm.trans connecting

theorem Calls.channelRecreationFailed
    {wrapper : AmqpConnectionWrapper}
    (calls : wrapper.Calls) (run : ℕ) (isDisposed : Bool) :
    (wrapper.channelRecreationFailed run isDisposed).Calls := by
  unfold AmqpConnectionWrapper.channelRecreationFailed
  dsimp only
  split
  · exact calls.withConnection run
  · exact ((calls.withConnection run).emitClosed run).disposeConnection run

/-! ### Whole runs -/

/-- The event makes a run of the initializer lose its connection. -/
def loses (wrapper : AmqpConnectionWrapper) : WrapperEvent → Bool
  | .initializer run event =>
      match wrapper.runs[run]? with
      | none => false
      | some current =>
          current.loses (wrapper.connectionPromise == some run) event
  | _ => false

/-- No step loses the connection of a run. -/
def KeepsOwnership (wrapper : AmqpConnectionWrapper) (event : WrapperEvent) :
    Prop :=
  wrapper.loses event = false

instance (wrapper : AmqpConnectionWrapper) (event : WrapperEvent) :
    Decidable (wrapper.KeepsOwnership event) :=
  inferInstanceAs (Decidable (_ = _))

theorem preserved
    (maxAttempts : JsNumber) :
    (machine maxAttempts).PreservedUnder KeepsOwnership
      (fun wrapper => wrapper.Accounted ∧ wrapper.Calls) := by
  rintro wrapper event next ⟨accounted, calls⟩ keeps stepped
  change wrapper.step maxAttempts event = some next at stepped
  cases event with
  | connectCalled =>
      cases stepped
      exact ⟨accounted.connect calls, calls.connect⟩
  | disposeCalled =>
      cases stepped
      exact ⟨accounted.dispose, calls.dispose⟩
  | initializer run event =>
      simp only [step, initializerStep] at stepped
      cases found : wrapper.runs[run]? with
      | none =>
          rw [found] at stepped
          cases stepped
      | some current =>
          rw [found] at stepped
          dsimp only at stepped
          split at stepped
          case h_1 => cases stepped
          case h_2 run' resources taken =>
            cases stepped
            have steps := InitializerRun.steps_of_step taken
            unfold KeepsOwnership loses at keeps
            dsimp only at keeps
            rw [found] at keeps
            have carries := steps.carries keeps
            exact
              ⟨accounted.setRun found carries _,
                ⟨calls.owner, calls.alone, calls.after, calls.listening⟩⟩
  | connectResumed =>
      simp only [step] at stepped
      split at stepped
      case h_1 => cases stepped
      case h_2 run connecting =>
        obtain ⟨result, settled, rfl⟩ := Option.map_eq_some_iff.mp stepped
        exact
          ⟨accounted.connectResumed calls connecting settled,
            calls.connectResumed result connecting⟩
  | oldConnectionDisposed =>
      simp only [step] at stepped
      split at stepped
      case h_1 reconnecting =>
        cases stepped
        have idle : ∀ run, wrapper.reconnecting ≠ some (.awaiting run) := by
          intro run awaiting
          cases reconnecting.symm.trans awaiting
        have empty : wrapper.container = none :=
          calls.empty_of_reconnecting reconnecting
        obtain ⟨connected, started⟩ :=
          calls.connected_of_reconnecting reconnecting
        exact
          ⟨accounted.awaitConnection idle,
            calls.awaitConnection empty connected started⟩
      case h_2 => cases stepped
  | reconnectResumed =>
      simp only [step] at stepped
      split at stepped
      case h_1 run reconnecting =>
        obtain ⟨result, settled, rfl⟩ := Option.map_eq_some_iff.mp stepped
        exact
          ⟨accounted.reconnectResumed calls reconnecting settled,
            calls.reconnectResumed result reconnecting⟩
      case h_2 => cases stepped
  | reconnectFinished =>
      simp only [step] at stepped
      split at stepped
      case h_1 reconnecting =>
        cases stepped
        refine ⟨accounted.reassign rfl rfl ?_ accounted.held, ?_⟩
        · rintro run current found (connecting | awaiting | holds)
          · exact Or.inl (Or.inl connecting)
          · cases reconnecting.symm.trans awaiting
          · exact Or.inl (Or.inr (Or.inr holds))
        · refine ⟨?_, ?_, nofun, calls.listening⟩
          · intro run holds
            obtain ⟨state, connected, _⟩ := calls.owner run holds
            exact ⟨state, connected, rfl⟩
          · intro run connecting
            obtain ⟨_, silent, started⟩ := calls.alone run connecting
            exact ⟨rfl, silent, started⟩
      case h_2 => cases stepped
  | connectionLost run =>
      simp only [step] at stepped
      split at stepped
      case h_1 => cases stepped
      case h_2 current found =>
        split at stepped
        · cases stepped
          exact
            ⟨(accounted.emitClosed run).disposeConnection run,
              (calls.emitClosed run).disposeConnection run⟩
        · cases stepped
  | channelLost run =>
      simp only [step] at stepped
      split at stepped
      case h_1 => cases stepped
      case h_2 current found =>
        split at stepped
        · cases stepped
          refine ⟨accounted.withConnection ?_, calls.withConnection run⟩
          intro connection _
          exact AmqpConnection.careful_recreateChannel _ _
        · cases stepped
  | channelRecreationSettled run settlement =>
      simp only [step] at stepped
      split at stepped
      case h_1 => cases stepped
      case h_2 current found =>
        split at stepped
        case h_1 => cases stepped
        case h_2 amqplibConnection pending =>
          cases stepped
          refine ⟨accounted.withConnection ?_, calls.withConnection run⟩
          intro connection _
          exact AmqpConnection.careful_channelRecreated _ _ amqplibConnection
        case h_3 =>
          cases stepped
          exact
            ⟨accounted.channelRecreationFailed run _,
              calls.channelRecreationFailed run _⟩
  | connectionBecameUnavailable =>
      simp only [step] at stepped
      split at stepped
      case isTrue available =>
        cases stepped
        exact ⟨accounted.reconnect, calls.reconnect available.1⟩
      case isFalse => cases stepped

/-- Once the wrapper is disposed of and nothing is pending, every connection
that was opened has been handed to the disposer, in every run in which no step
loses one.  (`dispose` of a wrapper that was never asked to connect is ignored
by its guard.) -/
theorem disposed_connections_disposed
    (maxAttempts : JsNumber) (schedule : List WrapperEvent)
    (wrapper : AmqpConnectionWrapper)
    (ownership :
      (machine maxAttempts).Throughout KeepsOwnership create schedule)
    (execution :
      (machine maxAttempts).run create schedule = some wrapper)
    (disposed : wrapper.state = .disposed)
    (quiescent : wrapper.Quiescent) :
    ∀ connection < wrapper.resources.opened,
      connection ∈ wrapper.resources.disposedConnections := by
  obtain ⟨accounted, calls⟩ :=
    Machine.run_invariant_under (preserved maxAttempts)
      ⟨accounted_create, calls_create⟩ ownership execution
  obtain ⟨connected, reconnected, settled⟩ := quiescent
  intro connection below
  rcases accounted.custody connection below with handled | ⟨current, member, keeps⟩
  · exact handled
  · obtain ⟨run, found⟩ := List.mem_iff_getElem?.mp member
    rcases accounted.attended run current found with attended | spent
    · rcases attended with connecting | reconnecting | holds
      · cases connected.symm.trans connecting
      · cases reconnected.symm.trans reconnecting
      · cases disposed.symm.trans (calls.owner run holds).1
    · exact absurd spent keeps.not_spent

/-- A first attempt fails, the second one connects, the connection is lost while
idle, and the wrapper is disposed of while it reconnects. -/
def disposedWhileReconnecting : List WrapperEvent :=
  [.connectCalled, .initializer 0 .started,
    .initializer 0 (.connectionSettled .rejected), .initializer 0 .resumed,
    .initializer 0 .delayed, .initializer 0 (.connectionSettled .fulfilled),
    .initializer 0 (.channelSettled .fulfilled), .initializer 0 .resumed,
    .initializer 0 .finished, .connectResumed, .connectionLost 0,
    .oldConnectionDisposed, .initializer 1 .started,
    .initializer 1 (.connectionSettled .fulfilled),
    .initializer 1 (.channelSettled .fulfilled), .initializer 1 .resumed,
    .disposeCalled, .initializer 1 .finished, .reconnectResumed,
    .reconnectFinished]

theorem disposed_connections_disposed_reconnecting :
    ∃ wrapper,
      (machine (.ofNat 2)).run create disposedWhileReconnecting = some wrapper ∧
        wrapper.resources.opened = 2 ∧
        ∀ connection < wrapper.resources.opened,
          connection ∈ wrapper.resources.disposedConnections :=
  ⟨_, rfl, rfl,
    disposed_connections_disposed (.ofNat 2) disposedWhileReconnecting _
      (by decide) rfl rfl
      ⟨rfl, rfl,
        List.forall_mem_cons.mpr
          ⟨⟨_, rfl⟩, List.forall_mem_cons.mpr ⟨⟨_, rfl⟩, List.forall_mem_nil _⟩⟩⟩⟩

/-- `dispose` while the channel of the first connection is being created. -/
def disposedWhileConnecting : List WrapperEvent :=
  [.connectCalled, .initializer 0 .started,
    .initializer 0 (.connectionSettled .fulfilled), .disposeCalled,
    .initializer 0 (.channelSettled .fulfilled), .initializer 0 .resumed,
    .initializer 0 .finished, .connectResumed]

theorem disposedWhileConnecting_leaks :
    ¬ ∀ (maxAttempts : JsNumber) (schedule : List WrapperEvent)
        (wrapper : AmqpConnectionWrapper),
        (machine maxAttempts).run create schedule = some wrapper →
        wrapper.state = .disposed → wrapper.Quiescent →
        ∀ connection < wrapper.resources.opened,
          connection ∈ wrapper.resources.disposedConnections := by
  intro always
  have disposed :=
    always (.ofNat 10) disposedWhileConnecting _ rfl rfl
      ⟨rfl, rfl, List.forall_mem_cons.mpr ⟨⟨_, rfl⟩, List.forall_mem_nil _⟩⟩ 0
      (by decide)
  exact absurd disposed (by decide)

end AmqpConnectionWrapper

end Amq.Core
