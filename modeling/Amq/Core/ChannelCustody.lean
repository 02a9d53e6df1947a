import Amq.Core.AmqpSystem
import Amq.Core.ConnectionOwnership

/-!
# Who owns the shared channel

All connections of a wrapper put their channels into one container.  Only the last
run of the initializer can be under way, and only its connection listens to the
container; the channel in there was created on it.
-/

namespace Amq.Core

open Amq.Transition

namespace InitializerPhase

/-- The run makes no further attempt. -/
def isPast : InitializerPhase → Bool
  | .connected _ => true
  | .returned _ => true
  | .settled _ => true
  | _ => false

/-- A run that is past its attempts stays so. -/
theorem Moves.past
    {maxAttempts : JsNumber} {isCurrent : Bool}
    {phase phase' : InitializerPhase} {event : InitializerEvent}
    (moves : Moves maxAttempts isCurrent phase event phase')
    (past : phase.isPast = true) :
    phase'.isPast = true := by
  cases moves with
  | handedOut attempt current => rfl
  | cancelled phase event superseded place => rfl
  | finished result => rfl
  | began current => cases past
  | uncreated current => cases past
  | unopened attempt => cases past
  | rolledBack attempt => cases past
  | channelDisposed attempt => cases past
  | exceeded attempt current last => cases past
  | postponed attempt current further => cases past
  | retried attempt current => cases past

/-- A run whose promise is the current one does not find itself cancelled. -/
theorem Moves.current
    {maxAttempts : JsNumber} {phase phase' : InitializerPhase}
    {event : InitializerEvent} (moves : Moves maxAttempts true phase event phase') :
    (event = .finished ∧
        ∃ result, phase = .returned result ∧ phase' = .settled result) ∨
      (event ≠ .finished ∧ (∀ result, phase' ≠ .settled result) ∧
        phase' ≠ .returned .cancelled) := by
  cases moves with
  | finished result => exact Or.inl ⟨rfl, result, rfl, rfl⟩
  | cancelled phase event superseded place => cases superseded
  | began current =>
      rcases nextAttempt_cases maxAttempts 1 with next | next
      all_goals
        rw [next]
        exact Or.inr ⟨nofun, nofun, nofun⟩
  | retried attempt current =>
      rcases nextAttempt_cases maxAttempts (attempt + 1) with next | next
      all_goals
        rw [next]
        exact Or.inr ⟨nofun, nofun, nofun⟩
  | uncreated current => exact Or.inr ⟨nofun, nofun, nofun⟩
  | unopened attempt => exact Or.inr ⟨nofun, nofun, nofun⟩
  | rolledBack attempt => exact Or.inr ⟨nofun, nofun, nofun⟩
  | channelDisposed attempt => exact Or.inr ⟨nofun, nofun, nofun⟩
  | handedOut attempt current => exact Or.inr ⟨nofun, nofun, nofun⟩
  | exceeded attempt current last => exact Or.inr ⟨nofun, nofun, nofun⟩
  | postponed attempt current further => exact Or.inr ⟨nofun, nofun, nofun⟩

end InitializerPhase

namespace InitializerRun

/-- A run whose promise has settled takes no step. -/
theorem Steps.not_settled
    {maxAttempts : JsNumber} {isCurrent : Bool}
    {run run' : InitializerRun} {resources resources' : AmqpResources}
    {event : InitializerEvent}
    (steps :
      Steps maxAttempts isCurrent run resources event run' resources')
    (result : InitializerResult) :
    run.phase ≠ .settled result := by
  intro settled
  cases steps with
  | moved moves => exact moves.from_settled result settled
  | opened before => cases before.symm.trans settled
  | created before active => cases before.symm.trans settled
  | createdDisposed before disposed => cases before.symm.trans settled
  | failed before => cases before.symm.trans settled

/-- What is known of the connection of one run. -/
structure Record (run : InitializerRun) (opened : ℕ) : Prop where
  listens :
    run.connection.handlesChannels = true →
      run.connection.isDisposed = false ∧ run.phase.isPast = true ∧
        ∃ connection, run.connection.amqplibConnection = some connection ∧
          run.connection.amqpChannelProvider = some connection
  recreating :
    ∀ connection, run.connection.recreatingChannel = some connection →
      run.connection.amqplibConnection = some connection ∧
        run.phase.isPast = true
  /-- A connection that neither listens nor is disposed of was never in use. -/
  unused :
    run.connection.handlesChannels = false →
      run.connection.isDisposed = false →
        run.connection.handledConnection = none ∧
          run.connection.recreatingChannel = none
  creating :
    ∀ attempt connection, run.phase = .creatingChannel attempt connection →
      run.connection.amqplibConnection = some connection ∧
        run.connection.amqpChannelProvider = some connection
  below :
    ∀ connection, run.connection.amqplibConnection = some connection →
      connection < opened
  /-- A connection that is opened and not disposed of has its first channel, or
  waits for it. -/
  attached :
    run.connection.isDisposed = false →
      ∀ connection, run.connection.amqplibConnection = some connection →
        run.connection.handlesChannels = true ∨
          ∃ attempt, run.phase = .creatingChannel attempt connection

/-- The connection of the run uses this channel. -/
structure Holds (run : InitializerRun) (channel : ConfirmChannel) : Prop where
  listens : run.connection.handlesChannels = true
  idle : run.connection.recreatingChannel = none
  owns : run.connection.amqplibConnection = some channel.connection

theorem record_create (opened : ℕ) : create.Record opened :=
  ⟨nofun, nofun, fun _ _ => ⟨rfl, rfl⟩, nofun, nofun, nofun⟩

theorem Record.mono
    {run : InitializerRun} {opened later : ℕ}
    (record : run.Record opened) (grown : opened ≤ later) :
    run.Record later :=
  ⟨record.listens, record.recreating, record.unused, record.creating,
    fun connection owned => Nat.lt_of_lt_of_le (record.below connection owned) grown,
    record.attached⟩

end InitializerRun

namespace AmqpConnectionWrapper

/-- The runs of the initializer, their connections and the shared channel. -/
structure Custody (wrapper : AmqpConnectionWrapper) : Prop where
  records :
    ∀ (run : ℕ) (current : InitializerRun), wrapper.runs[run]? = some current →
      current.Record wrapper.resources.opened
  earlier :
    ∀ (run : ℕ) (current : InitializerRun), wrapper.runs[run]? = some current →
      run + 1 < wrapper.runs.length →
        (∃ result, current.phase = .settled result) ∧
          current.connection.handlesChannels = false
  owner :
    ∀ (channel : ConfirmChannel), wrapper.resources.channel = some channel →
      ∃ (run : ℕ) (current : InitializerRun),
        wrapper.runs[run]? = some current ∧ current.Holds channel
  present :
    ∀ (run : ℕ) (current : InitializerRun), wrapper.runs[run]? = some current →
      current.connection.handlesChannels = true →
        current.connection.recreatingChannel = none →
          ∃ channel, wrapper.resources.channel = some channel ∧
            current.Holds channel
  distinct :
    ∀ (run other : ℕ) (current another : InitializerRun) (connection : ℕ),
      wrapper.runs[run]? = some current → wrapper.runs[other]? = some another →
        current.connection.amqplibConnection = some connection →
          another.connection.amqplibConnection = some connection → run = other

theorem custody_create : create.Custody := by
  have empty (run : ℕ) (current : InitializerRun) :
      ¬ create.runs[run]? = some current := by
    intro found
    cases (List.mem_of_getElem? found)
  refine ⟨?_, ?_, ?_, ?_, ?_⟩
  · intro run current found
    exact absurd found (empty run current)
  · intro run current found
    exact absurd found (empty run current)
  · intro channel holds
    cases holds
  · intro run current found
    exact absurd found (empty run current)
  · intro run other current another connection found
    exact absurd found (empty run current)

/-- The last run, or none has been made. -/
def IsLast (wrapper : AmqpConnectionWrapper) (run : ℕ) : Prop :=
  run + 1 = wrapper.runs.length

/-- A run whose connection listens is the last one. -/
theorem Custody.last
    {wrapper : AmqpConnectionWrapper} {run : ℕ} {current : InitializerRun}
    (custody : wrapper.Custody) (found : wrapper.runs[run]? = some current)
    (active :
      current.connection.handlesChannels = true ∨
        ∀ result, current.phase ≠ .settled result) :
    wrapper.IsLast run := by
  have inRange := (List.getElem?_eq_some_iff.mp found).1
  by_contra other
  unfold IsLast at other
  have earlier := custody.earlier run current found (by omega)
  rcases active with listens | pending
  · rw [earlier.2] at listens
    cases listens
  · obtain ⟨result, settled⟩ := earlier.1
    exact pending result settled

/-- The channel belongs to the last run. -/
theorem Custody.holds_of_last
    {wrapper : AmqpConnectionWrapper} {run : ℕ} {current : InitializerRun}
    {channel : ConfirmChannel}
    (custody : wrapper.Custody) (found : wrapper.runs[run]? = some current)
    (last : wrapper.IsLast run)
    (holds : wrapper.resources.channel = some channel) :
    current.Holds channel := by
  obtain ⟨other, another, atOther, uses⟩ := custody.owner channel holds
  have otherLast := custody.last atOther (Or.inl uses.listens)
  have same : other = run := by
    unfold IsLast at last otherLast
    omega
  subst same
  rw [found] at atOther
  cases atOther
  exact uses

/-- The last run changes, and with it the channel. -/
theorem Custody.setLast
    {wrapper : AmqpConnectionWrapper} {run : ℕ}
    {current next : InitializerRun} {resources : AmqpResources}
    (custody : wrapper.Custody) (found : wrapper.runs[run]? = some current)
    (last : wrapper.IsLast run)
    (record : next.Record resources.opened)
    (grown : wrapper.resources.opened ≤ resources.opened)
    (own :
      ∀ connection, next.connection.amqplibConnection = some connection →
        current.connection.amqplibConnection = some connection ∨
          wrapper.resources.opened ≤ connection)
    (owner :
      ∀ channel, resources.channel = some channel → next.Holds channel)
    (present :
      next.connection.handlesChannels = true →
        next.connection.recreatingChannel = none →
          ∃ channel, resources.channel = some channel)
    (promise : Option ℕ) :
    Custody
      { wrapper with
        runs := wrapper.runs.set run next
        resources := resources
        connectionPromise := promise } := by
  have inRange := (List.getElem?_eq_some_iff.mp found).1
  have placed : (wrapper.runs.set run next)[run]? = some next :=
    List.getElem?_set_self inRange
  have elsewhere (other : ℕ) (different : other ≠ run) :
      (wrapper.runs.set run next)[other]? = wrapper.runs[other]? :=
    List.getElem?_set_ne (Ne.symm different)
  have silent (other : ℕ) (another : InitializerRun) (different : other ≠ run)
      (atOther : wrapper.runs[other]? = some another) :
      another.connection.handlesChannels = false := by
    have below := (List.getElem?_eq_some_iff.mp atOther).1
    unfold IsLast at last
    exact (custody.earlier other another atOther (by omega)).2
  refine ⟨?_, ?_, ?_, ?_, ?_⟩
  · intro other another atOther
    change (wrapper.runs.set run next)[other]? = some another at atOther
    by_cases same : other = run
    · subst same
      rw [placed] at atOther
      cases atOther
      exact record
    · rw [elsewhere other same] at atOther
      exact (custody.records other another atOther).mono grown
  · intro other another atOther before
    change (wrapper.runs.set run next)[other]? = some another at atOther
    change other + 1 < (wrapper.runs.set run next).length at before
    rw [List.length_set] at before
    have different : other ≠ run := by
      unfold IsLast at last
      omega
    rw [elsewhere other different] at atOther
    exact custody.earlier other another atOther before
  · intro channel holds
    exact ⟨run, next, placed, owner channel holds⟩
  · intro other another atOther listens idle
    change (wrapper.runs.set run next)[other]? = some another at atOther
    by_cases same : other = run
    · subst same
      rw [placed] at atOther
      cases atOther
      obtain ⟨channel, holds⟩ := present listens idle
      exact ⟨channel, holds, owner channel holds⟩
    · rw [elsewhere other same] at atOther
      rw [silent other another same atOther] at listens
      cases listens
  · -- A connection that is opened now has a number of its own.
    have fresh (other : ℕ) (another : InitializerRun) (connection : ℕ)
        (different : other ≠ run)
        (atOther : wrapper.runs[other]? = some another)
        (owned : another.connection.amqplibConnection = some connection)
        (ownedNext : next.connection.amqplibConnection = some connection) :
        False := by
      rcases own connection ownedNext with before | opened
      · exact different
          (custody.distinct other run another current connection atOther found
            owned before)
      · have below := (custody.records other another atOther).below connection owned
        omega
    intro first second one two connection atFirst atSecond ownedFirst ownedSecond
    change (wrapper.runs.set run next)[first]? = some one at atFirst
    change (wrapper.runs.set run next)[second]? = some two at atSecond
    by_cases firstHere : first = run
    · by_cases secondHere : second = run
      · exact firstHere.trans secondHere.symm
      · rw [elsewhere second secondHere] at atSecond
        subst firstHere
        rw [placed] at atFirst
        cases atFirst
        exact
          (fresh second two connection secondHere atSecond ownedSecond
            ownedFirst).elim
    · rw [elsewhere first firstHere] at atFirst
      by_cases secondHere : second = run
      · subst secondHere
        rw [placed] at atSecond
        cases atSecond
        exact
          (fresh first one connection firstHere atFirst ownedFirst
            ownedSecond).elim
      · rw [elsewhere second secondHere] at atSecond
        exact custody.distinct first second one two connection atFirst atSecond
          ownedFirst ownedSecond

/-- A run changes whose connection does not listen, and neither its phase nor the
channel does. -/
theorem Custody.setSilent
    {wrapper : AmqpConnectionWrapper} {run : ℕ}
    {current next : InitializerRun} {resources : AmqpResources}
    (custody : wrapper.Custody) (found : wrapper.runs[run]? = some current)
    (record : next.Record resources.opened)
    (opened : resources.opened = wrapper.resources.opened)
    (channel : resources.channel = wrapper.resources.channel)
    (phase : next.phase = current.phase)
    (own :
      next.connection.amqplibConnection = current.connection.amqplibConnection)
    (silentBefore : current.connection.handlesChannels = false)
    (silent : next.connection.handlesChannels = false) :
    Custody
      { wrapper with
        runs := wrapper.runs.set run next
        resources := resources } := by
  have inRange := (List.getElem?_eq_some_iff.mp found).1
  have placed : (wrapper.runs.set run next)[run]? = some next :=
    List.getElem?_set_self inRange
  have elsewhere (other : ℕ) (different : other ≠ run) :
      (wrapper.runs.set run next)[other]? = wrapper.runs[other]? :=
    List.getElem?_set_ne (Ne.symm different)
  -- What is at a place has the phase and the connection that were there.
  have before (other : ℕ) (another : InitializerRun)
      (atOther : (wrapper.runs.set run next)[other]? = some another) :
      ∃ previous, wrapper.runs[other]? = some previous ∧
        another.phase = previous.phase ∧
        another.connection.amqplibConnection =
          previous.connection.amqplibConnection ∧
        another.connection.handlesChannels =
          previous.connection.handlesChannels ∧
        (another.connection.handlesChannels = true → another = previous) := by
    by_cases same : other = run
    · subst same
      rw [placed] at atOther
      cases atOther
      refine ⟨current, found, phase, own, silent.trans silentBefore.symm, ?_⟩
      intro listens
      rw [silent] at listens
      cases listens
    · rw [elsewhere other same] at atOther
      exact ⟨another, atOther, rfl, rfl, rfl, fun _ => rfl⟩
  refine ⟨?_, ?_, ?_, ?_, ?_⟩
  · intro other another atOther
    change (wrapper.runs.set run next)[other]? = some another at atOther
    by_cases same : other = run
    · subst same
      rw [placed] at atOther
      cases atOther
      exact record
    · rw [elsewhere other same] at atOther
      exact (custody.records other another atOther).mono (Nat.le_of_eq opened.symm)
  · intro other another atOther earlier
    obtain ⟨previous, atPrevious, samePhase, _, sameListens, _⟩ :=
      before other another atOther
    change other + 1 < (wrapper.runs.set run next).length at earlier
    rw [List.length_set] at earlier
    rw [samePhase, sameListens]
    exact custody.earlier other previous atPrevious earlier
  · intro content holds
    rw [channel] at holds
    obtain ⟨other, another, atOther, uses⟩ := custody.owner content holds
    have different : other ≠ run := by
      intro same
      subst same
      rw [found] at atOther
      cases atOther
      cases silentBefore.symm.trans uses.listens
    exact ⟨other, another, (elsewhere other different).trans atOther, uses⟩
  · intro other another atOther listens idle
    obtain ⟨previous, atPrevious, _, _, _, unchanged⟩ := before other another atOther
    have same := unchanged listens
    subst same
    rw [channel]
    exact custody.present other another atPrevious listens idle
  · intro first second one two connection atFirst atSecond ownedFirst ownedSecond
    obtain ⟨beforeFirst, atBeforeFirst, _, sameFirst, _⟩ :=
      before first one atFirst
    obtain ⟨beforeSecond, atBeforeSecond, _, sameSecond, _⟩ :=
      before second two atSecond
    exact custody.distinct first second beforeFirst beforeSecond connection
      atBeforeFirst atBeforeSecond (sameFirst.symm.trans ownedFirst)
      (sameSecond.symm.trans ownedSecond)

/-- A new run is made once the last one is over and its connection is silent. -/
theorem Custody.addRun
    {wrapper next : AmqpConnectionWrapper} (custody : wrapper.Custody)
    (runs : next.runs = wrapper.runs ++ [.create])
    (resources : next.resources = wrapper.resources)
    (ended :
      ∀ (run : ℕ) (current : InitializerRun), wrapper.runs[run]? = some current →
        wrapper.IsLast run →
        (∃ result, current.phase = .settled result) ∧
          current.connection.handlesChannels = false) :
    next.Custody := by
  -- What is at a place was there before, or is the new run.
  have before (other : ℕ) (another : InitializerRun)
      (atOther : next.runs[other]? = some another) :
      wrapper.runs[other]? = some another ∨
        (other = wrapper.runs.length ∧ another = .create) := by
    rw [runs] at atOther
    by_cases inside : other < wrapper.runs.length
    · rw [List.getElem?_append_left inside] at atOther
      exact Or.inl atOther
    · have inRange := (List.getElem?_eq_some_iff.mp atOther).1
      rw [List.length_append, List.length_singleton] at inRange
      have last : other = wrapper.runs.length := by omega
      subst last
      rw [List.getElem?_concat_length] at atOther
      exact Or.inr ⟨rfl, (Option.some.inj atOther).symm⟩
  have kept (other : ℕ) (another : InitializerRun)
      (atOther : wrapper.runs[other]? = some another) :
      next.runs[other]? = some another := by
    rw [runs, List.getElem?_append_left (List.getElem?_eq_some_iff.mp atOther).1]
    exact atOther
  refine ⟨?_, ?_, ?_, ?_, ?_⟩
  · intro other another atOther
    rw [resources]
    rcases before other another atOther with earlier | ⟨_, rfl⟩
    · exact custody.records other another earlier
    · exact InitializerRun.record_create _
  · intro other another atOther inside
    rw [runs, List.length_append, List.length_singleton] at inside
    rcases before other another atOther with earlier | ⟨last, _⟩
    · by_cases last : other + 1 = wrapper.runs.length
      · exact ended other another earlier last
      · exact custody.earlier other another earlier (by omega)
    · omega
  · intro channel holds
    rw [resources] at holds
    obtain ⟨other, another, atOther, uses⟩ := custody.owner channel holds
    exact ⟨other, another, kept other another atOther, uses⟩
  · intro other another atOther listens idle
    rw [resources]
    rcases before other another atOther with earlier | ⟨_, rfl⟩
    · exact custody.present other another earlier listens idle
    · cases listens
  · intro first second one two connection atFirst atSecond ownedFirst ownedSecond
    rcases before first one atFirst with earlierFirst | ⟨_, rfl⟩
    · rcases before second two atSecond with earlierSecond | ⟨_, rfl⟩
      · exact custody.distinct first second one two connection earlierFirst
          earlierSecond ownedFirst ownedSecond
      · cases ownedSecond
    · cases ownedFirst

/-- Only control fields change. -/
theorem Custody.congr
    {wrapper next : AmqpConnectionWrapper} (custody : wrapper.Custody)
    (runs : next.runs = wrapper.runs)
    (resources : next.resources = wrapper.resources) :
    next.Custody := by
  refine ⟨?_, ?_, ?_, ?_, ?_⟩
  · rw [runs, resources]
    exact custody.records
  · rw [runs]
    exact custody.earlier
  · rw [runs, resources]
    exact custody.owner
  · rw [runs, resources]
    exact custody.present
  · rw [runs]
    exact custody.distinct

/-! ## What happens to the connection of a run -/

/-- An active connection of the last run is disposed of. -/
theorem Custody.disposed
    {wrapper : AmqpConnectionWrapper} {run : ℕ} {current : InitializerRun}
    {connection : AmqpConnection}
    (custody : wrapper.Custody) (found : wrapper.runs[run]? = some current)
    (last : wrapper.IsLast run) (active : connection.isDisposed = false)
    (own : connection.amqplibConnection = current.connection.amqplibConnection)
    (provider :
      connection.amqpChannelProvider = current.connection.amqpChannelProvider)
    (recreating :
      ∀ amqplibConnection,
        connection.recreatingChannel = some amqplibConnection →
          current.connection.recreatingChannel = some amqplibConnection) :
    Custody
      { wrapper with
        runs :=
          wrapper.runs.set run
            { current with
              connection := (connection.dispose wrapper.resources).1 }
        resources := (connection.dispose wrapper.resources).2 } := by
  have record := custody.records run current found
  obtain ⟨silent, empty, sameRecreating, sameProvider⟩ :=
    AmqpConnection.dispose_of_active wrapper.resources active
  have sameOwn :
      (connection.dispose wrapper.resources).1.amqplibConnection =
        current.connection.amqplibConnection :=
    (AmqpConnection.dispose_amqplibConnection connection wrapper.resources).trans
      own
  have opened :=
    AmqpConnection.dispose_opened connection wrapper.resources
  have disposed := AmqpConnection.dispose_isDisposed connection wrapper.resources
  refine custody.setLast found last ⟨?_, ?_, ?_, ?_, ?_, ?_⟩
    (Nat.le_of_eq opened.symm) (fun _ owned => Or.inl (sameOwn.symm.trans owned))
    ?_ ?_ wrapper.connectionPromise
  · intro listens
    cases silent.symm.trans listens
  · intro amqplibConnection pending
    have before :=
      record.recreating amqplibConnection
        (recreating amqplibConnection (sameRecreating.symm.trans pending))
    exact ⟨sameOwn.trans before.1, before.2⟩
  · intro _ stillActive
    cases disposed.symm.trans stillActive
  · intro attempt amqplibConnection creating
    have before := record.creating attempt amqplibConnection creating
    exact
      ⟨sameOwn.trans before.1, sameProvider.trans (provider.trans before.2)⟩
  · intro amqplibConnection owned
    rw [opened]
    exact record.below amqplibConnection (sameOwn.symm.trans owned)
  · intro stillActive
    cases disposed.symm.trans stillActive
  · intro channel holds
    cases empty.symm.trans holds
  · intro listens
    cases silent.symm.trans listens

/-- A connection that listens begins to replace its channel. -/
theorem Custody.recreatingChannel
    {wrapper : AmqpConnectionWrapper} {run : ℕ} {current : InitializerRun}
    (custody : wrapper.Custody) (found : wrapper.runs[run]? = some current)
    (listens : current.connection.handlesChannels = true) :
    Custody (wrapper.withConnection run AmqpConnection.recreateChannel) := by
  have record := custody.records run current found
  obtain ⟨active, past, amqplibConnection, owned, provided⟩ :=
    record.listens listens
  have last := custody.last found (Or.inl listens)
  rw [withConnection_of_found AmqpConnection.recreateChannel found]
  cases recreating : current.connection.recreatingChannel with
  | some pending =>
      rw [AmqpConnection.recreateChannel_of_pending wrapper.resources recreating]
      refine custody.setLast found last record (Nat.le_refl _)
        (fun _ same => Or.inl same) ?_ ?_ wrapper.connectionPromise
      · intro channel holds
        exact custody.holds_of_last found last holds
      · intro _ idle
        cases recreating.symm.trans idle
  | none =>
      obtain ⟨emptied, next, opened, empty⟩ :=
        AmqpConnection.recreateChannel_of_idle wrapper.resources recreating
      rw [next]
      refine custody.setLast found last ⟨?_, ?_, ?_, ?_, ?_, ?_⟩
        (Nat.le_of_eq opened.symm) ?_ ?_ ?_ wrapper.connectionPromise
      · intro _
        exact ⟨active, past, amqplibConnection, owned, provided⟩
      · intro pending same
        change current.connection.amqpChannelProvider = some pending at same
        rw [provided] at same
        cases same
        exact ⟨owned, past⟩
      · intro silent
        cases silent.symm.trans listens
      · exact record.creating
      · intro connection same
        rw [opened]
        exact record.below connection same
      · intro _ connection _
        exact Or.inl listens
      · intro connection same
        exact Or.inl same
      · intro channel holds
        cases empty.symm.trans holds
      · intro _ idle
        change current.connection.amqpChannelProvider = none at idle
        cases provided.symm.trans idle

/-- The new channel of an active connection is stored. -/
theorem Custody.recreated
    {wrapper : AmqpConnectionWrapper} {run amqplibConnection : ℕ}
    {current : InitializerRun}
    (custody : wrapper.Custody) (found : wrapper.runs[run]? = some current)
    (active : current.connection.isDisposed = false)
    (pending : current.connection.recreatingChannel = some amqplibConnection) :
    Custody
      (wrapper.withConnection run fun connection resources =>
        connection.channelRecreated resources amqplibConnection) := by
  have record := custody.records run current found
  have owned := record.recreating amqplibConnection pending
  have listens : current.connection.handlesChannels = true := by
    by_contra silent
    have unused := record.unused (Bool.eq_false_iff.mpr silent) active
    cases unused.2.symm.trans pending
  rw [withConnection_of_found _ found]
  unfold AmqpConnection.channelRecreated
  dsimp only
  rw [if_neg (Bool.eq_false_iff.mp active)]
  refine custody.setLast found (custody.last found (Or.inl listens))
    ⟨?_, ?_, ?_, ?_, ?_, ?_⟩ ?_ ?_ ?_ ?_ wrapper.connectionPromise
  · exact record.listens
  · intro other impossible
    cases impossible
  · intro silent
    cases silent.symm.trans listens
  · exact record.creating
  · exact record.below
  · intro _ connection _
    exact Or.inl listens
  · exact Nat.le_refl _
  · intro connection same
    exact Or.inl same
  · intro channel holds
    cases holds
    exact ⟨listens, rfl, owned.1⟩
  · intro _ _
    exact ⟨_, rfl⟩

/-- The new channel of a connection that has been disposed of is disposed of. -/
theorem Custody.dropped
    {wrapper : AmqpConnectionWrapper} {run : ℕ}
    {current : InitializerRun} {resources : AmqpResources}
    (custody : wrapper.Custody) (found : wrapper.runs[run]? = some current)
    (disposed : current.connection.isDisposed = true)
    (opened : resources.opened = wrapper.resources.opened)
    (channel : resources.channel = wrapper.resources.channel) :
    Custody
      { wrapper with
        runs :=
          wrapper.runs.set run
            { current with
              connection := { current.connection with recreatingChannel := none } }
        resources := resources } := by
  have record := custody.records run current found
  have silent : current.connection.handlesChannels = false := by
    by_contra listens
    have active := (record.listens (Bool.not_eq_false _ ▸ listens)).1
    cases disposed.symm.trans active
  refine custody.setSilent found ⟨?_, ?_, ?_, ?_, ?_, ?_⟩ opened channel rfl rfl
    silent silent
  · exact record.listens
  · intro other impossible
    cases impossible
  · intro _ active
    cases disposed.symm.trans active
  · exact record.creating
  · rw [opened]
    exact record.below
  · intro active
    cases disposed.symm.trans active

/-- During an attempt the connection has no channel yet. -/
theorem Custody.silent
    {wrapper : AmqpConnectionWrapper} {run : ℕ} {current : InitializerRun}
    (custody : wrapper.Custody) (found : wrapper.runs[run]? = some current)
    (attempting : current.phase.isPast = false) :
    current.connection.handlesChannels = false ∧
      current.connection.recreatingChannel = none := by
  have record := custody.records run current found
  constructor
  · by_contra listens
    have past := (record.listens (Bool.not_eq_false _ ▸ listens)).2.1
    cases attempting.symm.trans past
  · by_contra pending
    obtain ⟨connection, recreating⟩ := Option.ne_none_iff_exists'.mp pending
    have past := (record.recreating connection recreating).2
    cases attempting.symm.trans past

/-- A step of an attempt that ends without a channel. -/
theorem Custody.setAttempting
    {wrapper : AmqpConnectionWrapper} {run : ℕ}
    {current next : InitializerRun} {resources : AmqpResources}
    (custody : wrapper.Custody) (found : wrapper.runs[run]? = some current)
    (last : wrapper.IsLast run) (attempting : current.phase.isPast = false)
    (record : next.Record resources.opened)
    (grown : wrapper.resources.opened ≤ resources.opened)
    (own :
      ∀ connection, next.connection.amqplibConnection = some connection →
        current.connection.amqplibConnection = some connection ∨
          wrapper.resources.opened ≤ connection)
    (channel : resources.channel = wrapper.resources.channel)
    (quiet : next.connection.handlesChannels = false) (promise : Option ℕ) :
    Custody
      { wrapper with
        runs := wrapper.runs.set run next
        resources := resources
        connectionPromise := promise } := by
  refine custody.setLast found last record grown own ?_ ?_ promise
  · intro held holds
    rw [channel] at holds
    have uses := custody.holds_of_last found last holds
    cases (custody.silent found attempting).1.symm.trans uses.listens
  · intro listens
    cases quiet.symm.trans listens

section Initialized

variable {wrapper : AmqpConnectionWrapper} {run : ℕ} {current : InitializerRun}

theorem Custody.moved
    {maxAttempts : JsNumber} {isCurrent : Bool} {event : InitializerEvent}
    {phase : InitializerPhase}
    (custody : wrapper.Custody) (found : wrapper.runs[run]? = some current)
    (last : wrapper.IsLast run)
    (moves :
      InitializerPhase.Moves maxAttempts isCurrent current.phase event phase)
    (promise : Option ℕ) :
    Custody
      { wrapper with
        runs := wrapper.runs.set run (current.moveTo phase)
        connectionPromise := promise } := by
  have record := custody.records run current found
  refine custody.setLast found last ⟨?_, ?_, ?_, ?_, ?_, ?_⟩ (Nat.le_refl _)
    ?_ ?_ ?_ promise
  · intro listens
    obtain ⟨active, past, owned⟩ := record.listens listens
    exact ⟨active, moves.past past, owned⟩
  · intro connection recreating
    obtain ⟨owned, past⟩ := record.recreating connection recreating
    exact ⟨owned, moves.past past⟩
  · exact record.unused
  · intro attempt connection creating
    exact absurd creating (moves.not_channel.1 attempt connection)
  · exact record.below
  · intro active connection owned
    rcases record.attached active connection owned with
      listens | ⟨attempt, creating⟩
    · exact Or.inl listens
    · exact absurd creating (moves.from_creatingChannel attempt connection)
  · intro connection same
    exact Or.inl same
  · intro channel holds
    have uses := custody.holds_of_last found last holds
    exact ⟨uses.listens, uses.idle, uses.owns⟩
  · intro listens idle
    obtain ⟨channel, holds, _⟩ :=
      custody.present run current found listens idle
    exact ⟨channel, holds⟩

theorem Custody.opened
    {attempt : ℕ} (custody : wrapper.Custody)
    (found : wrapper.runs[run]? = some current) (last : wrapper.IsLast run)
    (before : current.phase = .connecting attempt) (promise : Option ℕ) :
    Custody
      { wrapper with
        runs :=
          wrapper.runs.set run
            ⟨.creatingChannel attempt wrapper.resources.opened,
              (current.connection.connectionOpened wrapper.resources).1⟩
        resources := (current.connection.connectionOpened wrapper.resources).2
        connectionPromise := promise } := by
  have record := custody.records run current found
  have attempting : current.phase.isPast = false := by
    rw [before]
    rfl
  obtain ⟨quiet, idle⟩ := custody.silent found attempting
  refine custody.setAttempting found last attempting ⟨?_, ?_, ?_, ?_, ?_, ?_⟩
    ?_ ?_ ?_ ?_ promise
  · intro listens
    cases quiet.symm.trans listens
  · intro connection recreating
    cases idle.symm.trans recreating
  · exact record.unused
  · intro made connection creating
    cases creating
    exact ⟨rfl, rfl⟩
  · intro connection same
    cases same
    exact Nat.lt_succ_self _
  · intro _ connection same
    cases same
    exact Or.inr ⟨attempt, rfl⟩
  · exact Nat.le_succ _
  · intro connection same
    cases same
    exact Or.inr (Nat.le_refl _)
  · rfl
  · exact quiet

theorem Custody.created
    {attempt connection : ℕ} (custody : wrapper.Custody)
    (found : wrapper.runs[run]? = some current) (last : wrapper.IsLast run)
    (before : current.phase = .creatingChannel attempt connection)
    (active : current.connection.isDisposed = false) (promise : Option ℕ) :
    Custody
      { wrapper with
        runs :=
          wrapper.runs.set run
            ⟨.connected attempt,
              (current.connection.channelCreated wrapper.resources
                connection).1⟩
        resources :=
          (current.connection.channelCreated wrapper.resources connection).2
        connectionPromise := promise } := by
  have record := custody.records run current found
  have attempting : current.phase.isPast = false := by
    rw [before]
    rfl
  have idle := (custody.silent found attempting).2
  obtain ⟨owned, provided⟩ := record.creating attempt connection before
  rw [AmqpConnection.channelCreated_of_active wrapper.resources connection active]
  refine custody.setLast found last ⟨?_, ?_, ?_, ?_, ?_, ?_⟩ ?_ ?_ ?_ ?_ promise
  · intro _
    exact ⟨active, rfl, connection, owned, provided⟩
  · intro other recreating
    cases idle.symm.trans recreating
  · intro impossible
    cases impossible
  · intro made other creating
    cases creating
  · exact record.below
  · intro _ other _
    exact Or.inl rfl
  · exact Nat.le_refl _
  · intro other same
    exact Or.inl same
  · intro channel holds
    cases holds
    exact ⟨rfl, idle, owned⟩
  · intro _ _
    exact ⟨_, rfl⟩

theorem Custody.createdDisposed
    {attempt connection : ℕ} (custody : wrapper.Custody)
    (found : wrapper.runs[run]? = some current) (last : wrapper.IsLast run)
    (before : current.phase = .creatingChannel attempt connection)
    (disposed : current.connection.isDisposed = true) (promise : Option ℕ) :
    Custody
      { wrapper with
        runs :=
          wrapper.runs.set run
            ⟨.disposingChannel attempt,
              (current.connection.channelCreated wrapper.resources
                connection).1⟩
        resources :=
          (current.connection.channelCreated wrapper.resources connection).2
        connectionPromise := promise } := by
  have record := custody.records run current found
  have attempting : current.phase.isPast = false := by
    rw [before]
    rfl
  obtain ⟨quiet, idle⟩ := custody.silent found attempting
  unfold AmqpConnection.channelCreated
  dsimp only
  rw [if_pos disposed]
  refine custody.setAttempting found last attempting ⟨?_, ?_, ?_, ?_, ?_, ?_⟩
    ?_ ?_ ?_ ?_ promise
  · intro listens
    cases quiet.symm.trans listens
  · intro other recreating
    cases idle.symm.trans recreating
  · intro _ active
    cases disposed.symm.trans active
  · intro made other creating
    cases creating
  · exact record.below
  · intro active
    cases disposed.symm.trans active
  · exact Nat.le_refl _
  · intro other same
    exact Or.inl same
  · rfl
  · exact quiet

theorem Custody.failed
    {attempt connection : ℕ} (custody : wrapper.Custody)
    (found : wrapper.runs[run]? = some current) (last : wrapper.IsLast run)
    (before : current.phase = .creatingChannel attempt connection)
    (promise : Option ℕ) :
    Custody
      { wrapper with
        runs :=
          wrapper.runs.set run
            ⟨.disposingConnection attempt,
              (current.connection.channelFailed wrapper.resources
                connection).1⟩
        resources :=
          (current.connection.channelFailed wrapper.resources connection).2
        connectionPromise := promise } := by
  have record := custody.records run current found
  have attempting : current.phase.isPast = false := by
    rw [before]
    rfl
  obtain ⟨quiet, idle⟩ := custody.silent found attempting
  refine custody.setAttempting found last attempting ⟨?_, ?_, ?_, ?_, ?_, ?_⟩
    ?_ ?_ ?_ ?_ promise
  · intro listens
    cases quiet.symm.trans listens
  · intro other recreating
    cases idle.symm.trans recreating
  · intro _ active
    cases active
  · intro made other creating
    cases creating
  · exact record.below
  · intro active
    cases active
  · exact Nat.le_refl _
  · intro other same
    exact Or.inl same
  · rfl
  · exact quiet

end Initialized

/-- A run of the initializer goes on. -/
theorem Custody.initialized
    {wrapper : AmqpConnectionWrapper} {run : ℕ}
    {current next : InitializerRun} {resources : AmqpResources}
    {maxAttempts : JsNumber} {isCurrent : Bool} {event : InitializerEvent}
    (custody : wrapper.Custody) (found : wrapper.runs[run]? = some current)
    (steps :
      InitializerRun.Steps maxAttempts isCurrent current wrapper.resources event
        next resources)
    (promise : Option ℕ) :
    Custody
      { wrapper with
        runs := wrapper.runs.set run next
        resources := resources
        connectionPromise := promise } := by
  have last := custody.last found (Or.inr steps.not_settled)
  cases steps with
  | moved moves => exact custody.moved found last moves promise
  | opened before => exact custody.opened found last before promise
  | created before active =>
      exact custody.created found last before active promise
  | createdDisposed before disposed =>
      exact custody.createdDisposed found last before disposed promise
  | failed before => exact custody.failed found last before promise

end AmqpConnectionWrapper

end Amq.Core
