import Amq.Core.AmqpConnection
import Amq.Core.CallEffects
import Amq.Core.AmqpSystem
import Amq.EventEmitter

/-!
# The loss of one connection

An `AmqpConnection` after `connect`, with its listeners on amqplib, on the channel
container and on the executor, with its calls and with its own listeners.  These
can dispose of the connection or use it while it emits an event; what they do is
part of the event that makes the connection emit, and they do not throw.

The history lists what has happened, the latest first.
-/

namespace Amq.Core

open Amq.Transition

/-- The events of the amqplib connection, of the channel container and of the
executor that `connect` listens to. -/
inductive HandledEvent where
  | connectionClose
  | connectionError
  | channelClose
  | channelError
  | channelReturn
  | channelBecameUnavailable
  | connectionClosing
  deriving DecidableEq, Repr

/-- The bound methods that `connect` passes to `on`. -/
inductive ConnectionHandler where
  | handleConnectionClose
  | handleChannelClose
  | handleError
  | handleReturn
  | handleChannelBecameUnavailable
  | handleConnectionClosing
  deriving DecidableEq, Repr

/-- The events that the connection emits itself. -/
inductive ConnectionEmission where
  | error
  /-- "return". -/
  | returned
  | closed
  | channelRecreated
  deriving DecidableEq, Repr

inductive ConnectionObservation where
  /-- amqplib reports the end of the connection: a "close" event, a command that
  fails with "connection closing" or a channel that cannot be created. -/
  | lost
  | disposeCalled
  | emitted (emission : ConnectionEmission)
  /-- `amqpDisposer.disposeConnection(connection)`. -/
  | connectionDisposed (connection : ℕ)
  /-- `amqpDisposer.disposeChannel(channel)`. -/
  | channelDisposed (channel : ConfirmChannel)
  /-- `amqpChannelContainer.set(channel)`. -/
  | channelInstalled (channel : ConfirmChannel)
  deriving DecidableEq

/-- A call of `recreateChannel` that has got past its flag. -/
inductive ChannelRecreation where
  /-- The channel is being created. -/
  | creating
  /-- The creation has failed, and the disposal of the connection is awaited. -/
  | disposing
  | ended
  deriving DecidableEq, Repr

structure ConnectedAmqpConnection where
  amqplibConnection : ℕ
  isDisposed : Bool
  isRecreatingChannel : Bool
  recreations : List ChannelRecreation
  /-- How many channels the channel provider has created. -/
  created : ℕ
  /-- The content of the channel container. -/
  channel : Option ConfirmChannel
  registered : EventEmitter.Registrations HandledEvent ConnectionHandler
  /-- `cancellationError` of the executor. -/
  cancellation : Option CommandError
  calls : List (ExecuteCall ConfirmChannel)
  history : List ConnectionObservation

/-- What a listener of the connection does. -/
inductive ListenerCall where
  | dispose
  /-- A method that runs a command. -/
  | execute (retryOnError : Bool)
  deriving DecidableEq, Repr

/-- What the listeners of the connection do when it emits. -/
abbrev ListenerCalls : Type :=
  ConnectionEmission → List ListenerCall

inductive ConnectionEvent where
  | dispose
  | execute (retryOnError : Bool)
  | connectionEmitted (isClose : Bool) (listeners : ListenerCalls)
  | channelEmitted
      (channel : ConfirmChannel) (event : HandledEvent) (listeners : ListenerCalls)
  | call (index : ℕ) (event : CallEvent) (listeners : ListenerCalls)
  /-- The promise of `amqpChannelProvider.create()` settles. -/
  | creationSettled
      (index : ℕ) (settlement : Settlement) (listeners : ListenerCalls)
  /-- The disposal that a failed creation has awaited is over. -/
  | disposalFlushed (index : ℕ)

namespace ConnectedAmqpConnection

/-- The listeners that `connect` adds, in the order of the source. -/
def handlers : EventEmitter.Registrations HandledEvent ConnectionHandler :=
  [(.connectionClose, .handleConnectionClose),
    (.connectionError, .handleError),
    (.channelClose, .handleChannelClose),
    (.channelError, .handleError),
    (.channelReturn, .handleReturn),
    (.channelBecameUnavailable, .handleChannelBecameUnavailable),
    (.connectionClosing, .handleConnectionClosing)]

/-- The listeners that `dispose` removes, in the order of the source. -/
def removals : EventEmitter.Registrations HandledEvent ConnectionHandler :=
  [(.connectionClosing, .handleConnectionClosing),
    (.channelBecameUnavailable, .handleChannelBecameUnavailable),
    (.channelClose, .handleChannelClose),
    (.channelError, .handleError),
    (.channelReturn, .handleReturn),
    (.connectionClose, .handleConnectionClose),
    (.connectionError, .handleError)]

/-- After `connect`, with its first channel. -/
def connected (amqplibConnection : ℕ) : ConnectedAmqpConnection where
  amqplibConnection := amqplibConnection
  isDisposed := false
  isRecreatingChannel := false
  recreations := []
  created := 1
  channel := some ⟨amqplibConnection, 0⟩
  registered :=
    handlers.foldl
      (fun registered entry => EventEmitter.on registered entry.1 entry.2) []
  cancellation := none
  calls := []
  history := []

def observe
    (connection : ConnectedAmqpConnection) (observation : ConnectionObservation) :
    ConnectedAmqpConnection :=
  { connection with history := observation :: connection.history }

/-- What a call reads of the executor and of the container. -/
def view (commandTimeoutMs : JsNumber) (connection : ConnectedAmqpConnection) :
    ExecutorView ConfirmChannel where
  kind := .channel
  commandTimeoutMs := commandTimeoutMs
  cancellation := connection.cancellation
  available := connection.channel

/-- A method that runs a command, up to its await. -/
def execute
    (commandTimeoutMs : JsNumber) (connection : ConnectedAmqpConnection)
    (retryOnError : Bool) : ConnectedAmqpConnection :=
  { connection with
    calls :=
      connection.calls ++
        [ExecuteCall.execute (connection.view commandTimeoutMs) retryOnError] }

/-- `amqpChannelExecutor.cancelAll(new ConnectionClosedError())`. -/
def cancelAll (connection : ConnectedAmqpConnection) : ConnectedAmqpConnection :=
  match connection.cancellation with
  | some _ => connection
  | none =>
      { connection with
        cancellation := some .connectionClosed
        calls := connection.calls.map (·.react .cancelled) }

/-- `amqpChannelExecutor.resumeAll()`. -/
def resumeAll (connection : ConnectedAmqpConnection) : ConnectedAmqpConnection :=
  { connection with calls := connection.calls.map (·.react .resumed) }

/-- `amqpChannelContainer.set(channel)`. -/
def setChannel
    (connection : ConnectedAmqpConnection) (channel : ConfirmChannel) :
    ConnectedAmqpConnection :=
  { connection.observe (.channelInstalled channel) with
    channel := some channel
    calls := connection.calls.map (·.react (.becameAvailable channel)) }

/-- `dispose`, up to its await. -/
def dispose (connection : ConnectedAmqpConnection) : ConnectedAmqpConnection :=
  let connection := connection.observe .disposeCalled
  if connection.isDisposed then
    connection
  else
    let connection := { connection with isDisposed := true }.cancelAll
    { connection.observe (.connectionDisposed connection.amqplibConnection) with
      channel := none
      registered :=
        removals.foldl
          (fun registered entry =>
            EventEmitter.removeListener registered entry.1 entry.2)
          connection.registered }

section Listeners

variable (commandTimeoutMs : JsNumber)

def listenerCalled (connection : ConnectedAmqpConnection) :
    ListenerCall → ConnectedAmqpConnection
  | .dispose => connection.dispose
  | .execute retryOnError => connection.execute commandTimeoutMs retryOnError

/-- The connection emits an event, and its listeners run before it goes on. -/
def emit
    (listeners : ListenerCalls) (connection : ConnectedAmqpConnection)
    (emission : ConnectionEmission) : ConnectedAmqpConnection :=
  (listeners emission).foldl (listenerCalled commandTimeoutMs)
    (connection.observe (.emitted emission))

/-- `recreateChannel`, up to its await. -/
def recreateChannel (connection : ConnectedAmqpConnection) :
    ConnectedAmqpConnection :=
  if connection.isRecreatingChannel then
    connection
  else
    let oldChannel := connection.channel
    let connection :=
      { connection with
        isRecreatingChannel := true
        channel := none }
    let connection :=
      match oldChannel with
      | some channel => connection.observe (.channelDisposed channel)
      | none => connection
    -- There is a channel provider since `connect`.
    { connection with recreations := connection.recreations ++ [.creating] }

/-- `handleConnectionClose` and `handleConnectionClosing` are the same. -/
def handleLoss
    (listeners : ListenerCalls) (connection : ConnectedAmqpConnection) :
    ConnectedAmqpConnection :=
  (connection.emit commandTimeoutMs listeners .closed).dispose

def handle
    (listeners : ListenerCalls) (connection : ConnectedAmqpConnection) :
    ConnectionHandler → ConnectedAmqpConnection
  | .handleConnectionClose => connection.handleLoss commandTimeoutMs listeners
  | .handleConnectionClosing => connection.handleLoss commandTimeoutMs listeners
  | .handleChannelClose => connection.recreateChannel
  | .handleChannelBecameUnavailable => connection.recreateChannel
  | .handleError => connection.emit commandTimeoutMs listeners .error
  | .handleReturn => connection.emit commandTimeoutMs listeners .returned

/-- An event that `connect` listens to is emitted. -/
def notify
    (listeners : ListenerCalls) (connection : ConnectedAmqpConnection)
    (event : HandledEvent) : ConnectedAmqpConnection :=
  (EventEmitter.listeners connection.registered event).foldl
    (handle commandTimeoutMs listeners) connection

/-- The `finally` clause of `recreateChannel`. -/
def endRecreation (index : ℕ) (connection : ConnectedAmqpConnection) :
    ConnectedAmqpConnection :=
  { connection with
    isRecreatingChannel := false
    recreations := connection.recreations.set index .ended }

/-- `recreateChannel` after the channel has been created. -/
def channelRecreated
    (listeners : ListenerCalls) (connection : ConnectedAmqpConnection) :
    ConnectedAmqpConnection :=
  let channel : ConfirmChannel :=
    ⟨connection.amqplibConnection, connection.created⟩
  let connection := { connection with created := connection.created + 1 }
  if connection.isDisposed then
    connection.observe (.channelDisposed channel)
  else
    (connection.setChannel channel).resumeAll.emit commandTimeoutMs listeners
      .channelRecreated

/-- `recreateChannel` after the creation has failed, up to its await. -/
def creationFailed
    (listeners : ListenerCalls) (connection : ConnectedAmqpConnection) :
    ConnectedAmqpConnection :=
  ((connection.emit commandTimeoutMs listeners .error).emit commandTimeoutMs
    listeners .closed).dispose

def creationSettled
    (connection : ConnectedAmqpConnection) (index : ℕ)
    (settlement : Settlement) (listeners : ListenerCalls) :
    Option ConnectedAmqpConnection :=
  match connection.recreations[index]?, settlement with
  | some .creating, .fulfilled =>
      some
        ((connection.channelRecreated commandTimeoutMs listeners).endRecreation
          index)
  | some .creating, .rejected =>
      let connection := connection.observe .lost
      if connection.isDisposed then
        some (connection.endRecreation index)
      else
        let connection := connection.creationFailed commandTimeoutMs listeners
        some
          { connection with
            recreations := connection.recreations.set index .disposing }
  | _, _ => none

/-- The listeners of the executor run when a call has emitted an event. -/
def executorEmitted
    (listeners : ListenerCalls) (connection : ConnectedAmqpConnection) :
    Option ExecutorEmission → ConnectedAmqpConnection
  | some .channelBecameUnavailable =>
      connection.notify commandTimeoutMs listeners .channelBecameUnavailable
  | some .connectionClosing =>
      connection.notify commandTimeoutMs listeners .connectionClosing
  | some .connectionBecameUnavailable => connection
  | none => connection

/-- One call of the executor goes on. -/
def stepCall
    (connection : ConnectedAmqpConnection) (index : ℕ) (event : CallEvent)
    (listeners : ListenerCalls) : Option ConnectedAmqpConnection :=
  match connection.calls[index]? with
  | none => none
  | some call =>
      match call.step (connection.view commandTimeoutMs) event with
      | none => none
      | some call' =>
          let next :=
            { connection with calls := connection.calls.set index call' }
          match event with
          | .commandSettled result =>
              if AmqpSystem.CommandResult.isOfAmqplib result then some next
              else none
          | .caught =>
              let next :=
                if call.phase = .failed .connectionClosing then
                  next.observe .lost
                else
                  next
              some
                (next.executorEmitted commandTimeoutMs listeners
                  (call.emission call'))
          | _ => some next

/-- The container passes on the events of the channel that it holds. -/
def channelEmitted
    (connection : ConnectedAmqpConnection) (channel : ConfirmChannel)
    (event : HandledEvent) (listeners : ListenerCalls) :
    ConnectedAmqpConnection :=
  if connection.channel = some channel ∧
      event ∈ [HandledEvent.channelClose, .channelError, .channelReturn] then
    connection.notify commandTimeoutMs listeners event
  else
    connection

/-- `recreateChannel` after its await of `dispose`. -/
def disposalFlushed (connection : ConnectedAmqpConnection) (index : ℕ) :
    Option ConnectedAmqpConnection :=
  match connection.recreations[index]? with
  | some .disposing => some (connection.endRecreation index)
  | _ => none

def step (connection : ConnectedAmqpConnection) :
    ConnectionEvent → Option ConnectedAmqpConnection
  | .dispose => some connection.dispose
  | .execute retryOnError =>
      some (connection.execute commandTimeoutMs retryOnError)
  | .connectionEmitted true listeners =>
      some
        ((connection.observe .lost).notify commandTimeoutMs listeners
          .connectionClose)
  | .connectionEmitted false listeners =>
      some (connection.notify commandTimeoutMs listeners .connectionError)
  | .channelEmitted channel event listeners =>
      some (connection.channelEmitted commandTimeoutMs channel event listeners)
  | .call index event listeners =>
      connection.stepCall commandTimeoutMs index event listeners
  | .creationSettled index settlement listeners =>
      connection.creationSettled commandTimeoutMs index settlement listeners
  | .disposalFlushed index => connection.disposalFlushed index

end Listeners

def machine (commandTimeoutMs : JsNumber) (amqplibConnection : ℕ) :
    Machine ConnectedAmqpConnection ConnectionEvent where
  initial := connected amqplibConnection
  step := step commandTimeoutMs

/-! ## What should hold of the loss -/

/-- A channel is installed, or the user is told of a new one. -/
def ConcernsNewChannel : ConnectionObservation → Prop
  | .channelInstalled _ => True
  | .emitted .channelRecreated => True
  | _ => False

/-- The connection has been lost or disposed of. -/
def HasEnded (connection : ConnectedAmqpConnection) : Prop :=
  .lost ∈ connection.history ∨ .disposeCalled ∈ connection.history

structure LostOnce (connection : ConnectedAmqpConnection) : Prop where
  closed : connection.history.count (.emitted .closed) ≤ 1
  disposed :
    connection.HasEnded →
      connection.history.count
          (.connectionDisposed connection.amqplibConnection) = 1
  not_disposed :
    ¬ connection.HasEnded →
      connection.history.count
          (.connectionDisposed connection.amqplibConnection) = 0
  creations : connection.recreations.count .creating ≤ 1
  after_dispose :
    connection.history.Pairwise fun later earlier =>
      earlier = .disposeCalled → ¬ ConcernsNewChannel later

/-! ## Disposal -/

section Disposal

variable (connection : ConnectedAmqpConnection)

/-- The cancellation concerns nothing but the executor. -/
theorem cancelAll_eq :
    ∃ cancellation calls,
      connection.cancelAll =
        { connection with cancellation := cancellation, calls := calls } := by
  unfold cancelAll
  cases connection.cancellation with
  | none => exact ⟨_, _, rfl⟩
  | some error => exact ⟨_, _, rfl⟩

theorem dispose_of_disposed (disposed : connection.isDisposed = true) :
    connection.dispose = connection.observe .disposeCalled := by
  unfold dispose
  exact if_pos disposed

/-- Everything that the disposal of an active connection changes. -/
theorem dispose_of_active
    (active : connection.isDisposed = false)
    (registered : connection.registered = handlers) :
    ∃ cancellation calls,
      connection.dispose =
        { connection with
          isDisposed := true
          channel := none
          registered := []
          cancellation := cancellation
          calls := calls
          history :=
            .connectionDisposed connection.amqplibConnection :: .disposeCalled ::
              connection.history } := by
  have inactive : ¬ (connection.observe .disposeCalled).isDisposed = true := by
    intro disposed
    exact Bool.false_ne_true (active.symm.trans disposed)
  obtain ⟨cancellation, calls, cancelled⟩ :=
    cancelAll_eq { connection.observe .disposeCalled with isDisposed := true }
  have removed :
      removals.foldl
          (fun registered entry =>
            EventEmitter.removeListener registered entry.1 entry.2)
          connection.registered = [] := by
    apply EventEmitter.foldl_removeListener
    rw [registered]
    decide
  refine ⟨cancellation, calls, ?_⟩
  unfold dispose
  dsimp only
  rw [if_neg inactive, cancelled]
  dsimp only [observe]
  rw [removed]

end Disposal

/-! ## Invariants -/

/-- What holds at every synchronous step. -/
structure Coherent (connection : ConnectedAmqpConnection) : Prop where
  registered :
    connection.registered = if connection.isDisposed then [] else handlers
  cancellation : connection.isDisposed = false → connection.cancellation = none
  recreations :
    connection.recreations.countP (· ≠ .ended) =
      connection.isRecreatingChannel.toNat
  disposed :
    connection.history.count
        (.connectionDisposed connection.amqplibConnection) =
      connection.isDisposed.toNat
  called : .disposeCalled ∈ connection.history ↔ connection.isDisposed = true
  after_dispose :
    connection.history.Pairwise fun later earlier =>
      earlier = .disposeCalled → ¬ ConcernsNewChannel later

/-- What holds in addition when the connection has returned to the event loop. -/
structure Declared (connection : ConnectedAmqpConnection) : Prop where
  coherent : Coherent connection
  closed :
    connection.history.count (.emitted .closed) ≤ connection.isDisposed.toNat
  lost : .lost ∈ connection.history → connection.isDisposed = true

theorem Declared.lostOnce
    {connection : ConnectedAmqpConnection} (declared : Declared connection) :
    LostOnce connection := by
  have coherent := declared.coherent
  have ended : connection.HasEnded ↔ connection.isDisposed = true := by
    constructor
    · rintro (lost | called)
      · exact declared.lost lost
      · exact coherent.called.mp called
    · intro disposed
      exact Or.inr (coherent.called.mpr disposed)
  refine ⟨?_, ?_, ?_, ?_, coherent.after_dispose⟩
  · exact Nat.le_trans declared.closed (Bool.toNat_le _)
  · intro hasEnded
    rw [coherent.disposed, ended.mp hasEnded]
    rfl
  · intro hasNotEnded
    have active := Bool.eq_false_iff.mpr fun disposed =>
      hasNotEnded (ended.mpr disposed)
    rw [coherent.disposed, active]
    rfl
  · have pending :
        connection.recreations.count .creating ≤
          connection.recreations.countP (· ≠ .ended) := by
      apply List.countP_mono_left
      intro recreation _ creating
      rw [beq_iff_eq.mp creating]
      decide
    have flag := Bool.toNat_le connection.isRecreatingChannel
    have recreations := coherent.recreations
    omega

theorem declared_connected (amqplibConnection : ℕ) :
    Declared (connected amqplibConnection) := by
  refine ⟨⟨?_, ?_, rfl, rfl, ?_, List.Pairwise.nil⟩, Nat.zero_le _, ?_⟩
  · exact EventEmitter.foldl_on [] handlers
  · exact fun _ => rfl
  · exact iff_of_false List.not_mem_nil Bool.false_ne_true
  · exact fun lost => absurd lost List.not_mem_nil

/-! ## What listeners can do -/

section Coherent

variable {connection : ConnectedAmqpConnection}

theorem Coherent.observe
    (coherent : Coherent connection) {observation : ConnectionObservation}
    (notCalled : observation ≠ .disposeCalled)
    (notDisposed :
      ∀ disposed, observation ≠ .connectionDisposed disposed)
    (allowed : ConcernsNewChannel observation → connection.isDisposed = false) :
    Coherent (connection.observe observation) := by
  refine ⟨coherent.registered, coherent.cancellation, coherent.recreations, ?_, ?_,
    ?_⟩
  · exact (List.count_cons_of_ne (notDisposed _)).trans coherent.disposed
  · have earlier : .disposeCalled ∈ observation :: connection.history ↔
        .disposeCalled ∈ connection.history := by
      rw [List.mem_cons]
      exact or_iff_right (Ne.symm notCalled)
    exact earlier.trans coherent.called
  · apply List.Pairwise.cons
    · intro earlier member isCall concerns
      subst isCall
      have disposed := coherent.called.mp member
      rw [allowed concerns] at disposed
      exact Bool.false_ne_true disposed
    · exact coherent.after_dispose

theorem Coherent.observe_lost (coherent : Coherent connection) :
    Coherent (connection.observe .lost) :=
  coherent.observe nofun nofun False.elim

theorem Coherent.dispose (coherent : Coherent connection) :
    Coherent connection.dispose := by
  have silent :
      ∀ earlier ∈ connection.history, earlier = .disposeCalled →
        ¬ ConcernsNewChannel .disposeCalled := by
    intro earlier _ _ concerns
    exact concerns
  have unlike :
      ConnectionObservation.disposeCalled ≠
        .connectionDisposed connection.amqplibConnection := nofun
  by_cases disposed : connection.isDisposed = true
  · rw [dispose_of_disposed connection disposed]
    refine ⟨coherent.registered, coherent.cancellation, coherent.recreations, ?_,
      ?_, List.Pairwise.cons silent coherent.after_dispose⟩
    · exact (List.count_cons_of_ne unlike).trans coherent.disposed
    · exact iff_of_true List.mem_cons_self disposed
  · have active := Bool.eq_false_iff.mpr disposed
    have registered := coherent.registered
    rw [active, if_neg Bool.false_ne_true] at registered
    obtain ⟨cancellation, calls, itself⟩ :=
      dispose_of_active connection active registered
    rw [itself]
    refine ⟨rfl, nofun, coherent.recreations, ?_, ?_, ?_⟩
    · have before := coherent.disposed
      rw [active] at before
      change
        (ConnectionObservation.connectionDisposed connection.amqplibConnection ::
            .disposeCalled :: connection.history).count
          (.connectionDisposed connection.amqplibConnection) = 1
      rw [List.count_cons_self, List.count_cons_of_ne unlike, before]
      rfl
    · exact iff_of_true (List.mem_cons_of_mem _ List.mem_cons_self) rfl
    · apply List.Pairwise.cons
      · intro earlier _ _ concerns
        exact concerns
      · exact List.Pairwise.cons silent coherent.after_dispose

variable (commandTimeoutMs : JsNumber)

theorem Coherent.listenerCalled
    (coherent : Coherent connection) (call : ListenerCall) :
    Coherent (connection.listenerCalled commandTimeoutMs call) := by
  cases call with
  | dispose => exact coherent.dispose
  | execute retryOnError =>
      exact ⟨coherent.registered, coherent.cancellation, coherent.recreations,
        coherent.disposed, coherent.called, coherent.after_dispose⟩

theorem Coherent.listenersCalled
    (coherent : Coherent connection) (calls : List ListenerCall) :
    Coherent
      (calls.foldl (ConnectedAmqpConnection.listenerCalled commandTimeoutMs)
        connection) := by
  induction calls generalizing connection with
  | nil => exact coherent
  | cons call rest inductionHypothesis =>
      rw [List.foldl_cons]
      exact inductionHypothesis (coherent.listenerCalled commandTimeoutMs call)

theorem Coherent.observe_emitted
    (coherent : Coherent connection) {emission : ConnectionEmission}
    (allowed :
      emission = .channelRecreated → connection.isDisposed = false) :
    Coherent (connection.observe (.emitted emission)) := by
  apply coherent.observe
  · nofun
  · nofun
  · intro concerns
    apply allowed
    cases emission with
    | channelRecreated => rfl
    | error => exact False.elim concerns
    | returned => exact False.elim concerns
    | closed => exact False.elim concerns

theorem Coherent.emit
    (coherent : Coherent connection) (listeners : ListenerCalls)
    {emission : ConnectionEmission}
    (allowed :
      emission = .channelRecreated → connection.isDisposed = false) :
    Coherent (connection.emit commandTimeoutMs listeners emission) :=
  (coherent.observe_emitted allowed).listenersCalled commandTimeoutMs _

end Coherent

/-- What a piece of synchronous code leaves alone. -/
structure Keeps (before after : ConnectedAmqpConnection) : Prop where
  recreations : after.recreations = before.recreations
  isRecreatingChannel : after.isRecreatingChannel = before.isRecreatingChannel
  disposed : before.isDisposed = true → after.isDisposed = true
  closed :
    after.history.count (.emitted .closed) =
      before.history.count (.emitted .closed)
  lost : .lost ∈ after.history ↔ .lost ∈ before.history

theorem Keeps.refl (connection : ConnectedAmqpConnection) :
    Keeps connection connection :=
  ⟨rfl, rfl, id, rfl, Iff.rfl⟩

theorem Keeps.trans
    {first second third : ConnectedAmqpConnection}
    (earlier : Keeps first second) (later : Keeps second third) :
    Keeps first third where
  recreations := later.recreations.trans earlier.recreations
  isRecreatingChannel :=
    later.isRecreatingChannel.trans earlier.isRecreatingChannel
  disposed := fun disposed => later.disposed (earlier.disposed disposed)
  closed := later.closed.trans earlier.closed
  lost := later.lost.trans earlier.lost

theorem keeps_observe
    (connection : ConnectedAmqpConnection) {observation : ConnectionObservation}
    (notClosed : observation ≠ .emitted .closed) (notLost : observation ≠ .lost) :
    Keeps connection (connection.observe observation) := by
  refine ⟨rfl, rfl, id, List.count_cons_of_ne notClosed, ?_⟩
  change _ ∈ observation :: connection.history ↔ _
  rw [List.mem_cons]
  exact or_iff_right (Ne.symm notLost)

theorem Coherent.keeps_dispose
    {connection : ConnectedAmqpConnection} (coherent : Coherent connection) :
    Keeps connection connection.dispose := by
  have called : Keeps connection (connection.observe .disposeCalled) :=
    keeps_observe connection (by decide) (by decide)
  by_cases disposed : connection.isDisposed = true
  · rw [dispose_of_disposed connection disposed]
    exact called
  · have active := Bool.eq_false_iff.mpr disposed
    have registered := coherent.registered
    rw [active, if_neg Bool.false_ne_true] at registered
    obtain ⟨cancellation, calls, itself⟩ :=
      dispose_of_active connection active registered
    have disposal :
        Keeps (connection.observe .disposeCalled)
          ((connection.observe .disposeCalled).observe
            (.connectionDisposed connection.amqplibConnection)) :=
      keeps_observe _ nofun nofun
    have observed := called.trans disposal
    rw [itself]
    exact ⟨rfl, rfl, fun _ => rfl, observed.closed, observed.lost⟩

theorem Coherent.dispose_isDisposed
    {connection : ConnectedAmqpConnection} (coherent : Coherent connection) :
    connection.dispose.isDisposed = true := by
  by_cases disposed : connection.isDisposed = true
  · exact coherent.keeps_dispose.disposed disposed
  · have active := Bool.eq_false_iff.mpr disposed
    have registered := coherent.registered
    rw [active, if_neg Bool.false_ne_true] at registered
    obtain ⟨cancellation, calls, itself⟩ :=
      dispose_of_active connection active registered
    rw [itself]

section Runs

variable {connection : ConnectedAmqpConnection} (commandTimeoutMs : JsNumber)
  (listeners : ListenerCalls)

theorem Coherent.keeps_listenersCalled
    (coherent : Coherent connection) (calls : List ListenerCall) :
    Keeps connection
      (calls.foldl (ConnectedAmqpConnection.listenerCalled commandTimeoutMs)
        connection) := by
  induction calls generalizing connection with
  | nil => exact Keeps.refl connection
  | cons call rest inductionHypothesis =>
      rw [List.foldl_cons]
      have first :
          Keeps connection (connection.listenerCalled commandTimeoutMs call) := by
        cases call with
        | dispose => exact coherent.keeps_dispose
        | execute retryOnError => exact ⟨rfl, rfl, id, rfl, Iff.rfl⟩
      exact first.trans
        (inductionHypothesis (coherent.listenerCalled commandTimeoutMs call))

theorem Coherent.keeps_emit
    (coherent : Coherent connection) {emission : ConnectionEmission}
    (allowed :
      emission = .channelRecreated → connection.isDisposed = false) :
    Keeps (connection.observe (.emitted emission))
      (connection.emit commandTimeoutMs listeners emission) :=
  (coherent.observe_emitted allowed).keeps_listenersCalled commandTimeoutMs _

/-! ## Steps -/

theorem Coherent.declared_of_disposed
    (coherent : Coherent connection) (disposed : connection.isDisposed = true)
    (closed : connection.history.count (.emitted .closed) ≤ 1) :
    Declared connection := by
  refine ⟨coherent, ?_, fun _ => disposed⟩
  rw [disposed]
  exact closed

theorem Declared.of_keeps
    {next : ConnectedAmqpConnection} (declared : Declared connection)
    (coherent : Coherent next) (keeps : Keeps connection next) :
    Declared next := by
  refine ⟨coherent, ?_, ?_⟩
  · rw [keeps.closed]
    by_cases disposed : next.isDisposed = true
    · rw [disposed]
      exact Nat.le_trans declared.closed (Bool.toNat_le _)
    · have active : connection.isDisposed ≠ true :=
        fun earlier => disposed (keeps.disposed earlier)
      have none := declared.closed
      rw [Bool.eq_false_iff.mpr active] at none
      exact Nat.le_trans none (Nat.zero_le _)
  · intro lost
    exact keeps.disposed (declared.lost (keeps.lost.mp lost))

theorem Declared.dispose (declared : Declared connection) :
    Declared connection.dispose :=
  declared.of_keeps declared.coherent.dispose declared.coherent.keeps_dispose

/-- The emission of an event that neither declares the loss nor a new channel. -/
theorem Declared.emit
    (declared : Declared connection) {emission : ConnectionEmission}
    (notClosed : emission ≠ .closed)
    (allowed :
      emission = .channelRecreated → connection.isDisposed = false) :
    Declared (connection.emit commandTimeoutMs listeners emission) := by
  have coherent := declared.coherent
  have observed :
      Keeps connection (connection.observe (.emitted emission)) := by
    apply keeps_observe
    · intro same
      exact notClosed (ConnectionObservation.emitted.inj same)
    · nofun
  exact declared.of_keeps (coherent.emit commandTimeoutMs listeners allowed)
    (observed.trans (coherent.keeps_emit commandTimeoutMs listeners allowed))

/-- The first emission of "closed" comes with the disposal. -/
theorem Coherent.declared_handleLoss
    (coherent : Coherent connection)
    (silent : connection.history.count (.emitted .closed) = 0) :
    Declared (connection.handleLoss commandTimeoutMs listeners) := by
  have allowed :
      ConnectionEmission.closed = .channelRecreated →
        connection.isDisposed = false := nofun
  have emitted := coherent.emit commandTimeoutMs listeners allowed
  have kept := coherent.keeps_emit commandTimeoutMs listeners allowed
  apply emitted.dispose.declared_of_disposed emitted.dispose_isDisposed
  calc
    (connection.emit commandTimeoutMs listeners
          .closed).dispose.history.count (.emitted .closed)
        = (connection.emit commandTimeoutMs listeners .closed).history.count
            (.emitted .closed) := emitted.keeps_dispose.closed
    _ = (connection.observe (.emitted .closed)).history.count
            (.emitted .closed) := kept.closed
    _ = connection.history.count (.emitted .closed) + 1 := List.count_cons_self
    _ ≤ 1 := by omega

theorem Coherent.handleLoss_recreations (coherent : Coherent connection) :
    (connection.handleLoss commandTimeoutMs listeners).recreations =
      connection.recreations := by
  have allowed :
      ConnectionEmission.closed = .channelRecreated →
        connection.isDisposed = false := nofun
  have emitted := coherent.emit commandTimeoutMs listeners allowed
  have kept := coherent.keeps_emit commandTimeoutMs listeners allowed
  exact emitted.keeps_dispose.recreations.trans kept.recreations

theorem Declared.silent
    (declared : Declared connection) (active : connection.isDisposed = false) :
    connection.history.count (.emitted .closed) = 0 := by
  have closed := declared.closed
  rw [active] at closed
  exact Nat.le_zero.mp closed

theorem Declared.recreateChannel (declared : Declared connection) :
    Declared connection.recreateChannel := by
  unfold ConnectedAmqpConnection.recreateChannel
  by_cases recreating : connection.isRecreatingChannel = true
  · rw [if_pos recreating]
    exact declared
  · rw [if_neg recreating]
    have coherent := declared.coherent
    have idle := Bool.eq_false_iff.mpr recreating
    have counted := coherent.recreations
    rw [idle] at counted
    have begun :
        (connection.recreations ++ [ChannelRecreation.creating]).countP
          (· ≠ .ended) = 1 := by
      rw [List.countP_append, counted]
      rfl
    cases connection.channel with
    | none =>
        exact ⟨⟨coherent.registered, coherent.cancellation, begun,
          coherent.disposed, coherent.called, coherent.after_dispose⟩,
          declared.closed, declared.lost⟩
    | some channel =>
        have observed :
            Coherent (connection.observe (.channelDisposed channel)) :=
          coherent.observe nofun nofun False.elim
        have kept :
            Keeps connection (connection.observe (.channelDisposed channel)) :=
          keeps_observe connection nofun nofun
        have further := declared.of_keeps observed kept
        exact ⟨⟨coherent.registered, coherent.cancellation, begun,
          observed.disposed, observed.called, observed.after_dispose⟩,
          further.closed, further.lost⟩

/-- Without its listeners a connection that is disposed of does nothing. -/
theorem Coherent.notify_of_disposed
    (coherent : Coherent connection) (disposed : connection.isDisposed = true)
    (event : HandledEvent) :
    connection.notify commandTimeoutMs listeners event = connection := by
  have registered := coherent.registered
  rw [if_pos disposed] at registered
  unfold notify
  rw [registered]
  rfl

/-- The listener that `connect` adds for an event. -/
def handlerOf : HandledEvent → ConnectionHandler
  | .connectionClose => .handleConnectionClose
  | .connectionError => .handleError
  | .channelClose => .handleChannelClose
  | .channelError => .handleError
  | .channelReturn => .handleReturn
  | .channelBecameUnavailable => .handleChannelBecameUnavailable
  | .connectionClosing => .handleConnectionClosing

theorem Coherent.notify_of_active
    (coherent : Coherent connection) (active : connection.isDisposed = false)
    (event : HandledEvent) :
    connection.notify commandTimeoutMs listeners event =
      connection.handle commandTimeoutMs listeners (handlerOf event) := by
  have registered := coherent.registered
  rw [active, if_neg Bool.false_ne_true] at registered
  have alone : EventEmitter.listeners handlers event = [handlerOf event] := by
    cases event <;> rfl
  unfold notify
  rw [registered, alone]
  rfl

/-- Every handler keeps the invariants while the connection is in use. -/
theorem Declared.handle
    (declared : Declared connection) (active : connection.isDisposed = false)
    (handler : ConnectionHandler) :
    Declared (connection.handle commandTimeoutMs listeners handler) := by
  have loss : Declared (connection.handleLoss commandTimeoutMs listeners) :=
    declared.coherent.declared_handleLoss commandTimeoutMs listeners
      (declared.silent active)
  cases handler with
  | handleConnectionClose => exact loss
  | handleConnectionClosing => exact loss
  | handleChannelClose => exact declared.recreateChannel
  | handleChannelBecameUnavailable => exact declared.recreateChannel
  | handleError =>
      exact declared.emit commandTimeoutMs listeners (by decide) nofun
  | handleReturn =>
      exact declared.emit commandTimeoutMs listeners (by decide) nofun

theorem Declared.notify
    (declared : Declared connection) (event : HandledEvent) :
    Declared (connection.notify commandTimeoutMs listeners event) := by
  have coherent := declared.coherent
  by_cases disposed : connection.isDisposed = true
  · rw [coherent.notify_of_disposed commandTimeoutMs listeners disposed]
    exact declared
  · have active := Bool.eq_false_iff.mpr disposed
    rw [coherent.notify_of_active commandTimeoutMs listeners active]
    exact declared.handle commandTimeoutMs listeners active (handlerOf event)

theorem Declared.executorEmitted
    (declared : Declared connection) (emission : Option ExecutorEmission) :
    Declared
      (connection.executorEmitted commandTimeoutMs listeners emission) := by
  cases emission with
  | none => exact declared
  | some emission =>
      cases emission with
      | channelBecameUnavailable =>
          exact declared.notify commandTimeoutMs listeners
            .channelBecameUnavailable
      | connectionClosing =>
          exact declared.notify commandTimeoutMs listeners .connectionClosing
      | connectionBecameUnavailable => exact declared

theorem Declared.observe_lost
    (declared : Declared connection) (disposed : connection.isDisposed = true) :
    Declared (connection.observe .lost) := by
  have observed := declared.coherent.observe_lost
  apply observed.declared_of_disposed disposed
  calc
    (connection.observe .lost).history.count (.emitted .closed)
        = connection.history.count (.emitted .closed) :=
          List.count_cons_of_ne (by decide)
    _ ≤ connection.isDisposed.toNat := declared.closed
    _ ≤ 1 := Bool.toNat_le _

/-- A loss is noticed at once: its only listener declares it. -/
theorem Declared.notify_lost
    (declared : Declared connection) {event : HandledEvent}
    (isLoss : event = .connectionClose ∨ event = .connectionClosing) :
    Declared
      ((connection.observe .lost).notify commandTimeoutMs listeners event) := by
  by_cases disposed : connection.isDisposed = true
  · exact (declared.observe_lost disposed).notify commandTimeoutMs listeners event
  · have active := Bool.eq_false_iff.mpr disposed
    have observed := declared.coherent.observe_lost
    have silent :
        (connection.observe .lost).history.count (.emitted .closed) = 0 :=
      (List.count_cons_of_ne (by decide)).trans (declared.silent active)
    have loss :=
      observed.declared_handleLoss commandTimeoutMs listeners silent
    rw [observed.notify_of_active commandTimeoutMs listeners active]
    rcases isLoss with isClose | isClosing
    · rw [isClose]
      exact loss
    · rw [isClosing]
      exact loss

theorem Coherent.isRecreating
    (coherent : Coherent connection) {index : ℕ} {recreation : ChannelRecreation}
    (present : connection.recreations[index]? = some recreation)
    (pending : recreation ≠ .ended) : connection.isRecreatingChannel = true := by
  have atLeast : 0 < connection.recreations.countP (· ≠ .ended) := by
    apply List.countP_pos_iff.mpr
    exact ⟨recreation, List.mem_of_getElem? present, decide_eq_true pending⟩
  rw [coherent.recreations] at atLeast
  by_contra idle
  rw [Bool.eq_false_iff.mpr idle] at atLeast
  exact Nat.lt_irrefl 0 atLeast

/-- The only recreation moves on. -/
theorem Declared.setRecreation
    (declared : Declared connection) {index : ℕ} {old new : ChannelRecreation}
    {flag : Bool} (present : connection.recreations[index]? = some old)
    (pending : old ≠ .ended) (flagged : flag = decide (new ≠ .ended)) :
    Declared
      { connection with
        isRecreatingChannel := flag
        recreations := connection.recreations.set index new } := by
  have coherent := declared.coherent
  obtain ⟨inside, itself⟩ := List.getElem?_eq_some_iff.mp present
  have counted :
      (connection.recreations.set index new).countP (· ≠ .ended) =
        flag.toNat := by
    have one := coherent.recreations
    rw [coherent.isRecreating present pending, Bool.toNat_true] at one
    rw [List.countP_set inside, itself, if_pos (decide_eq_true pending), one,
      flagged]
    by_cases isOver : new = .ended
    · rw [isOver]
      rfl
    · rw [decide_eq_true isOver]
      rfl
  exact ⟨⟨coherent.registered, coherent.cancellation, counted, coherent.disposed,
    coherent.called, coherent.after_dispose⟩, declared.closed, declared.lost⟩

/-- The container and the executor only move the calls. -/
theorem Declared.setChannel
    (declared : Declared connection) (active : connection.isDisposed = false) :
    Declared
      ({ connection with created := connection.created + 1 }.setChannel
        ⟨connection.amqplibConnection, connection.created⟩).resumeAll := by
  have observed :
      Coherent
        (connection.observe
          (.channelInstalled
            ⟨connection.amqplibConnection, connection.created⟩)) :=
    declared.coherent.observe nofun nofun fun _ => active
  have further :=
    declared.of_keeps observed (keeps_observe connection nofun nofun)
  have itself := further.coherent
  exact ⟨⟨itself.registered, itself.cancellation, itself.recreations,
    itself.disposed, itself.called, itself.after_dispose⟩, further.closed,
    further.lost⟩

theorem Declared.channelRecreated (declared : Declared connection) :
    Declared (connection.channelRecreated commandTimeoutMs listeners) ∧
      (connection.channelRecreated commandTimeoutMs listeners).recreations =
        connection.recreations := by
  have coherent := declared.coherent
  unfold ConnectedAmqpConnection.channelRecreated
  dsimp only
  by_cases disposed : connection.isDisposed = true
  · rw [if_pos disposed]
    have observed :
        Coherent
          (connection.observe
            (.channelDisposed
              ⟨connection.amqplibConnection, connection.created⟩)) :=
      coherent.observe nofun nofun False.elim
    have further :=
      declared.of_keeps observed (keeps_observe connection nofun nofun)
    have itself := further.coherent
    exact ⟨⟨⟨itself.registered, itself.cancellation, itself.recreations,
      itself.disposed, itself.called, itself.after_dispose⟩, further.closed,
      further.lost⟩, rfl⟩
  · rw [if_neg disposed]
    have active := Bool.eq_false_iff.mpr disposed
    have resumed := declared.setChannel active
    refine ⟨resumed.emit commandTimeoutMs listeners (by decide) fun _ => active, ?_⟩
    exact (resumed.coherent.keeps_emit commandTimeoutMs listeners
      fun _ => active).recreations

/-- A listener of "error" may dispose of the connection before "closed". -/
theorem Coherent.declared_creationFailed
    (coherent : Coherent connection)
    (silent : connection.history.count (.emitted .closed) = 0) :
    Declared (connection.creationFailed commandTimeoutMs listeners) ∧
      (connection.creationFailed commandTimeoutMs listeners).recreations =
        connection.recreations := by
  have told :
      ConnectionEmission.error = .channelRecreated →
        connection.isDisposed = false := nofun
  have reported := coherent.emit commandTimeoutMs listeners told
  have kept := coherent.keeps_emit commandTimeoutMs listeners told
  have stillSilent :
      (connection.emit commandTimeoutMs listeners .error).history.count
          (.emitted .closed) = 0 := by
    rw [kept.closed]
    exact (List.count_cons_of_ne (by decide)).trans silent
  refine ⟨reported.declared_handleLoss commandTimeoutMs listeners stillSilent, ?_⟩
  exact (reported.handleLoss_recreations commandTimeoutMs listeners).trans
    kept.recreations

theorem Declared.creationSettled
    {next : ConnectedAmqpConnection} (declared : Declared connection)
    {index : ℕ} {settlement : Settlement}
    (settled :
      connection.creationSettled commandTimeoutMs index settlement listeners =
        some next) :
    Declared next := by
  unfold ConnectedAmqpConnection.creationSettled at settled
  cases present : connection.recreations[index]? with
  | none =>
      rw [present] at settled
      cases settled
  | some recreation =>
      rw [present] at settled
      cases recreation with
      | disposing => cases settled
      | ended => cases settled
      | creating =>
          cases settlement with
          | fulfilled =>
              cases settled
              obtain ⟨recreated, same⟩ :=
                declared.channelRecreated commandTimeoutMs listeners
              rw [← same] at present
              exact recreated.setRecreation present (by decide) rfl
          | rejected =>
              dsimp only at settled
              by_cases disposed : (connection.observe .lost).isDisposed = true
              · rw [if_pos disposed] at settled
                cases settled
                exact (declared.observe_lost disposed).setRecreation present
                  (by decide) rfl
              · rw [if_neg disposed] at settled
                cases settled
                have active := Bool.eq_false_iff.mpr disposed
                have observed := declared.coherent.observe_lost
                have silent :
                    (connection.observe .lost).history.count (.emitted .closed) =
                      0 :=
                  (List.count_cons_of_ne (by decide)).trans
                    (declared.silent active)
                obtain ⟨failed, same⟩ :=
                  observed.declared_creationFailed commandTimeoutMs listeners
                    silent
                have stillPresent :
                    ((connection.observe .lost).creationFailed commandTimeoutMs
                      listeners).recreations[index]? = some .creating := by
                  rw [same]
                  exact present
                exact failed.setRecreation stillPresent (by decide)
                  (failed.coherent.isRecreating stillPresent (by decide))

/-- A command that fails with "connection closing" makes its call emit so. -/
theorem emission_of_connectionClosing
    {view : ExecutorView ConfirmChannel} {call call' : ExecuteCall ConfirmChannel}
    (kind : view.kind = .channel) (active : view.cancellation = none)
    (failed : call.phase = .failed .connectionClosing)
    (stepped : call.step view .caught = some call') :
    call.emission call' = some .connectionClosing := by
  have caught : call' = call.catchError view .connectionClosing := by
    unfold ExecuteCall.step at stepped
    rw [failed] at stepped
    exact (Option.some.inj stepped).symm
  unfold ExecuteCall.catchError at caught
  rw [active, kind] at caught
  dsimp only at caught
  have noRetry :
      ¬ (call.retryOnError = true ∧
        CommandError.connectionClosing = ExecutorKind.channel.unavailableError) :=
    fun retries => absurd retries.2 (by decide)
  rw [if_neg noRetry, if_pos ⟨rfl, rfl⟩] at caught
  subst caught
  unfold ExecuteCall.emission
  rw [if_pos (by simp)]

theorem Declared.stepCall
    {next : ConnectedAmqpConnection} (declared : Declared connection)
    {index : ℕ} {event : CallEvent}
    (stepped :
      connection.stepCall commandTimeoutMs index event listeners = some next) :
    Declared next := by
  unfold ConnectedAmqpConnection.stepCall at stepped
  cases present : connection.calls[index]? with
  | none =>
      rw [present] at stepped
      cases stepped
  | some call =>
      rw [present] at stepped
      dsimp only at stepped
      cases moved : call.step (connection.view commandTimeoutMs) event with
      | none =>
          rw [moved] at stepped
          cases stepped
      | some call' =>
          rw [moved] at stepped
          dsimp only at stepped
          have coherent := declared.coherent
          have further :
              Declared
                { connection with calls := connection.calls.set index call' } :=
            ⟨⟨coherent.registered, coherent.cancellation, coherent.recreations,
              coherent.disposed, coherent.called, coherent.after_dispose⟩,
              declared.closed, declared.lost⟩
          cases event with
          | commandSettled result =>
              dsimp only at stepped
              by_cases amqplib :
                  AmqpSystem.CommandResult.isOfAmqplib result = true
              · rw [if_pos amqplib] at stepped
                exact Option.some.inj stepped ▸ further
              · rw [if_neg amqplib] at stepped
                cases stepped
          | caught =>
              dsimp only at stepped
              by_cases closing : call.phase = .failed .connectionClosing
              · rw [if_pos closing] at stepped
                cases stepped
                by_cases disposed : connection.isDisposed = true
                · exact (further.observe_lost disposed).executorEmitted
                    commandTimeoutMs listeners _
                · have active := Bool.eq_false_iff.mpr disposed
                  have emitted :=
                    emission_of_connectionClosing rfl
                      (coherent.cancellation active) closing moved
                  rw [emitted]
                  exact further.notify_lost commandTimeoutMs listeners
                    (Or.inr rfl)
              · rw [if_neg closing] at stepped
                cases stepped
                exact further.executorEmitted commandTimeoutMs listeners _
          | continued => exact Option.some.inj stepped ▸ further
          | thrown => exact Option.some.inj stepped ▸ further
          | intervalStarted => exact Option.some.inj stepped ▸ further
          | slept => exact Option.some.inj stepped ▸ further
          | timerFired => exact Option.some.inj stepped ▸ further
          | finalized => exact Option.some.inj stepped ▸ further

theorem Declared.channelEmitted
    (declared : Declared connection) {channel : ConfirmChannel}
    {event : HandledEvent} :
    Declared
      (connection.channelEmitted commandTimeoutMs channel event listeners) := by
  unfold ConnectedAmqpConnection.channelEmitted
  split
  · exact declared.notify commandTimeoutMs listeners event
  · exact declared

theorem Declared.disposalFlushed
    {next : ConnectedAmqpConnection} {index : ℕ} (declared : Declared connection)
    (flushed : connection.disposalFlushed index = some next) : Declared next := by
  unfold ConnectedAmqpConnection.disposalFlushed at flushed
  cases present : connection.recreations[index]? with
  | none =>
      rw [present] at flushed
      cases flushed
  | some recreation =>
      rw [present] at flushed
      cases recreation with
      | creating => cases flushed
      | ended => cases flushed
      | disposing =>
          cases flushed
          exact declared.setRecreation present (by decide) rfl

theorem Declared.step
    {next : ConnectedAmqpConnection} {event : ConnectionEvent}
    (declared : Declared connection)
    (stepped : connection.step commandTimeoutMs event = some next) :
    Declared next := by
  have coherent := declared.coherent
  cases event with
  | dispose => exact Option.some.inj stepped ▸ declared.dispose
  | execute retryOnError =>
      cases stepped
      exact ⟨⟨coherent.registered, coherent.cancellation, coherent.recreations,
        coherent.disposed, coherent.called, coherent.after_dispose⟩,
        declared.closed, declared.lost⟩
  | connectionEmitted isClose listeners =>
      cases isClose with
      | true =>
          cases stepped
          exact declared.notify_lost commandTimeoutMs listeners (Or.inl rfl)
      | false =>
          cases stepped
          exact declared.notify commandTimeoutMs listeners .connectionError
  | channelEmitted channel event listeners =>
      cases stepped
      exact declared.channelEmitted commandTimeoutMs listeners
  | call index event listeners =>
      exact declared.stepCall commandTimeoutMs listeners stepped
  | creationSettled index settlement listeners =>
      exact declared.creationSettled commandTimeoutMs listeners stepped
  | disposalFlushed index =>
      exact declared.disposalFlushed stepped

end Runs

/-! ## The main result -/

/-- However its losses, its channels, its commands and its listeners interleave, a
connection is declared lost once and is disposed of once. -/
theorem lost_once
    (commandTimeoutMs : JsNumber) (amqplibConnection : ℕ)
    (schedule : List ConnectionEvent) (connection : ConnectedAmqpConnection)
    (execution :
      (machine commandTimeoutMs amqplibConnection).run
          (connected amqplibConnection) schedule =
        some connection) :
    LostOnce connection := by
  have preserved : (machine commandTimeoutMs amqplibConnection).Preserved Declared :=
    fun _ _ _ declared stepped => declared.step commandTimeoutMs stepped
  exact (Machine.run_invariant preserved (declared_connected amqplibConnection)
    execution).lostOnce

/-- The channel is lost, the connection too while the channel is being created
again, and a listener of "closed" disposes of the connection. -/
def lossWhileRecreating : List ConnectionEvent :=
  [.channelEmitted ⟨3, 0⟩ .channelClose fun _ => [],
    .connectionEmitted true fun _ => [.dispose],
    .creationSettled 0 .rejected fun _ => [],
    .dispose]

theorem lost_once_lossWhileRecreating :
    ∃ connection,
      (machine (.finite 5000) 3).run (connected 3) lossWhileRecreating =
          some connection ∧
        LostOnce connection :=
  ⟨_, rfl, lost_once (.finite 5000) 3 lossWhileRecreating _ rfl⟩

end ConnectedAmqpConnection

end Amq.Core
