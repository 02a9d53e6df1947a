import Amq.Core.ConnectionLoss
import Mathlib.Logic.Relation

/-!
# The operations of a connection

A connection in use is modelled twice: with its events and listeners, and as
fields among the resources that connections share.  Whatever its events do is a
sequence of the operations on the fields: of `dispose`, of `recreateChannel`, and
of what `recreateChannel` does after its await.
-/

namespace Amq.Core

open Amq.Transition
open Relation

/-- The fields of a connection and the resources that it uses. -/
abbrev HeldResources : Type :=
  AmqpConnection × AmqpResources

/-- The operations of a connection that has been connected. -/
inductive HeldResources.Operates (held : HeldResources) : HeldResources → Prop where
  | disposed : Operates held (held.1.dispose held.2)
  | recreating : Operates held (held.1.recreateChannel held.2)
  | recreated {amqplibConnection : ℕ}
      (pending : held.1.recreatingChannel = some amqplibConnection) :
      Operates held (held.1.channelRecreated held.2 amqplibConnection)
  /-- The `finally` clause of a recreation that has failed. -/
  | recreationEnded :
      Operates held ({ held.1 with recreatingChannel := none }, held.2)

namespace ConnectedAmqpConnection

def disposedConnection : ConnectionObservation → Option ℕ
  | .connectionDisposed connection => some connection
  | _ => none

def disposedChannel : ConnectionObservation → Option ConfirmChannel
  | .channelDisposed channel => some channel
  | _ => none

def fields (connection : ConnectedAmqpConnection) : AmqpConnection where
  amqplibConnection := some connection.amqplibConnection
  amqpChannelProvider := some connection.amqplibConnection
  isDisposed := connection.isDisposed
  recreatingChannel :=
    if connection.isRecreatingChannel then some connection.amqplibConnection
    else none
  handledConnection :=
    if (.connectionClose, .handleConnectionClose) ∈ connection.registered then
      some connection.amqplibConnection
    else
      none
  handlesChannels :=
    decide ((.channelClose, .handleChannelClose) ∈ connection.registered)

def resources (connection : ConnectedAmqpConnection) : AmqpResources where
  opened := connection.amqplibConnection + 1
  created := connection.created
  channel := connection.channel
  disposedConnections := connection.history.filterMap disposedConnection
  disposedChannels := connection.history.filterMap disposedChannel

def held (connection : ConnectedAmqpConnection) : HeldResources :=
  (connection.fields, connection.resources)

/-- The connection goes from one state to another by its operations. -/
def Follows (before after : ConnectedAmqpConnection) : Prop :=
  ReflTransGen HeldResources.Operates before.held after.held

variable {connection next : ConnectedAmqpConnection}

theorem Follows.of_held_eq (same : next.held = connection.held) :
    Follows connection next := by
  unfold Follows
  rw [same]

theorem Follows.of_operates
    (operates : HeldResources.Operates connection.held next.held) :
    Follows connection next :=
  ReflTransGen.single operates

theorem Follows.trans
    {third : ConnectedAmqpConnection} (first : Follows connection next)
    (second : Follows next third) : Follows connection third :=
  ReflTransGen.trans first second

/-! ## The operations -/

theorem held_observe
    {observation : ConnectionObservation}
    (noConnection : disposedConnection observation = none)
    (noChannel : disposedChannel observation = none) :
    (connection.observe observation).held = connection.held := by
  unfold held fields resources observe
  rw [List.filterMap_cons_none noConnection, List.filterMap_cons_none noChannel]

theorem Coherent.held_dispose (coherent : Coherent connection) :
    connection.dispose.held =
      connection.fields.dispose connection.resources := by
  by_cases disposed : connection.isDisposed = true
  · rw [dispose_of_disposed connection disposed, held_observe rfl rfl]
    exact (AmqpConnection.dispose_of_disposed connection.resources disposed).symm
  · have active := Bool.eq_false_iff.mpr disposed
    have registered := coherent.registered
    rw [active, if_neg Bool.false_ne_true] at registered
    obtain ⟨cancellation, calls, itself⟩ :=
      dispose_of_active connection active registered
    have inactive : ¬ connection.fields.isDisposed = true := disposed
    have handled :
        connection.fields.handledConnection =
          some connection.amqplibConnection := by
      apply if_pos
      rw [registered]
      decide
    have owned :
        connection.fields.amqplibConnection =
          some connection.amqplibConnection := rfl
    unfold AmqpConnection.dispose
    rw [if_neg inactive, owned]
    dsimp only
    rw [handled, if_pos rfl, itself]
    rfl

theorem Coherent.follows_dispose (coherent : Coherent connection) :
    Follows connection connection.dispose := by
  apply Follows.of_operates
  rw [coherent.held_dispose]
  exact .disposed

theorem held_recreateChannel (connection : ConnectedAmqpConnection) :
    connection.recreateChannel.held =
      connection.fields.recreateChannel connection.resources := by
  by_cases recreating : connection.isRecreatingChannel = true
  · have pending :
        connection.fields.recreatingChannel =
          some connection.amqplibConnection := if_pos recreating
    rw [AmqpConnection.recreateChannel_of_pending _ pending]
    unfold ConnectedAmqpConnection.recreateChannel
    rw [if_pos recreating]
    rfl
  · have idle : connection.fields.recreatingChannel = none := if_neg recreating
    unfold AmqpConnection.recreateChannel
      ConnectedAmqpConnection.recreateChannel
    rw [if_neg recreating, idle]
    dsimp only
    unfold held resources
    dsimp only
    cases connection.channel with
    | none => rfl
    | some channel => rfl

theorem follows_recreateChannel (connection : ConnectedAmqpConnection) :
    Follows connection connection.recreateChannel := by
  apply Follows.of_operates
  rw [held_recreateChannel]
  exact .recreating

theorem follows_endRecreation (index : ℕ) (connection : ConnectedAmqpConnection) :
    Follows connection (connection.endRecreation index) :=
  Follows.of_operates .recreationEnded

theorem follows_observe_lost (connection : ConnectedAmqpConnection) :
    Follows connection (connection.observe .lost) :=
  .of_held_eq (held_observe rfl rfl)

/-! ## Listeners and handlers -/

section Runs

variable (commandTimeoutMs : JsNumber) (listeners : ListenerCalls)

theorem Coherent.follows_listenersCalled
    (coherent : Coherent connection) (calls : List ListenerCall) :
    Follows connection
      (calls.foldl (ConnectedAmqpConnection.listenerCalled commandTimeoutMs)
        connection) := by
  induction calls generalizing connection with
  | nil => exact .of_held_eq rfl
  | cons call rest inductionHypothesis =>
      have first :
          Follows connection (connection.listenerCalled commandTimeoutMs call) := by
        cases call with
        | dispose => exact coherent.follows_dispose
        | execute retryOnError => exact .of_held_eq rfl
      exact first.trans
        (inductionHypothesis (coherent.listenerCalled commandTimeoutMs call))

theorem Coherent.follows_emit
    (coherent : Coherent connection) {emission : ConnectionEmission}
    (allowed :
      emission = .channelRecreated → connection.isDisposed = false) :
    Follows connection (connection.emit commandTimeoutMs listeners emission) := by
  have observed := coherent.observe_emitted allowed
  have same :
      (connection.observe (.emitted emission)).held = connection.held :=
    held_observe rfl rfl
  exact (Follows.of_held_eq same).trans
    (observed.follows_listenersCalled commandTimeoutMs _)

theorem Coherent.follows_handleLoss (coherent : Coherent connection) :
    Follows connection (connection.handleLoss commandTimeoutMs listeners) := by
  have allowed :
      ConnectionEmission.closed = .channelRecreated →
        connection.isDisposed = false := nofun
  have emitted := coherent.emit commandTimeoutMs listeners allowed
  exact (coherent.follows_emit commandTimeoutMs listeners allowed).trans
    emitted.follows_dispose

theorem Coherent.follows_handle
    (coherent : Coherent connection) (handler : ConnectionHandler) :
    Follows connection (connection.handle commandTimeoutMs listeners handler) := by
  cases handler with
  | handleConnectionClose =>
      exact coherent.follows_handleLoss commandTimeoutMs listeners
  | handleConnectionClosing =>
      exact coherent.follows_handleLoss commandTimeoutMs listeners
  | handleChannelClose => exact follows_recreateChannel connection
  | handleChannelBecameUnavailable => exact follows_recreateChannel connection
  | handleError => exact coherent.follows_emit commandTimeoutMs listeners nofun
  | handleReturn => exact coherent.follows_emit commandTimeoutMs listeners nofun

theorem Coherent.follows_notify
    (coherent : Coherent connection) (event : HandledEvent) :
    Follows connection (connection.notify commandTimeoutMs listeners event) := by
  by_cases disposed : connection.isDisposed = true
  · rw [coherent.notify_of_disposed commandTimeoutMs listeners disposed]
    exact .of_held_eq rfl
  · have active := Bool.eq_false_iff.mpr disposed
    rw [coherent.notify_of_active commandTimeoutMs listeners active]
    exact coherent.follows_handle commandTimeoutMs listeners _

theorem Coherent.follows_executorEmitted
    (coherent : Coherent connection) (emission : Option ExecutorEmission) :
    Follows connection
      (connection.executorEmitted commandTimeoutMs listeners emission) := by
  cases emission with
  | none => exact .of_held_eq rfl
  | some emission =>
      cases emission with
      | channelBecameUnavailable =>
          exact coherent.follows_notify commandTimeoutMs listeners _
      | connectionClosing =>
          exact coherent.follows_notify commandTimeoutMs listeners _
      | connectionBecameUnavailable => exact .of_held_eq rfl

/-! ## The end of a recreation

The listeners of "channelRecreated" run before the `finally` clause, which they
cannot tell from running after it. -/

theorem endRecreation_dispose
    (index : ℕ) (connection : ConnectedAmqpConnection) :
    connection.dispose.endRecreation index =
      (connection.endRecreation index).dispose := by
  unfold dispose endRecreation cancelAll observe
  dsimp only
  by_cases disposed : connection.isDisposed = true
  · rw [if_pos disposed, if_pos disposed]
  · rw [if_neg disposed, if_neg disposed]
    cases connection.cancellation with
    | none => dsimp only
    | some error => dsimp only

theorem endRecreation_emit
    (index : ℕ) (connection : ConnectedAmqpConnection)
    (emission : ConnectionEmission) :
    (connection.emit commandTimeoutMs listeners emission).endRecreation index =
      (connection.endRecreation index).emit commandTimeoutMs listeners
        emission := by
  have called (calls : List ListenerCall) (connection : ConnectedAmqpConnection) :
      (calls.foldl (listenerCalled commandTimeoutMs) connection).endRecreation
          index =
        calls.foldl (listenerCalled commandTimeoutMs)
          (connection.endRecreation index) := by
    induction calls generalizing connection with
    | nil => rfl
    | cons call rest inductionHypothesis =>
        rw [List.foldl_cons, inductionHypothesis, List.foldl_cons]
        cases call with
        | dispose =>
            unfold listenerCalled
            rw [endRecreation_dispose]
        | execute retryOnError => rfl
  exact called _ _

theorem Declared.follows_channelRecreated
    (declared : Declared connection) {index : ℕ}
    (present : connection.recreations[index]? = some .creating) :
    Follows connection
      ((connection.channelRecreated commandTimeoutMs listeners).endRecreation
        index) := by
  have recreating := declared.coherent.isRecreating present (by decide)
  have pending :
      connection.fields.recreatingChannel = some connection.amqplibConnection :=
    if_pos recreating
  unfold ConnectedAmqpConnection.channelRecreated
  dsimp only
  by_cases disposed : connection.isDisposed = true
  · rw [if_pos disposed]
    apply Follows.of_operates
    have ended :
        ({ connection with created := connection.created + 1 }.observe
              (.channelDisposed
                ⟨connection.amqplibConnection, connection.created⟩)
            |>.endRecreation index).held =
          connection.fields.channelRecreated connection.resources
            connection.amqplibConnection := by
      unfold AmqpConnection.channelRecreated
      dsimp only [AmqpResources.createChannel]
      rw [if_pos (show connection.fields.isDisposed = true from disposed)]
      rfl
    rw [ended]
    exact .recreated pending
  · rw [if_neg disposed, endRecreation_emit]
    have active := Bool.eq_false_iff.mpr disposed
    have renewed :
        Declared
          (({ connection with created := connection.created + 1 }.setChannel
                ⟨connection.amqplibConnection, connection.created⟩).resumeAll
              |>.endRecreation index) :=
      (declared.setChannel active).setRecreation present (by decide) rfl
    have ended :
        (({ connection with created := connection.created + 1 }.setChannel
              ⟨connection.amqplibConnection, connection.created⟩).resumeAll
            |>.endRecreation index).held =
          connection.fields.channelRecreated connection.resources
            connection.amqplibConnection := by
      unfold AmqpConnection.channelRecreated
      dsimp only [AmqpResources.createChannel]
      rw [if_neg (show ¬ connection.fields.isDisposed = true from disposed)]
      rfl
    refine Follows.trans (Follows.of_operates ?_)
      (renewed.coherent.follows_emit commandTimeoutMs listeners fun _ => active)
    exact ended ▸ .recreated pending

theorem Coherent.follows_creationFailed (coherent : Coherent connection) :
    Follows connection (connection.creationFailed commandTimeoutMs listeners) := by
  have told :
      ConnectionEmission.error = .channelRecreated →
        connection.isDisposed = false := nofun
  have reported := coherent.emit commandTimeoutMs listeners told
  exact (coherent.follows_emit commandTimeoutMs listeners told).trans
    (reported.follows_handleLoss commandTimeoutMs listeners)

theorem Declared.follows_creationSettled
    (declared : Declared connection) {index : ℕ} {settlement : Settlement}
    (settled :
      connection.creationSettled commandTimeoutMs index settlement listeners =
        some next) :
    Follows connection next := by
  unfold ConnectedAmqpConnection.creationSettled at settled
  split at settled
  · rename_i present
    cases settled
    exact declared.follows_channelRecreated commandTimeoutMs listeners present
  · have observed := declared.coherent.observe_lost
    refine (follows_observe_lost connection).trans ?_
    dsimp only at settled
    split at settled
    · cases settled
      exact follows_endRecreation index _
    · cases settled
      exact observed.follows_creationFailed commandTimeoutMs listeners
  · cases settled

/-! ## Steps and runs -/

theorem Declared.follows_stepCall
    (declared : Declared connection) {index : ℕ} {event : CallEvent}
    (stepped :
      connection.stepCall commandTimeoutMs index event listeners = some next) :
    Follows connection next := by
  have coherent := declared.coherent
  unfold ConnectedAmqpConnection.stepCall at stepped
  split at stepped
  · cases stepped
  · split at stepped
    · cases stepped
    · rename_i call' _
      have further :
          Coherent { connection with calls := connection.calls.set index call' } :=
        ⟨coherent.registered, coherent.cancellation, coherent.recreations,
          coherent.disposed, coherent.called, coherent.after_dispose⟩
      dsimp only at stepped
      split at stepped
      · split at stepped
        · cases stepped
          exact .of_held_eq rfl
        · cases stepped
      · cases stepped
        split
        · exact (follows_observe_lost _).trans
            (further.observe_lost.follows_executorEmitted commandTimeoutMs
              listeners _)
        · exact further.follows_executorEmitted commandTimeoutMs listeners _
      · cases stepped
        exact .of_held_eq rfl

theorem Declared.follows_step
    {event : ConnectionEvent} (declared : Declared connection)
    (stepped : connection.step commandTimeoutMs event = some next) :
    Follows connection next := by
  have coherent := declared.coherent
  cases event with
  | dispose => exact Option.some.inj stepped ▸ coherent.follows_dispose
  | execute retryOnError =>
      cases stepped
      exact .of_held_eq rfl
  | connectionEmitted isClose listeners =>
      cases isClose with
      | true =>
          cases stepped
          exact (follows_observe_lost connection).trans
            (coherent.observe_lost.follows_notify commandTimeoutMs listeners _)
      | false =>
          cases stepped
          exact coherent.follows_notify commandTimeoutMs listeners _
  | channelEmitted channel event listeners =>
      cases stepped
      unfold ConnectedAmqpConnection.channelEmitted
      split
      · exact coherent.follows_notify commandTimeoutMs listeners event
      · exact .of_held_eq rfl
  | call index event listeners =>
      exact declared.follows_stepCall commandTimeoutMs listeners stepped
  | creationSettled index settlement listeners =>
      exact declared.follows_creationSettled commandTimeoutMs listeners stepped
  | disposalFlushed index =>
      change connection.disposalFlushed index = some next at stepped
      unfold ConnectedAmqpConnection.disposalFlushed at stepped
      split at stepped
      · cases stepped
        exact follows_endRecreation index connection
      · cases stepped

end Runs

/-- From the end of `connect` on, all that the events of a connection do to its
fields and to the resources is what the operations do. -/
theorem operates_run
    (commandTimeoutMs : JsNumber) (amqplibConnection : ℕ)
    (schedule : List ConnectionEvent) (connection : ConnectedAmqpConnection)
    (execution :
      (machine commandTimeoutMs amqplibConnection).run
          (connected amqplibConnection) schedule = some connection) :
    let opened :=
      AmqpConnection.create.connectionOpened ⟨amqplibConnection, 0, none, [], []⟩
    ReflTransGen HeldResources.Operates
      (opened.1.channelCreated opened.2 amqplibConnection) connection.held := by
  have preserved :
      (machine commandTimeoutMs amqplibConnection).Preserved
        fun current =>
          Declared current ∧ Follows (connected amqplibConnection) current := by
    rintro current event following ⟨declared, follows⟩ stepped
    exact ⟨declared.step commandTimeoutMs stepped,
      follows.trans (declared.follows_step commandTimeoutMs stepped)⟩
  exact (Machine.run_invariant preserved
    ⟨declared_connected amqplibConnection, .of_held_eq rfl⟩ execution).2

end ConnectedAmqpConnection

end Amq.Core
