import Mathlib.Data.List.Basic

/-!
# One AMQP connection

`connect` is cut at its awaits: the segments below are what runs after
`amqplibConnect` has settled and after the channel has been created or has
failed.  All connections of one provider share the channel container and the
disposer, so these are kept apart from the fields of a single connection.
-/

namespace Amq.Core

/-- A confirm channel, known by the amqplib connection it was created on. -/
structure ConfirmChannel where
  connection : ℕ
  number : ℕ
  deriving DecidableEq, Repr

/-- What the connections of one `AmqpConnectionProvider` share. -/
structure AmqpResources where
  /-- How many connections `amqplibConnect` has opened; they are numbered in the
  order of their opening. -/
  opened : ℕ
  /-- How many channels have been created on all of them. -/
  created : ℕ
  /-- The content of the `AmqpChannelContainer`. -/
  channel : Option ConfirmChannel
  /-- Passed to `AmqpDisposer.disposeConnection`. -/
  disposedConnections : List ℕ
  /-- Passed to `AmqpDisposer.disposeChannel`. -/
  disposedChannels : List ConfirmChannel
  deriving DecidableEq, Repr

structure AmqpConnection where
  amqplibConnection : Option ℕ
  /-- The amqplib connection on which `amqpChannelProvider` creates channels. -/
  amqpChannelProvider : Option ℕ
  isDisposed : Bool
  /-- The pending channel creation of `recreateChannel`, by its connection;
  `isRecreatingChannel` holds while there is one. -/
  recreatingChannel : Option ℕ
  /-- The amqplib connection whose "close" and "error" events are handled. -/
  handledConnection : Option ℕ
  /-- The events of the channel container and of the executor are handled. -/
  handlesChannels : Bool
  deriving DecidableEq, Repr

namespace AmqpResources

def disposeConnection (resources : AmqpResources) (connection : ℕ) :
    AmqpResources :=
  { resources with
    disposedConnections := connection :: resources.disposedConnections }

def disposeChannel (resources : AmqpResources) (channel : ConfirmChannel) :
    AmqpResources :=
  { resources with
    disposedChannels := channel :: resources.disposedChannels }

/-- `amqpChannelContainer.set(channel)`. -/
def setChannel
    (resources : AmqpResources) (channel : Option ConfirmChannel) :
    AmqpResources :=
  { resources with channel := channel }

/-- The channel that `amqpChannelProvider.create()` has resolved with. -/
def createChannel (resources : AmqpResources) (connection : ℕ) :
    AmqpResources × ConfirmChannel :=
  ({ resources with created := resources.created + 1 },
    ⟨connection, resources.created⟩)

/-- Later resources: connections stay opened and stay disposed of. -/
structure Extends (later earlier : AmqpResources) : Prop where
  opened : earlier.opened ≤ later.opened
  disposed :
    ∀ connection ∈ earlier.disposedConnections,
      connection ∈ later.disposedConnections

theorem Extends.refl (resources : AmqpResources) : resources.Extends resources :=
  ⟨Nat.le_refl _, fun _ member => member⟩

end AmqpResources

namespace AmqpConnection

/-- The constructor. -/
def create : AmqpConnection where
  amqplibConnection := none
  amqpChannelProvider := none
  isDisposed := false
  recreatingChannel := none
  handledConnection := none
  handlesChannels := false

/-- `connect` after `amqplibConnect` has resolved, up to the channel creation. -/
def connectionOpened (connection : AmqpConnection) (resources : AmqpResources) :
    AmqpConnection × AmqpResources :=
  ({ connection with
      amqplibConnection := some resources.opened
      amqpChannelProvider := some resources.opened },
    { resources with opened := resources.opened + 1 })

/-- `connect` after the channel creation has failed.  The flag of `dispose` is
set for the rollback, and nothing resets it before the next attempt. -/
def channelFailed
    (connection : AmqpConnection) (resources : AmqpResources)
    (amqplibConnection : ℕ) :
    AmqpConnection × AmqpResources :=
  ({ connection with isDisposed := true },
    resources.disposeConnection amqplibConnection)

/-- `connect` after the channel has been created. -/
def channelCreated
    (connection : AmqpConnection) (resources : AmqpResources)
    (amqplibConnection : ℕ) :
    AmqpConnection × AmqpResources :=
  let (resources, channel) := resources.createChannel amqplibConnection
  if connection.isDisposed then
    -- The rollback disposes of the channel and leaves its connection open.
    (connection, resources.disposeChannel channel)
  else
    ({ connection with
        handledConnection := some amqplibConnection
        handlesChannels := true },
      resources.setChannel (some channel))

/-- `dispose`, up to its await. -/
def dispose (connection : AmqpConnection) (resources : AmqpResources) :
    AmqpConnection × AmqpResources :=
  if connection.isDisposed then
    (connection, resources)
  else
    match connection.amqplibConnection with
    | none =>
        ({ connection with isDisposed := true, handlesChannels := false },
          resources.setChannel none)
    | some amqplibConnection =>
        ({ connection with
            isDisposed := true
            handlesChannels := false
            handledConnection :=
              if connection.handledConnection = some amqplibConnection then none
              else connection.handledConnection },
          (resources.setChannel none).disposeConnection amqplibConnection)

/-- `recreateChannel`, up to its await. -/
def recreateChannel (connection : AmqpConnection) (resources : AmqpResources) :
    AmqpConnection × AmqpResources :=
  match connection.recreatingChannel with
  | some _ => (connection, resources)
  | none =>
      let oldChannel := resources.channel
      let resources := resources.setChannel none
      let resources :=
        match oldChannel with
        | some channel => resources.disposeChannel channel
        | none => resources
      ({ connection with recreatingChannel := connection.amqpChannelProvider },
        resources)

/-- `recreateChannel` after the channel has been created. -/
def channelRecreated
    (connection : AmqpConnection) (resources : AmqpResources)
    (amqplibConnection : ℕ) :
    AmqpConnection × AmqpResources :=
  let (resources, channel) := resources.createChannel amqplibConnection
  ({ connection with recreatingChannel := none },
    if connection.isDisposed then resources.disposeChannel channel
    else resources.setChannel (some channel))

/-- A connection that can be used and whose loss is noticed. -/
structure Usable (connection : AmqpConnection) (resources : AmqpResources) :
    Prop where
  not_disposed : connection.isDisposed = false
  /-- The container holds a channel of the latest amqplib connection. -/
  has_channel :
    ∃ channel, resources.channel = some channel ∧
      connection.amqplibConnection = some channel.connection
  handles_connection :
    connection.amqplibConnection.isSome ∧
      connection.handledConnection = connection.amqplibConnection
  handles_channels : connection.handlesChannels = true

/-! ## Creation of the channel -/

/-- A connection in use takes its channel and listens to its events. -/
theorem channelCreated_of_active
    {connection : AmqpConnection} (resources : AmqpResources)
    (amqplibConnection : ℕ) (active : connection.isDisposed = false) :
    connection.channelCreated resources amqplibConnection =
      ({ connection with
          handledConnection := some amqplibConnection
          handlesChannels := true },
        { resources with
          created := resources.created + 1
          channel := some ⟨amqplibConnection, resources.created⟩ }) := by
  unfold channelCreated
  simp only [active]
  rfl

@[simp]
theorem channelCreated_isDisposed
    (connection : AmqpConnection) (resources : AmqpResources)
    (amqplibConnection : ℕ) :
    (connection.channelCreated resources amqplibConnection).1.isDisposed =
      connection.isDisposed := by
  unfold channelCreated
  by_cases disposed : connection.isDisposed = true
  · simp only [if_pos disposed]
  · simp only [if_neg disposed]

/-! ## Disposal -/

@[simp]
theorem dispose_amqplibConnection
    (connection : AmqpConnection) (resources : AmqpResources) :
    (connection.dispose resources).1.amqplibConnection =
      connection.amqplibConnection := by
  unfold dispose
  split
  · rfl
  · split <;> rfl

@[simp]
theorem dispose_isDisposed
    (connection : AmqpConnection) (resources : AmqpResources) :
    (connection.dispose resources).1.isDisposed = true := by
  unfold dispose
  by_cases disposed : connection.isDisposed = true
  · rw [if_pos disposed]
    exact disposed
  · rw [if_neg disposed]
    split <;> rfl

@[simp]
theorem dispose_opened
    (connection : AmqpConnection) (resources : AmqpResources) :
    (connection.dispose resources).2.opened = resources.opened := by
  unfold dispose
  split
  · rfl
  · split <;> rfl

theorem dispose_extends
    (connection : AmqpConnection) (resources : AmqpResources) :
    (connection.dispose resources).2.Extends resources := by
  refine ⟨Nat.le_of_eq (dispose_opened connection resources).symm, ?_⟩
  intro disposedConnection member
  unfold dispose
  split
  · exact member
  · split
    · exact member
    · exact List.mem_cons_of_mem _ member

theorem dispose_of_disposed
    {connection : AmqpConnection} (resources : AmqpResources)
    (disposed : connection.isDisposed = true) :
    connection.dispose resources = (connection, resources) := by
  unfold dispose
  rw [if_pos disposed]

/-- The disposal of an active connection stops it from listening to the shared
channel, which it takes out of its container. -/
theorem dispose_of_active
    {connection : AmqpConnection} (resources : AmqpResources)
    (active : connection.isDisposed = false) :
    (connection.dispose resources).1.handlesChannels = false ∧
      (connection.dispose resources).2.channel = none ∧
      (connection.dispose resources).1.recreatingChannel =
        connection.recreatingChannel ∧
      (connection.dispose resources).1.amqpChannelProvider =
        connection.amqpChannelProvider := by
  have inactive : ¬ connection.isDisposed = true := by
    rw [active]
    exact Bool.false_ne_true
  unfold dispose
  rw [if_neg inactive]
  cases connection.amqplibConnection with
  | none => exact ⟨rfl, rfl, rfl, rfl⟩
  | some amqplibConnection => exact ⟨rfl, rfl, rfl, rfl⟩

/-- What a connection owns is disposed of, unless it was disposed before. -/
theorem dispose_disposes
    {connection : AmqpConnection} {resources : AmqpResources}
    {amqplibConnection : ℕ}
    (active : connection.isDisposed = false)
    (owned : connection.amqplibConnection = some amqplibConnection) :
    amqplibConnection ∈
      (connection.dispose resources).2.disposedConnections := by
  have inactive : ¬ connection.isDisposed = true := by
    rw [active]
    exact Bool.false_ne_true
  unfold dispose
  rw [if_neg inactive, owned]
  exact List.mem_cons_self

/-! ## Channels

Neither the loss nor the new creation of a channel touches connections. -/

theorem recreateChannel_connection
    (connection : AmqpConnection) (resources : AmqpResources) :
    (connection.recreateChannel resources).1.amqplibConnection =
        connection.amqplibConnection ∧
      (connection.recreateChannel resources).1.isDisposed =
        connection.isDisposed := by
  unfold recreateChannel
  split
  · exact ⟨rfl, rfl⟩
  · exact ⟨rfl, rfl⟩

theorem recreateChannel_resources
    (connection : AmqpConnection) (resources : AmqpResources) :
    (connection.recreateChannel resources).2.opened = resources.opened ∧
      (connection.recreateChannel resources).2.disposedConnections =
        resources.disposedConnections := by
  unfold recreateChannel
  split
  · exact ⟨rfl, rfl⟩
  · dsimp only
    split
    · exact ⟨rfl, rfl⟩
    · exact ⟨rfl, rfl⟩

theorem recreateChannel_of_pending
    {connection : AmqpConnection} {amqplibConnection : ℕ}
    (resources : AmqpResources)
    (pending : connection.recreatingChannel = some amqplibConnection) :
    connection.recreateChannel resources = (connection, resources) := by
  unfold recreateChannel
  rw [pending]

/-- The old channel leaves the container before the new one is created. -/
theorem recreateChannel_of_idle
    {connection : AmqpConnection} (resources : AmqpResources)
    (idle : connection.recreatingChannel = none) :
    ∃ emptied : AmqpResources,
      connection.recreateChannel resources =
          ({ connection with recreatingChannel := connection.amqpChannelProvider },
            emptied) ∧
        emptied.opened = resources.opened ∧ emptied.channel = none := by
  unfold recreateChannel
  rw [idle]
  cases resources.channel with
  | none => exact ⟨_, rfl, rfl, rfl⟩
  | some channel => exact ⟨_, rfl, rfl, rfl⟩

theorem channelRecreated_resources
    (connection : AmqpConnection) (resources : AmqpResources)
    (amqplibConnection : ℕ) :
    (connection.channelRecreated resources amqplibConnection).2.opened =
        resources.opened ∧
      (connection.channelRecreated resources
          amqplibConnection).2.disposedConnections =
        resources.disposedConnections := by
  unfold channelRecreated
  by_cases disposed : connection.isDisposed = true
  · simp only [if_pos disposed]
    exact ⟨rfl, rfl⟩
  · simp only [if_neg disposed]
    exact ⟨rfl, rfl⟩

end AmqpConnection

end Amq.Core
