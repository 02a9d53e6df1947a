import Amq.Core.CurrentChannel
import Amq.MessageRelevancyChecker

/-!
# The connection of a server

A server acknowledges through its connection wrapper with the tag that its
relevancy checker has stored.  What it hears of are new connections and new
channels, at the moment they are put into their containers; between the loss of a
channel and the next one it hears nothing.

Servers that share a wrapper each see the same changes of it.
-/


namespace Amq.Core

open Amq.Transition

structure ServerConnection where
  /-- The calls of `acknowledge`. -/
  calls : ChannelScopedCalls
  /-- `connect` has got a connection. -/
  hasConnected : Bool

inductive ServerConnectionEvent where
  | outer (call : ℕ) (event : CallEvent)
  | inner (call : ℕ) (event : CallEvent)
  | innerSettled (call : ℕ)
  /-- `connect` puts the connection into the container. -/
  | connected (connection : ℕ)
  /-- `reconnect` does, and emits `reconnected`. -/
  | reconnected (connection : ℕ)
  /-- `reconnect` or `dispose` takes the connection out. -/
  | connectionTaken
  | connectionDisposed (connection : ℕ)
  /-- `connect` of a connection that the wrapper does not have yet. -/
  | channelCreated (channel : ConfirmChannel)
  /-- `recreateChannel` has a new channel and emits `channelRecreated`. -/
  | channelRecreated (channel : ConfirmChannel)
  | channelLost
  | disposed

inductive ConnectionNotice where
  | reconnected
  | channelRecreated

namespace ServerConnectionEvent

def toCalls : ServerConnectionEvent → ChannelScopedEvent
  | .outer call event => .outer call event
  | .inner call event => .inner call event
  | .innerSettled call => .innerSettled call
  | .connected connection => .scope (.connectionSet (some connection))
  | .reconnected connection => .scope (.connectionSet (some connection))
  | .connectionTaken => .scope (.connectionSet none)
  | .connectionDisposed connection => .scope (.connectionDisposed connection)
  | .channelCreated channel => .scope (.channelCreated channel)
  | .channelRecreated channel => .scope (.channelCreated channel)
  | .channelLost => .scope .channelLost
  | .disposed => .scope .disposed

def isConnect : ServerConnectionEvent → Bool
  | .connected _ => true
  | _ => false

/-- What the listeners of the wrapper are told. -/
def notice : ServerConnectionEvent → Option ConnectionNotice
  | .reconnected _ => some .reconnected
  | .channelRecreated _ => some .channelRecreated
  | _ => none

end ServerConnectionEvent

namespace ChannelScopedCall

/-- What a call is made with. -/
def SameCall (before after : ChannelScopedCall) : Prop :=
  after.command = before.command ∧ after.currentChannel = before.currentChannel

variable {scope : ChannelScope} {call call' : ChannelScopedCall}

theorem sameCall_outerStep
    {event : CallEvent} (stepped : call.outerStep scope event = some call') :
    SameCall call call' := by
  unfold outerStep at stepped
  split at stepped
  · cases stepped
  · obtain ⟨outer, _, rfl⟩ := Option.map_eq_some_iff.mp stepped
    split
    · exact ⟨rfl, rfl⟩
    · exact ⟨rfl, rfl⟩
  · obtain ⟨outer, _, rfl⟩ := Option.map_eq_some_iff.mp stepped
    exact ⟨rfl, rfl⟩

theorem sameCall_innerStep
    {event : CallEvent} (stepped : call.innerStep scope event = some call') :
    SameCall call call' := by
  unfold innerStep at stepped
  split at stepped
  · cases stepped
  · split at stepped
    · obtain ⟨inner, _, rfl⟩ := Option.map_eq_some_iff.mp stepped
      exact ⟨rfl, rfl⟩
    · split at stepped
      · cases stepped
      · obtain ⟨inner, _, rfl⟩ := Option.map_eq_some_iff.mp stepped
        exact ⟨rfl, rfl⟩
    · obtain ⟨inner, _, rfl⟩ := Option.map_eq_some_iff.mp stepped
      exact ⟨rfl, rfl⟩

theorem sameCall_innerSettled
    (stepped : call.innerSettled scope = some call') : SameCall call call' := by
  unfold innerSettled at stepped
  split at stepped
  · cases stepped
  · obtain ⟨result, _, taken⟩ := Option.bind_eq_some_iff.mp stepped
    obtain ⟨outer, _, rfl⟩ := Option.map_eq_some_iff.mp taken
    exact ⟨rfl, rfl⟩

theorem sameCall_after (call : ChannelScopedCall) (event : ScopeEvent) :
    SameCall call (call.after event) := by
  cases event with
  | connectionSet connection => cases connection <;> exact ⟨rfl, rfl⟩
  | _ => exact ⟨rfl, rfl⟩

end ChannelScopedCall

namespace ChannelScope

theorem currentChannel_of_unconnected
    {scope : ChannelScope} (unconnected : scope.connection = none) :
    scope.currentChannel = none := by
  unfold currentChannel
  rw [unconnected]

theorem currentChannel_dropChannel (scope : ChannelScope) :
    scope.dropChannel.currentChannel = none := by
  unfold dropChannel
  split
  · rename_i absent
    unfold currentChannel
    rw [absent]
    split <;> rfl
  · unfold currentChannel
    split <;> rfl

theorem connection_dropChannel (scope : ChannelScope) :
    scope.dropChannel.connection = scope.connection := by
  unfold dropChannel
  split <;> rfl

theorem connection_connectionDisposed (scope : ChannelScope) (disposed : ℕ) :
    (scope.after (.connectionDisposed disposed)).connection =
      scope.connection := by
  unfold after
  dsimp only
  split
  · rfl
  · exact scope.connection_dropChannel

theorem currentChannel_connectionDisposed (scope : ChannelScope) (disposed : ℕ) :
    (scope.after (.connectionDisposed disposed)).currentChannel =
        scope.currentChannel ∨
      (scope.after (.connectionDisposed disposed)).currentChannel = none := by
  unfold after
  dsimp only
  split
  · exact Or.inl rfl
  · exact Or.inr scope.currentChannel_dropChannel

end ChannelScope

namespace ChannelScopedCalls

variable {state next : ChannelScopedCalls}

theorem scope_updateCall
    {index : ℕ} {operation : ChannelScopedCall → Option ChannelScopedCall}
    (stepped : state.updateCall index operation = some next) :
    next.scope = state.scope := by
  unfold updateCall at stepped
  split at stepped
  · cases stepped
  · obtain ⟨moved, _, rfl⟩ := Option.map_eq_some_iff.mp stepped
    rfl

theorem sameCall_updateCall
    {index : ℕ} {operation : ChannelScopedCall → Option ChannelScopedCall}
    (stepped : state.updateCall index operation = some next)
    (keeps :
      ∀ call call', operation call = some call' →
        ChannelScopedCall.SameCall call call') :
    ∀ call' ∈ next.calls,
      ∃ call ∈ state.calls, ChannelScopedCall.SameCall call call' := by
  unfold updateCall at stepped
  split at stepped
  · cases stepped
  · rename_i call found
    obtain ⟨moved, taken, rfl⟩ := Option.map_eq_some_iff.mp stepped
    intro call' member
    rcases List.mem_or_eq_of_mem_set member with earlier | same
    · exact ⟨call', earlier, rfl, rfl⟩
    · rw [same]
      exact ⟨call, List.mem_of_getElem? found, keeps call moved taken⟩

/-- No event but a call makes a call. -/
theorem sameCall_step
    {event : ChannelScopedEvent}
    (uncalled : ∀ command, event ≠ .called command)
    (stepped : state.step event = some next) :
    ∀ call' ∈ next.calls,
      ∃ call ∈ state.calls, ChannelScopedCall.SameCall call call' := by
  cases event with
  | called command => exact absurd rfl (uncalled command)
  | outer index event =>
      exact sameCall_updateCall stepped fun _ _ =>
        ChannelScopedCall.sameCall_outerStep
  | inner index event =>
      exact sameCall_updateCall stepped fun _ _ =>
        ChannelScopedCall.sameCall_innerStep
  | innerSettled index =>
      exact sameCall_updateCall stepped fun _ _ =>
        ChannelScopedCall.sameCall_innerSettled
  | scope event =>
      cases stepped
      intro call' member
      obtain ⟨call, earlier, rfl⟩ := List.mem_map.mp member
      exact ⟨call, earlier, call.sameCall_after event⟩

end ChannelScopedCalls

namespace ServerConnection

def create (commandTimeoutMs : JsNumber) : ServerConnection where
  calls := .create commandTimeoutMs
  hasConnected := false

/-- `connect` goes through once, and only a channel of the wrapper's connection is
recreated for the wrapper. -/
def isPossible (connection : ServerConnection) : ServerConnectionEvent → Bool
  | .connected _ => !connection.hasConnected
  | .reconnected _ => connection.hasConnected
  | .channelCreated _ => connection.calls.scope.connection.isNone
  | .channelRecreated _ => connection.calls.scope.connection.isSome
  | _ => true

def step
    (connection : ServerConnection) (event : ServerConnectionEvent) :
    Option ServerConnection :=
  if connection.isPossible event then
    (connection.calls.step event.toCalls).map fun calls =>
      { calls := calls
        hasConnected := connection.hasConnected || event.isConnect }
  else
    none

/-- The server calls `acknowledge` for each of the tags. -/
def acknowledge
    (connection : ServerConnection) (tags : List DeliveryTag) :
    ServerConnection :=
  { connection with
    calls :=
      { connection.calls with
        calls :=
          connection.calls.calls ++
            tags.map fun tag =>
              .start connection.calls.scope (.acknowledge tag.deliveryTag) } }

/-- The current channel has this number. -/
def isOn
    (place : ConfirmChannel → ℕ) (connection : ServerConnection) (number : ℕ) :
    Bool :=
  connection.calls.scope.currentChannel.any fun channel => place channel = number

/-- A channel with this number has carried out an acknowledgement with the bare
tag. -/
def hasIssued
    (place : ConfirmChannel → ℕ) (connection : ServerConnection)
    (arrived : DeliveryTag) : Bool :=
  connection.calls.calls.any fun call =>
    decide (call.command = .acknowledge arrived.deliveryTag) &&
      call.issued.any fun operation =>
        decide (place operation.channel = arrived.channel)

/-- The tag belongs to the current channel, if there is one. -/
def IsCurrent
    (place : ConfirmChannel → ℕ) (connection : ServerConnection)
    (tag : DeliveryTag) : Prop :=
  ∀ channel, connection.calls.scope.currentChannel = some channel →
    place channel = tag.channel

/-- The calls acknowledge tags of the channels they were made on, and keep to
these channels. -/
structure Owns
    (place : ConfirmChannel → ℕ) (acknowledged : List DeliveryTag)
    (connection : ServerConnection) : Prop where
  steadfast : connection.calls.AllSteadfast
  calls :
    ∀ call ∈ connection.calls.calls,
      ∃ tag ∈ acknowledged, call.command = .acknowledge tag.deliveryTag ∧
        ∀ channel, call.currentChannel = some channel →
          place channel = tag.channel

variable {place : ConfirmChannel → ℕ} {acknowledged : List DeliveryTag}
variable {connection next : ServerConnection}

theorem owns_create (place : ConfirmChannel → ℕ) (commandTimeoutMs : JsNumber) :
    Owns place [] (create commandTimeoutMs) := by
  constructor
  · intro call member
    cases member
  · intro call member
    cases member

theorem Owns.acknowledge
    (owns : connection.Owns place acknowledged) {tags : List DeliveryTag}
    (current : ∀ tag ∈ tags, connection.IsCurrent place tag) :
    (connection.acknowledge tags).Owns place (tags ++ acknowledged) := by
  constructor
  · intro call member
    rcases List.mem_append.mp member with old | new
    · exact owns.steadfast call old
    · obtain ⟨tag, _, rfl⟩ := List.mem_map.mp new
      exact ChannelScopedCall.steadfast_start _ _
  · intro call member
    rcases List.mem_append.mp member with old | new
    · obtain ⟨tag, known, itself⟩ := owns.calls call old
      exact ⟨tag, List.mem_append_right _ known, itself⟩
    · obtain ⟨tag, itsTag, rfl⟩ := List.mem_map.mp new
      exact ⟨tag, List.mem_append_left _ itsTag, rfl, current tag itsTag⟩

theorem step_cases
    {event : ServerConnectionEvent} (stepped : connection.step event = some next) :
    connection.isPossible event = true ∧
      connection.calls.step event.toCalls = some next.calls ∧
      next.hasConnected = (connection.hasConnected || event.isConnect) := by
  unfold step at stepped
  split at stepped
  · rename_i possible
    obtain ⟨calls, taken, rfl⟩ := Option.map_eq_some_iff.mp stepped
    exact ⟨possible, taken, rfl⟩
  · cases stepped

theorem toCalls_ne_called
    (event : ServerConnectionEvent) (command : ChannelScopedCommand) :
    event.toCalls ≠ .called command := by
  cases event <;> exact nofun

/-- No waiting call is given another connection or channel. -/
theorem Owns.step
    {event : ServerConnectionEvent} (owns : connection.Owns place acknowledged)
    (keeps : connection.calls.KeepsChannel event.toCalls)
    (stepped : connection.step event = some next) :
    next.Owns place acknowledged := by
  obtain ⟨_, taken, _⟩ := step_cases stepped
  constructor
  · exact ChannelScopedCalls.allSteadfast_preserved
      connection.calls.scope.commandTimeoutMs _ _ _ owns.steadfast keeps taken
  · intro call' member
    obtain ⟨call, earlier, sameCommand, sameChannel⟩ :=
      ChannelScopedCalls.sameCall_step (toCalls_ne_called event) taken call' member
    rw [sameCommand, sameChannel]
    exact owns.calls call earlier

/-- Only what is heard, or the first connection, brings a channel. -/
theorem isCurrent_step
    {event : ServerConnectionEvent} {tag : DeliveryTag}
    (current : connection.IsCurrent place tag)
    (unheard : event.notice = none) (notConnect : event.isConnect = false)
    (stepped : connection.step event = some next) :
    next.IsCurrent place tag := by
  obtain ⟨possible, taken, _⟩ := step_cases stepped
  have scopes :
      next.calls.scope.currentChannel = connection.calls.scope.currentChannel ∨
        next.calls.scope.currentChannel = none := by
    cases event with
    | outer index event =>
        left
        rw [ChannelScopedCalls.scope_updateCall taken]
    | inner index event =>
        left
        rw [ChannelScopedCalls.scope_updateCall taken]
    | innerSettled index =>
        left
        rw [ChannelScopedCalls.scope_updateCall taken]
    | connected number => cases notConnect
    | reconnected number => cases unheard
    | channelRecreated created => cases unheard
    | connectionTaken =>
        rw [← Option.some.inj taken]
        exact Or.inr rfl
    | connectionDisposed number =>
        rw [← Option.some.inj taken]
        exact ChannelScope.currentChannel_connectionDisposed _ number
    | channelCreated created =>
        rw [← Option.some.inj taken]
        right
        apply ChannelScope.currentChannel_of_unconnected
        exact Option.isNone_iff_eq_none.mp possible
    | channelLost =>
        rw [← Option.some.inj taken]
        exact Or.inr (ChannelScope.currentChannel_dropChannel _)
    | disposed =>
        rw [← Option.some.inj taken]
        exact Or.inl rfl
  intro channel isNow
  rcases scopes with same | gone
  · rw [same] at isNow
    exact current channel isNow
  · rw [gone] at isNow
    cases isNow

/-- Without a connection there is none until `connect` has got one. -/
theorem unconnected_step
    {event : ServerConnectionEvent}
    (unconnected :
      connection.hasConnected = false → connection.calls.scope.connection = none)
    (stepped : connection.step event = some next)
    (still : next.hasConnected = false) :
    connection.hasConnected = false ∧ event.notice = none ∧
      event.isConnect = false ∧ next.calls.scope.connection = none := by
  obtain ⟨possible, taken, grown⟩ := step_cases stepped
  rw [grown] at still
  obtain ⟨never, notConnect⟩ := Bool.or_eq_false_iff.mp still
  have absent := unconnected never
  cases event with
  | outer index event =>
      refine ⟨never, rfl, rfl, ?_⟩
      rw [ChannelScopedCalls.scope_updateCall taken]
      exact absent
  | inner index event =>
      refine ⟨never, rfl, rfl, ?_⟩
      rw [ChannelScopedCalls.scope_updateCall taken]
      exact absent
  | innerSettled index =>
      refine ⟨never, rfl, rfl, ?_⟩
      rw [ChannelScopedCalls.scope_updateCall taken]
      exact absent
  | connected number => cases notConnect
  | reconnected number =>
      rw [isPossible, never] at possible
      cases possible
  | channelRecreated created =>
      rw [isPossible, absent] at possible
      cases possible
  | connectionTaken =>
      refine ⟨never, rfl, rfl, ?_⟩
      rw [← Option.some.inj taken]
      rfl
  | connectionDisposed number =>
      refine ⟨never, rfl, rfl, ?_⟩
      rw [← Option.some.inj taken]
      exact (ChannelScope.connection_connectionDisposed _ number).trans absent
  | channelCreated created =>
      refine ⟨never, rfl, rfl, ?_⟩
      rw [← Option.some.inj taken]
      exact absent
  | channelLost =>
      refine ⟨never, rfl, rfl, ?_⟩
      rw [← Option.some.inj taken]
      exact (ChannelScope.connection_dropChannel _).trans absent
  | disposed =>
      refine ⟨never, rfl, rfl, ?_⟩
      rw [← Option.some.inj taken]
      exact absent

/-- What is carried out, is carried out on the channel of its delivery. -/
theorem Owns.mem_of_hasIssued
    (owns : connection.Owns place acknowledged) {arrived : DeliveryTag}
    (issued : connection.hasIssued place arrived = true) :
    arrived ∈ acknowledged := by
  obtain ⟨call, member, both⟩ := List.any_eq_true.mp issued
  obtain ⟨command, carried⟩ := Bool.and_eq_true_iff.mp both
  obtain ⟨operation, performed, itsPlace⟩ := List.any_eq_true.mp carried
  obtain ⟨tag, known, itsCommand, current⟩ := owns.calls call member
  have sameTag : tag.deliveryTag = arrived.deliveryTag := by
    have both := itsCommand.symm.trans (of_decide_eq_true command)
    injection both
  have itsChannel := (owns.steadfast call member).issued operation performed
  have sameChannel : tag.channel = arrived.channel :=
    (current _ itsChannel.1).symm.trans (of_decide_eq_true itsPlace)
  have same : tag = arrived := by
    cases tag
    cases arrived
    simp only at sameTag sameChannel
    rw [sameTag, sameChannel]
  rw [← same]
  exact known

end ServerConnection

end Amq.Core
