import Amq.Core.ServerConnection
import Amq.LockedServer
import Amq.Transition.Simulation

/-!
# Servers on their connections

Servers that hold their delivery tags in keyed locks run on connections that come
and go.  What a server calls `acknowledge` with goes to its connection, what
arrives at the broker was carried out by a channel of this connection, and a new
channel makes the server forget its tags.  Then acknowledgements arrive on the
channels of their deliveries, as long as no waiting call is handed another
channel.
-/


namespace Amq

open Function Amq.Core Amq.Transition

/-- A system with servers, and what of it concerns their connections. -/
structure TagSystem (σ ε ι ς ες κ ℓ : Type) [DecidableEq κ] where
  machine : Machine σ ε
  server : ι → LockedServer ς ες κ ℓ
  servers : σ → ι → ς
  /-- The delivery that an event brings to a server. -/
  delivered : ε → Option (ι × DeliveryTag)
  /-- The acknowledgement of a server that arrives at the broker. -/
  arrived : ε → Option (ι × DeliveryTag)
  heard : ι → ConnectionNotice → ε
  isNotice : ε → Bool
  created : ∀ place, servers machine.initial place = (server place).machine.initial
  served :
    ∀ state event next, machine.step state event = some next → ∀ place,
      ∃ events,
        (server place).machine.run (servers state place) events =
            some (servers next place) ∧
          ∀ own ∈ events, ∀ tag, (server place).delivered own = some tag →
            delivered event = some (place, tag)
  told :
    ∀ state place notice next,
      machine.step state (heard place notice) = some next → ∃ own,
        (server place).isNotice own = true ∧
          (server place).machine.step (servers state place) own =
            some (servers next place)
  undelivered : ∀ place notice, delivered (heard place notice) = none
  unarrived : ∀ place notice, arrived (heard place notice) = none

variable {σ ε ι ς ες κ ℓ : Type} [DecidableEq ι] [DecidableEq κ]

namespace TagSystem

/-- A server read as a keyed lock. -/
def lock
    (tags : TagSystem σ ε ι ς ες κ ℓ) (state : σ) (place : ι) :
    KeyedLock.State κ ℓ DeliveryTag :=
  (tags.server place).refinement.abstraction (tags.servers state place)

def isDisposed (tags : TagSystem σ ε ι ς ες κ ℓ) (state : σ) (place : ι) : Bool :=
  (tags.server place).isDisposed (tags.servers state place)

/-- Servers that have never listened store nothing. -/
def Unlocked (tags : TagSystem σ ε ι ς ες κ ℓ) (state : σ) : Prop :=
  ∀ place, (tags.server place).Unlocked (tags.servers state place)

variable {tags : TagSystem σ ε ι ς ες κ ℓ} {state next : σ} {event : ε}

section

omit [DecidableEq ι]

theorem unlocked_initial (tags : TagSystem σ ε ι ς ες κ ℓ) :
    tags.Unlocked tags.machine.initial := by
  intro place
  rw [tags.created place]
  exact LockedServer.unlocked_initial _

theorem Unlocked.step
    (unlocked : tags.Unlocked state)
    (stepped : tags.machine.step state event = some next) :
    tags.Unlocked next := by
  intro place
  obtain ⟨events, execution, _⟩ := tags.served state event next stepped place
  exact (unlocked place).run execution

/-- A lock is given the tags of the deliveries to its server. -/
theorem exists_lockEvents
    (stepped : tags.machine.step state event = some next) (place : ι) :
    ∃ events,
      KeyedLock.machine.run (tags.lock state place) events =
          some (tags.lock next place) ∧
        ∀ key label tag, .deliver key label tag ∈ events →
          tags.delivered event = some (place, tag) := by
  obtain ⟨events, execution, delivers⟩ :=
    tags.served state event next stepped place
  refine ⟨_, (tags.server place).refinement.run_translate execution, ?_⟩
  intro key label tag member
  obtain ⟨own, itself, delivered⟩ := LockedServer.delivered_of_mem member
  exact delivers own itself tag delivered

theorem silent
    (stepped : tags.machine.step state event = some next) (place : ι)
    (disposed : tags.isDisposed state place = true) :
    tags.isDisposed next place = true ∧
      (tags.lock next place).acknowledged =
        (tags.lock state place).acknowledged := by
  obtain ⟨events, execution, _⟩ := tags.served state event next stepped place
  exact LockedServer.silent_run execution disposed

/-- A server that hears of a new channel has no tag left, unless it is disposed. -/
theorem forgets
    {place : ι} {notice : ConnectionNotice} (unlocked : tags.Unlocked next)
    (stepped :
      tags.machine.step state (tags.heard place notice) = some next) :
    (tags.lock next place).acknowledged = (tags.lock state place).acknowledged ∧
      (tags.isDisposed next place = true ∨
        ∀ key, (tags.lock next place).stored key = none) := by
  obtain ⟨own, isNotice, taken⟩ := tags.told state place notice next stepped
  obtain ⟨same, forgotten⟩ :=
    (tags.server place).forgets _ own _ taken isNotice
  refine ⟨same, ?_⟩
  rcases forgotten with ready | disposed | nothing
  · exact Or.inr (unlocked place ready)
  · exact Or.inl disposed
  · exact Or.inr nothing

end

end TagSystem

structure Connected (σ ι : Type) where
  system : σ
  connections : ι → ServerConnection

inductive ConnectedEvent (ε ι : Type) where
  | system (event : ε)
  | connection (server : ι) (event : ServerConnectionEvent)

/-- The tags that a lock has acknowledged in between. -/
def newlyAcknowledged (before after : KeyedLock.State κ ℓ DeliveryTag) :
    List DeliveryTag :=
  after.acknowledged.take
    (after.acknowledged.length - before.acknowledged.length)

omit [DecidableEq κ] in
theorem newlyAcknowledged_of_append
    {before after : KeyedLock.State κ ℓ DeliveryTag} {new : List DeliveryTag}
    (grown : after.acknowledged = new ++ before.acknowledged) :
    newlyAcknowledged before after = new := by
  unfold newlyAcknowledged
  rw [grown, List.length_append, Nat.add_sub_cancel, List.take_left]

namespace Connected

/-- The system takes an event, and its servers call `acknowledge`. -/
def advance
    (tags : TagSystem σ ε ι ς ες κ ℓ) (state : Connected σ ι) (event : ε) :
    Option (Connected σ ι) :=
  (tags.machine.step state.system event).map fun next =>
    { system := next
      connections := fun server =>
        (state.connections server).acknowledge
          (newlyAcknowledged (tags.lock state.system server)
            (tags.lock next server)) }

/-- Deliveries come on the current channel, and only what a channel has carried
out arrives. -/
def isPossible
    (tags : TagSystem σ ε ι ς ες κ ℓ) (place : ConfirmChannel → ℕ)
    (state : Connected σ ι) (event : ε) : Bool :=
  !tags.isNotice event &&
    ((tags.delivered event).all fun delivery =>
      (state.connections delivery.1).isOn place delivery.2.channel) &&
    (tags.arrived event).all fun acknowledgement =>
      (state.connections acknowledgement.1).hasIssued place acknowledgement.2

def step
    (tags : TagSystem σ ε ι ς ες κ ℓ) (place : ConfirmChannel → ℕ)
    (state : Connected σ ι) : ConnectedEvent ε ι → Option (Connected σ ι)
  | .system event =>
      if state.isPossible tags place event then
        state.advance tags event
      else
        none
  | .connection server event =>
      ((state.connections server).step event).bind fun connection =>
        let changed : Connected σ ι :=
          { state with
            connections := update state.connections server connection }
        match event.notice with
        | none => some changed
        | some notice => changed.advance tags (tags.heard server notice)

/-- The system, and a connection for each server; `place` numbers the
channels. -/
def machine
    (tags : TagSystem σ ε ι ς ες κ ℓ) (place : ConfirmChannel → ℕ)
    (commandTimeoutMs : ι → JsNumber) :
    Machine (Connected σ ι) (ConnectedEvent ε ι) where
  initial :=
    { system := tags.machine.initial
      connections := fun server => .create (commandTimeoutMs server) }
  step := step tags place

/-- No waiting call is given another connection or channel. -/
def KeepsChannel (state : Connected σ ι) : ConnectedEvent ε ι → Prop
  | .system _ => True
  | .connection server event =>
      (state.connections server).calls.KeepsChannel event.toCalls

instance decidableKeepsChannel (state : Connected σ ι) :
    ∀ event : ConnectedEvent ε ι, Decidable (state.KeepsChannel event)
  | .system _ => isTrue trivial
  | .connection server event =>
      inferInstanceAs <| Decidable
        ((state.connections server).calls.KeepsChannel event.toCalls)

/-- What is known of a server and its connection. -/
structure SoundAt
    (place : ConfirmChannel → ℕ) (lock : KeyedLock.State κ ℓ DeliveryTag)
    (isDisposed : Bool) (connection : ServerConnection) : Prop where
  owns : connection.Owns place lock.acknowledged
  stored : isDisposed = false → lock.StoresOnly (connection.IsCurrent place)
  unconnected :
    connection.hasConnected = false →
      connection.calls.scope.connection = none ∧ lock.StoresOnly fun _ => False

variable {place : ConfirmChannel → ℕ}
variable {lock lock' : KeyedLock.State κ ℓ DeliveryTag}
variable {isDisposed isDisposed' : Bool} {connection next : ServerConnection}

/-- The server takes a step in which it is given tags of the current channel
only. -/
theorem SoundAt.advance
    (sound : SoundAt place lock isDisposed connection)
    {events : List (KeyedLock.Event κ ℓ DeliveryTag)}
    (execution : KeyedLock.machine.run lock events = some lock')
    (delivers :
      ∀ key label tag, .deliver key label tag ∈ events →
        connection.IsCurrent place tag ∧ connection.hasConnected = true)
    (silent :
      isDisposed = true →
        isDisposed' = true ∧ lock'.acknowledged = lock.acknowledged) :
    SoundAt place lock' isDisposed'
      (connection.acknowledge (newlyAcknowledged lock lock')) := by
  have unconnected :
      connection.hasConnected = false →
        connection.calls.scope.connection = none ∧
          lock'.StoresOnly fun _ => False := by
    intro never
    obtain ⟨absent, nothing⟩ := sound.unconnected never
    refine ⟨absent, (KeyedLock.storesOnly_run nothing ?_ execution).1⟩
    intro key label tag member
    have connected := (delivers key label tag member).2
    rw [never] at connected
    cases connected
  cases live : isDisposed with
  | true =>
      obtain ⟨still, same⟩ := silent live
      have nothing : newlyAcknowledged lock lock' = [] :=
        newlyAcknowledged_of_append same
      refine ⟨?_, ?_, unconnected⟩
      · rw [nothing, same]
        exact sound.owns.acknowledge (List.forall_mem_nil _)
      · intro notDisposed
        rw [still] at notDisposed
        cases notDisposed
  | false =>
      obtain ⟨stores, new, grown, allowed⟩ :=
        KeyedLock.storesOnly_run (sound.stored live)
          (fun key label tag member => (delivers key label tag member).1)
          execution
      refine ⟨?_, fun _ => stores, unconnected⟩
      rw [newlyAcknowledged_of_append grown, grown]
      exact sound.owns.acknowledge allowed

omit [DecidableEq κ] in
/-- The connection changes and nobody is told. -/
theorem SoundAt.step
    (sound : SoundAt place lock isDisposed connection)
    {event : ServerConnectionEvent}
    (keeps : connection.calls.KeepsChannel event.toCalls)
    (unheard : event.notice = none)
    (stepped : connection.step event = some next) :
    SoundAt place lock isDisposed next := by
  refine ⟨sound.owns.step keeps stepped, ?_, ?_⟩
  · intro live key tag stored
    cases connects : event.isConnect with
    | true =>
        -- Nothing was delivered before the first connection.
        have possible := (ServerConnection.step_cases stepped).1
        have never : connection.hasConnected = false := by
          cases event with
          | connected number => simpa [ServerConnection.isPossible] using possible
          | _ => cases connects
        exact absurd ((sound.unconnected never).2 key tag stored) id
    | false =>
        exact ServerConnection.isCurrent_step (sound.stored live key tag stored)
          unheard connects stepped
  · intro still
    obtain ⟨never, _, _, absent⟩ :=
      ServerConnection.unconnected_step (fun never => (sound.unconnected never).1)
        stepped still
    exact ⟨absent, (sound.unconnected never).2⟩

omit [DecidableEq κ] in
/-- A new channel is there, and the server has forgotten its tags. -/
theorem SoundAt.hear
    (sound : SoundAt place lock isDisposed connection)
    {event : ServerConnectionEvent} {notice : ConnectionNotice}
    (keeps : connection.calls.KeepsChannel event.toCalls)
    (heard : event.notice = some notice)
    (stepped : connection.step event = some next)
    (same : lock'.acknowledged = lock.acknowledged)
    (forgets : isDisposed' = true ∨ ∀ key, lock'.stored key = none) :
    SoundAt place lock' isDisposed'
      (next.acknowledge (newlyAcknowledged lock lock')) := by
  have nothing : newlyAcknowledged lock lock' = [] :=
    newlyAcknowledged_of_append same
  refine ⟨?_, ?_, ?_⟩
  · rw [nothing, same]
    exact (sound.owns.step keeps stepped).acknowledge (List.forall_mem_nil _)
  · intro live
    rcases forgets with disposed | forgotten
    · rw [live] at disposed
      cases disposed
    · intro key tag stored
      rw [forgotten key] at stored
      cases stored
  · intro still
    obtain ⟨_, unheard, _⟩ :=
      ServerConnection.unconnected_step (fun never => (sound.unconnected never).1)
        stepped still
    rw [unheard] at heard
    cases heard

section Runs

variable {tags : TagSystem σ ε ι ς ες κ ℓ}
variable {state next : Connected σ ι}

/-- What holds in every run without migrating calls. -/
structure Sound
    (tags : TagSystem σ ε ι ς ες κ ℓ) (place : ConfirmChannel → ℕ)
    (state : Connected σ ι) : Prop where
  unlocked : tags.Unlocked state.system
  servers :
    ∀ server,
      SoundAt place (tags.lock state.system server)
        (tags.isDisposed state.system server) (state.connections server)

theorem sound_initial
    (tags : TagSystem σ ε ι ς ες κ ℓ) (place : ConfirmChannel → ℕ)
    (commandTimeoutMs : ι → JsNumber) :
    (machine tags place commandTimeoutMs).initial.Sound tags place := by
  refine ⟨tags.unlocked_initial, ?_⟩
  intro server
  change
    SoundAt place (tags.lock tags.machine.initial server)
      (tags.isDisposed tags.machine.initial server)
      (ServerConnection.create (commandTimeoutMs server))
  have unlocked :
      tags.lock tags.machine.initial server = KeyedLock.machine.initial := by
    unfold TagSystem.lock
    rw [tags.created server]
    exact (tags.server server).refinement.initial
  rw [unlocked]
  refine ⟨ServerConnection.owns_create place _, ?_, ?_⟩
  · intro _ key tag stored
    cases stored
  · intro _
    refine ⟨rfl, ?_⟩
    intro key tag stored
    cases stored

omit [DecidableEq ι] in
theorem advance_cases
    {event : ε} (advanced : state.advance tags event = some next) :
    tags.machine.step state.system event = some next.system ∧
      next.connections = fun server =>
        (state.connections server).acknowledge
          (newlyAcknowledged (tags.lock state.system server)
            (tags.lock next.system server)) := by
  obtain ⟨after, stepped, rfl⟩ := Option.map_eq_some_iff.mp advanced
  exact ⟨stepped, rfl⟩

omit [DecidableEq ι] in
/-- A server for which the event brings nothing that is not on its current
channel. -/
theorem Sound.advanceAt
    {system following : σ} {event : ε} {server : ι}
    (sound :
      SoundAt place (tags.lock system server) (tags.isDisposed system server)
        connection)
    (stepped : tags.machine.step system event = some following)
    (delivers :
      ∀ tag, tags.delivered event = some (server, tag) →
        connection.IsCurrent place tag ∧ connection.hasConnected = true) :
    SoundAt place (tags.lock following server)
      (tags.isDisposed following server)
      (connection.acknowledge
        (newlyAcknowledged (tags.lock system server)
          (tags.lock following server))) := by
  obtain ⟨events, execution, delivered⟩ :=
    TagSystem.exists_lockEvents stepped server
  refine sound.advance execution ?_ (TagSystem.silent stepped server)
  intro key label tag member
  exact delivers tag (delivered key label tag member)

omit [DecidableEq κ] in
/-- Where there is a channel, `connect` has got a connection. -/
theorem SoundAt.current_of_isOn
    (sound : SoundAt place lock isDisposed connection) {tag : DeliveryTag}
    (isOn : connection.isOn place tag.channel = true) :
    connection.IsCurrent place tag ∧ connection.hasConnected = true := by
  obtain ⟨channel, current, itsPlace⟩ := (Option.any_eq_true _ _).mp isOn
  constructor
  · intro other isNow
    cases current.symm.trans isNow
    exact of_decide_eq_true itsPlace
  · by_contra never
    have unconnected :=
      (sound.unconnected (Bool.eq_false_iff.mpr never)).1
    rw [ChannelScope.currentChannel_of_unconnected unconnected] at current
    cases current

omit [DecidableEq ι] in
theorem Sound.system_step
    {event : ε} (sound : state.Sound tags place)
    (possible : state.isPossible tags place event = true)
    (advanced : state.advance tags event = some next) :
    next.Sound tags place := by
  obtain ⟨stepped, connections⟩ := advance_cases advanced
  refine ⟨sound.unlocked.step stepped, ?_⟩
  intro server
  rw [connections]
  refine Sound.advanceAt (sound.servers server) stepped ?_
  intro tag delivered
  have onChannel :=
    (Bool.and_eq_true_iff.mp (Bool.and_eq_true_iff.mp possible).1).2
  rw [delivered] at onChannel
  exact (sound.servers server).current_of_isOn onChannel

theorem Sound.connection_step
    {server : ι} {event : ServerConnectionEvent}
    (sound : state.Sound tags place)
    (keeps : (state.connections server).calls.KeepsChannel event.toCalls)
    (stepped :
      state.step tags place (.connection server event) = some next) :
    next.Sound tags place := by
  simp only [Connected.step] at stepped
  obtain ⟨changed, moved, stepped⟩ := Option.bind_eq_some_iff.mp stepped
  split at stepped
  case h_1 unheard =>
    cases stepped
    refine ⟨sound.unlocked, ?_⟩
    intro other
    by_cases same : other = server
    · subst same
      dsimp only
      rw [update_self]
      exact (sound.servers other).step keeps unheard moved
    · dsimp only
      rw [update_of_ne same]
      exact sound.servers other
  case h_2 notice heard =>
    obtain ⟨told, connections⟩ := advance_cases stepped
    have unlocked : tags.Unlocked next.system := sound.unlocked.step told
    refine ⟨unlocked, ?_⟩
    intro other
    rw [connections]
    by_cases same : other = server
    · subst same
      dsimp only
      rw [update_self]
      obtain ⟨unchanged, forgets⟩ := TagSystem.forgets unlocked told
      exact (sound.servers other).hear keeps heard moved unchanged forgets
    · dsimp only
      rw [update_of_ne same]
      refine Sound.advanceAt (sound.servers other) told ?_
      intro tag delivered
      rw [tags.undelivered server notice] at delivered
      cases delivered

/-- The condition holds of what happens to the system itself. -/
def Meeting (condition : σ → ε → Prop) (state : Connected σ ι) :
    ConnectedEvent ε ι → Prop
  | .system event => condition state.system event
  | .connection _ _ => True

theorem throughout_meeting
    {commandTimeoutMs : ι → JsNumber} {condition : σ → ε → Prop}
    {schedule : List (ConnectedEvent ε ι)}
    (meets :
      ∀ event, .system event ∈ schedule → ∀ system, condition system event) :
    (machine tags place commandTimeoutMs).Throughout (Meeting condition) state
      schedule := by
  induction schedule generalizing state with
  | nil => trivial
  | cons event rest inductionHypothesis =>
      refine ⟨?_, ?_⟩
      · cases event with
        | system event => exact meets event List.mem_cons_self state.system
        | connection server event => trivial
      · intro following _
        exact inductionHypothesis fun other member =>
          meets other (List.mem_cons_of_mem _ member)

/-- Acknowledgements arrive on the channels of their deliveries. -/
def InPlace
    (tags : TagSystem σ ε ι ς ες κ ℓ) (condition : σ → ε → Prop)
    (state : σ) (event : ε) : Prop :=
  condition state event ∧
    ∀ server tag, tags.arrived event = some (server, tag) →
      tag ∈ (tags.lock state server).acknowledged

theorem simulates
    (tags : TagSystem σ ε ι ς ες κ ℓ) (place : ConfirmChannel → ℕ)
    (commandTimeoutMs : ι → JsNumber) (condition : σ → ε → Prop)
    (unconditional :
      ∀ state server notice, condition state (tags.heard server notice)) :
    tags.machine.Simulates (machine tags place commandTimeoutMs) KeepsChannel
      (Meeting condition) (InPlace tags condition)
      fun state system =>
        state.system = system ∧ state.Sound tags place := by
  rintro state event next system ⟨rfl, sound⟩ keeps stepped
  change state.step tags place event = some next at stepped
  cases event with
  | system event =>
      simp only [Connected.step, Option.ite_none_right_eq_some] at stepped
      obtain ⟨possible, advanced⟩ := stepped
      have taken := (advance_cases advanced).1
      refine ⟨[event], next.system, ?_,
        ⟨rfl, sound.system_step possible advanced⟩, ?_⟩
      · rw [Machine.run_singleton]
        exact taken
      · intro meets
        refine Machine.throughout_cons ⟨meets, ?_⟩ taken trivial
        intro server tag arrived
        have issued := (Bool.and_eq_true_iff.mp possible).2
        rw [arrived] at issued
        exact (sound.servers server).owns.mem_of_hasIssued issued
  | connection server event =>
      have after := sound.connection_step keeps stepped
      simp only [Connected.step] at stepped
      obtain ⟨changed, moved, stepped⟩ := Option.bind_eq_some_iff.mp stepped
      split at stepped
      case h_1 unheard =>
        cases stepped
        exact ⟨[], state.system, rfl, ⟨rfl, after⟩, fun _ => trivial⟩
      case h_2 notice heard =>
        have told := (advance_cases stepped).1
        refine ⟨[tags.heard server notice], next.system, ?_, ⟨rfl, after⟩, ?_⟩
        · rw [Machine.run_singleton]
          exact told
        · intro _
          refine Machine.throughout_cons ⟨unconditional _ _ _, ?_⟩ told trivial
          intro other tag arrived
          rw [tags.unarrived server notice] at arrived
          cases arrived

/-- What is seen of the system in a run on its connections is a run of the system,
in which acknowledgements arrive in place. -/
theorem exists_run
    {commandTimeoutMs : ι → JsNumber} {condition : σ → ε → Prop}
    (unconditional :
      ∀ state server notice, condition state (tags.heard server notice))
    {schedule : List (ConnectedEvent ε ι)}
    (keeps :
      (machine tags place commandTimeoutMs).Throughout KeepsChannel
        (machine tags place commandTimeoutMs).initial schedule)
    (meets :
      (machine tags place commandTimeoutMs).Throughout (Meeting condition)
        (machine tags place commandTimeoutMs).initial schedule)
    (execution :
      (machine tags place commandTimeoutMs).run
        (machine tags place commandTimeoutMs).initial schedule = some state) :
    ∃ schedule',
      tags.machine.run tags.machine.initial schedule' = some state.system ∧
        tags.machine.Throughout (InPlace tags condition) tags.machine.initial
          schedule' ∧
        state.Sound tags place := by
  obtain ⟨schedule', system, execution', ⟨rfl, sound⟩, inPlace⟩ :=
    (simulates tags place commandTimeoutMs condition unconditional).run
      ⟨rfl, sound_initial tags place commandTimeoutMs⟩ keeps execution
  exact ⟨schedule', execution', inPlace meets, sound⟩

end Runs

end Connected

end Amq
