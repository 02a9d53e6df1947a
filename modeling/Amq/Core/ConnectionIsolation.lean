import Amq.Core.SystemCalls

/-!
# Successive connections

All connections of a wrapper share one channel container.  The calls of a connection
that has been replaced are cancelled, so a channel of a later connection finds none
of them waiting.

A connection whose flag of `dispose` the rollback of a channel has set is never
cancelled.  It has no channel either, so what is called on it waits for its timer,
and nothing makes the wrapper replace it.
-/

namespace Amq.Core

open Amq.Transition

/-! ## Calls -/

namespace ExecuteCall

variable {ρ : Type}

/-- A call that waits for the resource, and that at most its timer has settled. -/
structure Unserved (call : ExecuteCall ρ) : Prop where
  waiting : call.phase = .waiting
  settled :
    ∀ result, .settled result ∈ call.history →
      ∃ timeoutMs, result = .rejected (.commandTimedOut timeoutMs)

theorem unserved_execute
    {view : ExecutorView ρ} (retryOnError : Bool)
    (active : view.cancellation = none) (unavailable : view.available = none) :
    (execute view retryOnError).Unserved := by
  have begins := execute_begins view retryOnError
  generalize execute view retryOnError = call at begins ⊢
  cases begins with
  | refused cancelled => cases active.symm.trans cancelled
  | waits _ _ => exact ⟨rfl, nofun⟩
  | receives _ available => cases unavailable.symm.trans available

theorem Unserved.steps
    {view : ExecutorView ρ} {call call' : ExecuteCall ρ} {event : CallEvent}
    (unserved : call.Unserved) (steps : Steps view call event call') :
    call'.Unserved := by
  obtain ⟨waiting, settled⟩ := unserved
  constructor
  · exact (steps.parked (Or.inl waiting)).trans waiting
  · intro result member
    rcases steps.entries member with before | observed
    · exact settled result before
    · cases observed with
      | fulfilled running => cases waiting.symm.trans running
      | rejected throwing pending => cases waiting.symm.trans throwing
      | timedOut => exact ⟨view.commandTimeoutMs, rfl⟩

theorem Unserved.react
    {effects : List (CallEffect ρ)} {call call' : ExecuteCall ρ}
    (unserved : call.Unserved) (reaction : Reaction effects call call')
    (unavailable : ∀ resource, .becameAvailable resource ∉ effects)
    (uncancelled : .cancelled ∉ effects) : call'.Unserved := by
  constructor
  · have phase := reaction.phase
    rw [unserved.waiting] at phase
    generalize call'.phase = later at phase ⊢
    cases phase with
    | kept => rfl
    | received resource available => exact absurd available (unavailable resource)
  · intro result member
    rcases reaction.entries _ member with before | ⟨cancelling, _⟩
    · exact unserved.settled result before
    · exact absurd cancelling uncancelled

/-- A resource is invoked after it has been received. -/
theorem Steps.invocations
    {view : ExecutorView ρ} {call call' : ExecuteCall ρ} {event : CallEvent}
    {resource : ρ} (steps : Steps view call event call')
    (member : .invoked resource ∈ call'.history) :
    .invoked resource ∈ call.history ∨
      (call.phase = .received resource ∧ view.cancellation = none) := by
  rcases steps.entries member with before | observed
  · exact Or.inl before
  · cases observed with
    | invoked received active => exact Or.inr ⟨received, active⟩

theorem execute_uninvoked
    (view : ExecutorView ρ) (retryOnError : Bool) (resource : ρ) :
    .invoked resource ∉ (execute view retryOnError).history := by
  have begins := execute_begins view retryOnError
  generalize execute view retryOnError = call at begins ⊢
  cases begins with
  | refused cancelled => exact nofun
  | waits active unavailable => exact nofun
  | receives active available => exact nofun

end ExecuteCall

/-! ## Who owns a channel -/

namespace AmqpConnectionWrapper

variable {wrapper next : AmqpConnectionWrapper} {maxAttempts : JsNumber}
  {event : WrapperEvent} {effects : List WrapperEffect}

/-- The amqplib connection is that of the connection of the run. -/
def Owns (wrapper : AmqpConnectionWrapper) (run amqplibConnection : ℕ) : Prop :=
  ∃ current, wrapper.runs[run]? = some current ∧
    current.connection.amqplibConnection = some amqplibConnection

/-- The channel in the container is one of the last connection. -/
theorem Custody.owns_of_last
    {run : ℕ} {channel : ConfirmChannel}
    (custody : wrapper.Custody) (last : wrapper.IsLast run)
    (holds : wrapper.resources.channel = some channel) :
    wrapper.Owns run channel.connection := by
  have inRange : run < wrapper.runs.length := by
    unfold IsLast at last
    omega
  have found := List.getElem?_eq_getElem inRange
  exact ⟨_, found, (custody.holds_of_last found last holds).owns⟩

theorem Owns.kept
    {run amqplibConnection : ℕ} (owns : wrapper.Owns run amqplibConnection)
    (handedOut : wrapper.HandedOut run)
    (runsStep : wrapper.RunsStep event effects next) :
    next.Owns run amqplibConnection := by
  obtain ⟨current, found, owned⟩ := owns
  obtain ⟨same, there, settled⟩ := handedOut
  cases found.symm.trans there
  obtain ⟨later, atLater, step⟩ := runsStep.now found
  have kept := (step.settled .connection settled).2
  exact ⟨later, atLater, kept.trans owned⟩

/-- The container of the wrapper holds no other connection than the last one. -/
theorem Orderly.last_of_container
    {connection run : ℕ} (orderly : wrapper.Orderly)
    (holds : wrapper.container = some connection) (last : wrapper.IsLast run) :
    connection = run := by
  have online := (orderly.online_of_container holds).last
  unfold IsLast at online last
  omega

/-- A run that takes a step has not settled. -/
theorem initializer_unsettled
    {run : ℕ} {step : InitializerEvent}
    (stepped : wrapper.step maxAttempts (.initializer run step) = some next) :
    ∃ current, wrapper.runs[run]? = some current ∧
      ∀ result, current.phase ≠ .settled result := by
  simp only [AmqpConnectionWrapper.step, initializerStep] at stepped
  split at stepped
  case h_1 => cases stepped
  case h_2 current found =>
    split at stepped
    case h_1 => cases stepped
    case h_2 after resources taken =>
      exact ⟨current, found, (InitializerRun.steps_of_step taken).not_settled⟩

/-! ### Who stores a channel -/

/-- `connect` or `recreateChannel` of the connection of a run goes on with a channel. -/
def ResumesWithChannel (event : WrapperEvent) (run : ℕ) : Prop :=
  event = .initializer run (.channelSettled .fulfilled) ∨
    event = .channelRecreationSettled run .fulfilled

/-- The channel has been there, or is stored by a connection in use. -/
def StoredBy
    (wrapper : AmqpConnectionWrapper) (event : WrapperEvent)
    (channel : ConfirmChannel) : Prop :=
  wrapper.resources.channel = some channel ∨
    ∃ (run : ℕ) (current : InitializerRun), wrapper.runs[run]? = some current ∧
      current.connection.isDisposed = false ∧ ResumesWithChannel event run

theorem Disposal.channel
    {run : ℕ} {base : AmqpConnectionWrapper} {channel : ConfirmChannel}
    (disposal : base.Disposal run effects next)
    (holds : next.resources.channel = some channel) :
    base.resources.channel = some channel := by
  cases disposal with
  | ignored inactive => exact holds
  | disposed current connection found last active ended =>
      have activeNow : connection.isDisposed = false := by
        rcases ended with rfl | rfl
        · exact active
        · exact active
      have empty := (AmqpConnection.dispose_of_active base.resources activeNow).2.1
      cases empty.symm.trans holds

theorem storedBy_of_steps
    {run : ℕ} {step : InitializerEvent} {current after : InitializerRun}
    {resources : AmqpResources} {isCurrent : Bool} {channel : ConfirmChannel}
    (found : wrapper.runs[run]? = some current)
    (steps :
      InitializerRun.Steps maxAttempts isCurrent current wrapper.resources step
        after resources)
    (holds : resources.channel = some channel) :
    wrapper.StoredBy (.initializer run step) channel := by
  cases steps with
  | moved moves => exact Or.inl holds
  | opened before => exact Or.inl holds
  | created before active =>
      exact Or.inr ⟨run, current, found, active, Or.inl rfl⟩
  | createdDisposed before disposed =>
      unfold AmqpConnection.channelCreated at holds
      rw [disposed] at holds
      exact Or.inl holds
  | failed before => exact Or.inl holds

/-- A connection that is disposed of stores no channel. -/
theorem Moves.storedBy
    {channel : ConfirmChannel}
    (moves : Moves maxAttempts wrapper event effects next)
    (holds : next.resources.channel = some channel) :
    wrapper.StoredBy event channel := by
  cases moves with
  | ignored served => exact Or.inl holds
  | connects unused => exact Or.inl holds
  | disposes state container pending => exact Or.inl holds
  | disposesOnline online disposal => exact Or.inl (disposal.channel holds)
  | initializes found steps => exact storedBy_of_steps found steps holds
  | connectFails connecting exceeded => exact Or.inl holds
  | connectSucceeds connecting last promise handedOut => exact Or.inl holds
  | connectEnds disposed connecting => exact Or.inl holds
  | connectRollsBack disposed connecting disposal =>
      exact Or.inl (disposal.channel holds)
  | replaces mode connecting reconnecting retired => exact Or.inl holds
  | reconnectFails reconnecting => exact Or.inl holds
  | reconnectSucceeds reconnecting last promise handedOut => exact Or.inl holds
  | reconnectEnds disposed reconnecting => exact Or.inl holds
  | reconnectCancelled disposed reconnecting cancelled => exact Or.inl holds
  | reconnectRollsBack disposed reconnecting disposal =>
      exact Or.inl (disposal.channel holds)
  | reconnectFinishes disposed reconnecting => exact Or.inl holds
  | loses online lost disposal => exact Or.inl (disposal.channel holds)
  | drops elsewhere lost served disposal => exact Or.inl (disposal.channel holds)
  | @losesChannel run current found listens =>
      rw [withConnection_of_found _ found] at holds
      cases recreating : current.connection.recreatingChannel with
      | some pending =>
          rw [AmqpConnection.recreateChannel_of_pending _ recreating] at holds
          exact Or.inl holds
      | none =>
          obtain ⟨emptied, same, _, empty⟩ :=
            AmqpConnection.recreateChannel_of_idle wrapper.resources recreating
          rw [same] at holds
          cases empty.symm.trans holds
  | @recreatesChannel run amqplibConnection current emissions found active =>
      exact Or.inr ⟨run, current, found, active, Or.inr rfl⟩
  | dropsChannel found disposed opened channel =>
      exact Or.inl (channel.symm.trans holds)

end AmqpConnectionWrapper

namespace AmqpSystem

variable {config : AmqpSystemConfig} {system next : AmqpSystem}

/-! ## Connections that do not listen -/

structure Quiet (system : AmqpSystem) : Prop where
  disposed :
    ∀ run ∈ system.cancelled,
      ∃ current, system.wrapper.runs[run]? = some current ∧
        current.connection.isDisposed = true
  silent :
    ∀ (run : ℕ) (current : InitializerRun),
      system.wrapper.runs[run]? = some current → run ∉ system.cancelled →
        current.connection.handlesChannels = false →
          current.connection.handledConnection = none ∧
            current.connection.recreatingChannel = none
  flagged :
    ∀ (run : ℕ) (current : InitializerRun),
      system.wrapper.runs[run]? = some current →
        current.connection.isDisposed = true →
          run ∈ system.cancelled ∨ current.connection.amqplibConnection ≠ none

theorem quiet_create : create.Quiet := by
  refine ⟨nofun, ?_, ?_⟩
  · intro run current found
    cases List.mem_of_getElem? found
  · intro run current found
    cases List.mem_of_getElem? found

/-- A call goes on. -/
theorem Quiet.congr
    (quiet : system.Quiet) (wrapper : next.wrapper = system.wrapper)
    (cancelled : next.cancelled = system.cancelled) : next.Quiet := by
  refine ⟨?_, ?_, ?_⟩
  · rw [wrapper, cancelled]
    exact quiet.disposed
  · rw [wrapper, cancelled]
    exact quiet.silent
  · rw [wrapper, cancelled]
    exact quiet.flagged

theorem Quiet.after
    {event : WrapperEvent} {effects : List WrapperEffect}
    {wrapper : AmqpConnectionWrapper} (quiet : system.Quiet)
    (runsStep : system.wrapper.RunsStep event effects wrapper) :
    (system.after effects wrapper).Quiet := by
  refine ⟨?_, ?_, ?_⟩
  · intro run member
    rcases mem_after_cancelled.mp member with cancelling | before
    · obtain ⟨current, found⟩ := runsStep.cancelled cancelling
      obtain ⟨later, there, step⟩ := runsStep.now found
      exact ⟨later, there, step.cancelled cancelling⟩
    · obtain ⟨current, found, spent⟩ := quiet.disposed run before
      obtain ⟨later, there, step⟩ := runsStep.now found
      exact ⟨later, there, step.disposed spent⟩
  · intro run current found kept silent
    rw [mem_after_cancelled, not_or] at kept
    rcases runsStep.before found with ⟨earlier, there, step⟩ | ⟨rfl, _⟩
    · have silentBefore : earlier.connection.handlesChannels = false := by
        by_contra listened
        rw [Bool.not_eq_false] at listened
        rcases step.silenced listened with listens | cancelling
        · cases silent.symm.trans listens
        · exact kept.1 cancelling
      obtain ⟨handled, recreating⟩ :=
        quiet.silent run earlier there kept.2 silentBefore
      exact step.quiet silent kept.1 handled recreating
    · exact ⟨rfl, rfl⟩
  · intro run current found flagged
    rw [mem_after_cancelled]
    rcases runsStep.before found with ⟨earlier, there, step⟩ | ⟨rfl, _⟩
    · rcases step.flagged flagged with before | cancelling | owned
      · rcases quiet.flagged run earlier there before with cancelled | owned
        · exact Or.inl (Or.inr cancelled)
        · exact Or.inr (step.kept owned)
      · exact Or.inl (Or.inl cancelling)
      · exact Or.inr owned
    · cases flagged

/-! ## Connections without a channel -/

/-- The last connection is open and listens to no channel, although nobody has given
it up. -/
structure Stranded
    (system : AmqpSystem) (run : ℕ) (current : InitializerRun) : Prop where
  found : system.wrapper.runs[run]? = some current
  last : system.wrapper.IsLast run
  opened : current.connection.amqplibConnection ≠ none
  silent : current.connection.handlesChannels = false
  kept : run ∉ system.cancelled
  active : system.wrapper.isCancelled = false

theorem Stranded.congr
    {run : ℕ} {current : InitializerRun} (stranded : next.Stranded run current)
    (wrapper : next.wrapper = system.wrapper)
    (cancelled : next.cancelled = system.cancelled) :
    system.Stranded run current := by
  obtain ⟨found, last, opened, silent, kept, active⟩ := stranded
  rw [wrapper] at found last active
  rw [cancelled] at kept
  exact ⟨found, last, opened, silent, kept, active⟩

theorem Stranded.channel
    {run : ℕ} {current : InitializerRun} (stranded : system.Stranded run current)
    (custody : system.wrapper.Custody) :
    system.wrapper.resources.channel = none := by
  cases holds : system.wrapper.resources.channel with
  | none => rfl
  | some channel =>
      have uses := custody.holds_of_last stranded.found stranded.last holds
      cases stranded.silent.symm.trans uses.listens

/-- A connection is stranded from when it is opened. -/
theorem Stranded.before
    {event : WrapperEvent} {effects : List WrapperEffect}
    {wrapper : AmqpConnectionWrapper} {run : ℕ} {current : InitializerRun}
    (stranded : (system.after effects wrapper).Stranded run current)
    (runsStep : system.wrapper.RunsStep event effects wrapper)
    (control : system.wrapper.ControlStep event effects wrapper) :
    (∃ earlier, system.Stranded run earlier) ∨
      event = .initializer run (.connectionSettled .fulfilled) := by
  obtain ⟨found, last, opened, silent, kept, active⟩ := stranded
  change wrapper.runs[run]? = some current at found
  rw [mem_after_cancelled, not_or] at kept
  rcases runsStep.before found with ⟨earlier, there, step⟩ | ⟨rfl, _⟩
  · rcases step.opened opened with openedBefore | opening
    · left
      refine ⟨earlier, there, ?_, openedBefore, ?_, kept.2, ?_⟩
      · rcases runsStep.last_before last with before | created
        · exact before
        · rw [found] at created
          cases created
          exact absurd rfl opened
      · by_contra listened
        rw [Bool.not_eq_false] at listened
        rcases step.silenced listened with listens | cancelling
        · cases silent.symm.trans listens
        · exact kept.1 cancelling
      · by_contra cancelled
        rw [Bool.not_eq_false] at cancelled
        cases active.symm.trans (control.cancelled.mpr (Or.inl cancelled))
    · exact Or.inr opening
  · exact absurd rfl opened

/-- What is called on the connection `run` waits in vain. -/
structure Calm (system : AmqpSystem) (run : ℕ) (command : Command) : Prop where
  received :
    ∀ connection, command.call.phase = .received connection → connection = run
  running :
    ∀ connection, command.call.phase = .running connection →
      ∃ made, system.channelCommands[command.channelCommand]? = some made ∧
        made.connection = run ∧ made.call.Unserved
  content : command.call.phase ≠ .failed .connectionBecameUnavailable

/-- No reaction of the command is pending when the network opens a connection. -/
structure Idle (command : Command) : Prop where
  unreceived : ∀ connection, command.call.phase ≠ .received connection
  stopped : ∀ connection, command.call.phase ≠ .running connection
  content : command.call.phase ≠ .failed .connectionBecameUnavailable

theorem Calm.after
    {event : WrapperEvent} {effects : List WrapperEffect}
    {wrapper : AmqpConnectionWrapper} {run : ℕ} {current : InitializerRun}
    {command : Command} {call : ExecuteCall ℕ}
    (stranded : (system.after effects wrapper).Stranded run current)
    (orderly : wrapper.Orderly)
    (control : system.wrapper.ControlStep event effects wrapper)
    (reaction :
      ExecuteCall.Reaction (effects.filterMap WrapperEffect.onCommands)
        command.call call)
    (before : system.Calm run command ∨ Idle command) :
    (system.after effects wrapper).Calm run { command with call := call } := by
  refine ⟨?_, ?_, ?_⟩
  · intro connection received
    rcases reaction.received received with still | ⟨_, available⟩
    · rcases before with calm | idle
      · exact calm.received connection still
      · exact absurd still (idle.unreceived connection)
    · rw [WrapperEffect.becameAvailable_mem_onCommands] at available
      exact
        orderly.last_of_container (control.available connection available)
          stranded.last
  · intro connection running
    have still := reaction.running running
    rcases before with calm | idle
    · obtain ⟨made, found, same, unserved⟩ := calm.running connection still
      refine ⟨_, after_channelCommands wrapper found, same, ?_⟩
      apply unserved.react (ExecuteCall.reaction_reactAll made.call _)
      · intro channel available
        rw [WrapperEffect.becameAvailable_mem_onChannelCommands] at available
        have empty : wrapper.resources.channel = none :=
          stranded.channel orderly.custody
        cases empty.symm.trans (control.stored channel available)
      · intro cancelling
        rw [WrapperEffect.cancelled_mem_onChannelCommands, same] at cancelling
        exact stranded.kept (mem_after_cancelled.mpr (Or.inl cancelling))
    · exact absurd still (idle.stopped connection)
  · intro failed
    have still := (reaction.raised (Or.inl failed)).trans failed
    rcases before with calm | idle
    · exact calm.content still
    · exact idle.content still

/-! ## Connections in use -/

/-- A connection that commands see is cancelled, or nobody has replaced it. -/
def Placed (system : AmqpSystem) (run : ℕ) : Prop :=
  run ∈ system.cancelled ∨
    (system.wrapper.IsLast run ∧
      system.wrapper.reconnecting ≠ some .disposingOld)

theorem placed_of_container
    {connection : ℕ} (orderly : system.wrapper.Orderly)
    (holds : system.wrapper.container = some connection) :
    system.Placed connection := by
  have online := orderly.online_of_container holds
  refine Or.inr ⟨online.last, ?_⟩
  rw [online.reconnecting]
  exact nofun

/-- The channel that a connection in use gets to see is its own. -/
theorem Placed.owns
    {run : ℕ} {channel : ConfirmChannel} (placed : system.Placed run)
    (custody : system.wrapper.Custody)
    (holds : system.wrapper.resources.channel = some channel) :
    system.wrapper.Owns run channel.connection ∨ run ∈ system.cancelled := by
  rcases placed with cancelled | ⟨last, _⟩
  · exact Or.inr cancelled
  · exact Or.inl (custody.owns_of_last last holds)

/-- Only a connection that listens is lost, and the disposal of such a connection
cancels its calls. -/
theorem Placed.after
    {event : WrapperEvent} {effects : List WrapperEffect}
    {wrapper : AmqpConnectionWrapper} {maxAttempts : JsNumber} {run : ℕ}
    (placed : system.Placed run) (quiet : system.Quiet)
    (orderly : system.wrapper.Orderly)
    (moves :
      AmqpConnectionWrapper.Moves maxAttempts system.wrapper event effects wrapper)
    (untroubled :
      event = .connectionBecameUnavailable →
        ∀ run current, ¬ system.Stranded run current) :
    (system.after effects wrapper).Placed run := by
  unfold Placed
  rw [mem_after_cancelled]
  rcases placed with cancelled | ⟨last, unreplaced⟩
  · exact Or.inl (Or.inr cancelled)
  · rcases (moves.runsStep orderly).last last with lastNow | replacing
    · by_cases replaced : wrapper.reconnecting = some .disposingOld
      · left
        rcases moves.replacing replaced with before | ⟨other, online, lost, disposal⟩
        · exact absurd before unreplaced
        · have same := orderly.last_of_container online.container last
          subst same
          obtain ⟨current, found, settled⟩ := online.handedOut
          rcases disposal current found with spent | cancelling
          · right
            by_contra kept
            have silent : current.connection.handlesChannels = false := by
              by_contra listens
              rw [Bool.not_eq_false] at listens
              have record := orderly.custody.records other current found
              cases spent.symm.trans (record.listens listens).1
            obtain ⟨handled, recreating⟩ :=
              quiet.silent other current found kept silent
            rcases lost with unavailable | ⟨same, there, cause⟩
            · have opened :=
                (quiet.flagged other current found spent).resolve_left kept
              exact
                untroubled unavailable other current
                  ⟨found, online.last, opened, silent, kept, online.isCancelled⟩
            · cases found.symm.trans there
              rcases cause with ⟨_, used⟩ | ⟨_, recreates⟩
              · rw [handled, silent] at used
                rcases used with impossible | impossible
                · cases impossible
                · cases impossible
              · exact recreates recreating
          · exact Or.inl cancelling
      · exact Or.inr ⟨lastNow, replaced⟩
    · exact absurd replacing unreplaced

/-! ## Isolation -/

structure Isolated (system : AmqpSystem) : Prop where
  quiet : system.Quiet
  placed :
    ∀ command ∈ system.commands, ∀ connection : ℕ,
      command.call.phase = .received connection → system.Placed connection
  placedChannel :
    ∀ command ∈ system.channelCommands, system.Placed command.connection
  received :
    ∀ command ∈ system.channelCommands, ∀ channel : ConfirmChannel,
      command.call.phase = .received channel →
        system.wrapper.Owns command.connection channel.connection ∨
          command.connection ∈ system.cancelled
  invoked :
    ∀ command ∈ system.channelCommands, ∀ channel : ConfirmChannel,
      .invoked channel ∈ command.call.history →
        system.wrapper.Owns command.connection channel.connection
  calm :
    ∀ run current, system.Stranded run current →
      ∀ command ∈ system.commands, system.Calm run command

theorem isolated_create : create.Isolated := by
  refine ⟨quiet_create, ?_, ?_, ?_, ?_, ?_⟩
  · intro command member
    cases member
  · intro command member
    cases member
  · intro command member
    cases member
  · intro command member
    cases member
  · intro run current stranded
    cases List.mem_of_getElem? stranded.found

theorem Isolated.after
    {event : WrapperEvent} {wrapper : AmqpConnectionWrapper}
    {effects : List WrapperEffect} {maxAttempts : JsNumber}
    (isolated : system.Isolated) (attached : system.Attached)
    (orderly : system.wrapper.Orderly)
    (moves :
      AmqpConnectionWrapper.Moves maxAttempts system.wrapper event effects wrapper)
    (untroubled :
      event = .connectionBecameUnavailable →
        ∀ run current, ¬ system.Stranded run current)
    (opening :
      ∀ run, event = .initializer run (.connectionSettled .fulfilled) →
        ∀ command ∈ system.commands, Idle command) :
    (system.after effects wrapper).Isolated := by
  have control := moves.controlStep
  have runsStep := moves.runsStep orderly
  have orderlyNow := orderly.moves moves
  have placedNow {run : ℕ} (placed : system.Placed run) :
      (system.after effects wrapper).Placed run :=
    placed.after isolated.quiet orderly moves untroubled
  refine ⟨isolated.quiet.after runsStep, ?_, ?_, ?_, ?_, ?_⟩
  · intro command member connection received
    obtain ⟨earlier, before, call, reaction, rfl⟩ := mem_after_commands member
    rcases reaction.received received with still | ⟨_, available⟩
    · exact placedNow (isolated.placed earlier before connection still)
    · rw [WrapperEffect.becameAvailable_mem_onCommands] at available
      exact placed_of_container orderlyNow (control.available connection available)
  · intro command member
    obtain ⟨earlier, before, call, reaction, rfl⟩ :=
      mem_after_channelCommands member
    exact placedNow (isolated.placedChannel earlier before)
  · intro command member channel received
    obtain ⟨earlier, before, call, reaction, rfl⟩ :=
      mem_after_channelCommands member
    rcases reaction.received received with still | ⟨_, available⟩
    · rcases isolated.received earlier before channel still with owns | cancelled
      · exact
          Or.inl (owns.kept (attached.channelCommands earlier before) runsStep)
      · exact Or.inr (mem_after_cancelled.mpr (Or.inr cancelled))
    · rw [WrapperEffect.becameAvailable_mem_onChannelCommands] at available
      have placed := placedNow (isolated.placedChannel earlier before)
      exact placed.owns orderlyNow.custody (control.stored channel available)
  · intro command member channel invoked
    obtain ⟨earlier, before, call, reaction, rfl⟩ :=
      mem_after_channelCommands member
    rcases reaction.entries _ invoked with still | ⟨_, impossible, _⟩
    · exact
        (isolated.invoked earlier before channel still).kept
          (attached.channelCommands earlier before) runsStep
    · cases impossible
  · intro run current stranded command member
    obtain ⟨earlier, among, call, reaction, rfl⟩ := mem_after_commands member
    apply Calm.after stranded orderlyNow control reaction
    rcases stranded.before runsStep control with ⟨previous, before⟩ | opened
    · exact Or.inl (isolated.calm run previous before earlier among)
    · exact Or.inr (opening run opened earlier among)

/-! ## Steps of the calls -/

/-- A call of the wrapper's executor goes on, and nobody hears it. -/
theorem Isolated.setCommand
    {index : ℕ} {command : Command} {event : CallEvent} {call : ExecuteCall ℕ}
    (isolated : system.Isolated) (orderly : system.wrapper.Orderly)
    (found : system.commands[index]? = some command)
    (stepped : command.call.step (system.view config) event = some call)
    (settled :
      ∀ result, event = .commandSettled result →
        system.settledWith command.channelCommand result = true)
    (uninvoked :
      ∀ connection, event = .continued → call.phase ≠ .running connection) :
    (system.setCommand index { command with call := call }).Isolated := by
  have steps := ExecuteCall.steps_of_step stepped
  have issued := List.mem_of_getElem? found
  refine
    ⟨isolated.quiet.congr rfl rfl, ?_, isolated.placedChannel,
      isolated.received, isolated.invoked, ?_⟩
  · intro other member connection received
    rcases List.mem_or_eq_of_mem_set member with before | rfl
    · exact isolated.placed other before connection received
    · rcases steps.received received with still | ⟨_, available⟩
      · exact isolated.placed command issued connection still
      · exact placed_of_container orderly available
  · intro run current strandedNow other member
    have stranded : system.Stranded run current := strandedNow.congr rfl rfl
    rcases List.mem_or_eq_of_mem_set member with before | rfl
    · have calm := isolated.calm run current stranded other before
      exact ⟨calm.received, calm.running, calm.content⟩
    · have calm := isolated.calm run current stranded command issued
      refine ⟨?_, ?_, ?_⟩
      · intro connection received
        rcases steps.received received with still | ⟨_, available⟩
        · exact calm.received connection still
        · exact orderly.last_of_container available stranded.last
      · intro connection running
        rcases steps.running running with still | ⟨continued, _⟩
        · exact calm.running connection still
        · exact absurd running (uninvoked connection continued)
      · intro failed
        rcases steps.failed failed with
          still | cancelled | ⟨connection, thrown, rejected, running, rethrown⟩
        · exact calm.content still
        · have active : system.wrapper.isCancelled = false := stranded.active
          cases (view_active config active).symm.trans cancelled
        · -- The timer of the call that was made has rejected it.
          obtain ⟨made, there, _, unserved⟩ := calm.running connection running
          have result := settled _ rejected
          unfold settledWith at result
          rw [there] at result
          obtain ⟨timeoutMs, same⟩ :=
            unserved.settled _ (of_decide_eq_true result)
          cases same
          cases rethrown

/-- A command is invoked on the connection that it has received. -/
theorem Isolated.invoke
    {index connection : ℕ} {command : Command}
    (isolated : system.Isolated) (orderly : system.wrapper.Orderly)
    (found : system.commands[index]? = some command)
    (received : command.call.phase = .received connection) :
    (system.invoke config index connection
      { command.call with
        phase := .running connection
        history := .invoked connection :: command.call.history }).Isolated := by
  have issued := List.mem_of_getElem? found
  have placed := isolated.placed command issued connection received
  refine ⟨isolated.quiet.congr rfl rfl, ?_, ?_, ?_, ?_, ?_⟩
  · intro other member resource phase
    rcases List.mem_or_eq_of_mem_set member with before | rfl
    · exact isolated.placed other before resource phase
    · cases phase
  · intro other member
    rcases List.mem_append.mp member with before | new
    · exact isolated.placedChannel other before
    · cases List.mem_singleton.mp new
      exact placed
  · intro other member channel phase
    rcases List.mem_append.mp member with before | new
    · exact isolated.received other before channel phase
    · cases List.mem_singleton.mp new
      exact
        placed.owns orderly.custody (ExecuteCall.available_of_execute phase)
  · intro other member channel invoked
    rcases List.mem_append.mp member with before | new
    · exact isolated.invoked other before channel invoked
    · cases List.mem_singleton.mp new
      exact absurd invoked (ExecuteCall.execute_uninvoked _ _ channel)
  · intro run current strandedNow other member
    have stranded : system.Stranded run current := strandedNow.congr rfl rfl
    rcases List.mem_or_eq_of_mem_set member with before | rfl
    · have calm := isolated.calm run current stranded other before
      refine ⟨calm.received, ?_, calm.content⟩
      intro resource running
      obtain ⟨made, there, same⟩ := calm.running resource running
      refine ⟨made, ?_, same⟩
      change (system.channelCommands ++ [_])[other.channelCommand]? = some made
      rw [List.getElem?_append_left (List.getElem?_eq_some_iff.mp there).1]
      exact there
    · have calm := isolated.calm run current stranded command issued
      have same := calm.received connection received
      subst same
      refine ⟨nofun, ?_, nofun⟩
      intro resource _
      refine ⟨_, List.getElem?_concat_length, rfl, ?_⟩
      apply ExecuteCall.unserved_execute
      · exact if_neg stranded.kept
      · exact stranded.channel orderly.custody

/-- A call of a channel executor goes on, and nobody hears it. -/
theorem Isolated.setChannelCommand
    {index : ℕ} {command : ChannelCommand} {event : CallEvent}
    {call : ExecuteCall ConfirmChannel}
    (isolated : system.Isolated) (orderly : system.wrapper.Orderly)
    (found : system.channelCommands[index]? = some command)
    (stepped :
      command.call.step (system.channelView config command.connection) event =
        some call) :
    (system.setChannelCommand index { command with call := call }).Isolated := by
  have steps := ExecuteCall.steps_of_step stepped
  have issued := List.mem_of_getElem? found
  have inRange := (List.getElem?_eq_some_iff.mp found).1
  have placed := isolated.placedChannel command issued
  refine ⟨isolated.quiet.congr rfl rfl, isolated.placed, ?_, ?_, ?_, ?_⟩
  · intro other member
    rcases List.mem_or_eq_of_mem_set member with before | rfl
    · exact isolated.placedChannel other before
    · exact placed
  · intro other member channel received
    rcases List.mem_or_eq_of_mem_set member with before | rfl
    · exact isolated.received other before channel received
    · rcases steps.received received with still | ⟨_, available⟩
      · exact isolated.received command issued channel still
      · exact placed.owns orderly.custody available
  · intro other member channel invoked
    rcases List.mem_or_eq_of_mem_set member with before | rfl
    · exact isolated.invoked other before channel invoked
    · rcases steps.invocations invoked with still | ⟨received, active⟩
      · exact isolated.invoked command issued channel still
      · apply (isolated.received command issued channel received).resolve_right
        intro cancelled
        cases active.symm.trans (channelView_cancellation config cancelled)
  · intro run current strandedNow other member
    have stranded : system.Stranded run current := strandedNow.congr rfl rfl
    have calm := isolated.calm run current stranded other member
    refine ⟨calm.received, ?_, calm.content⟩
    intro connection running
    obtain ⟨made, there, same, unserved⟩ := calm.running connection running
    by_cases here : index = other.channelCommand
    · subst here
      cases found.symm.trans there
      exact
        ⟨_, List.getElem?_set_self inRange, same, unserved.steps steps⟩
    · exact ⟨made, (List.getElem?_set_ne here).trans there, same, unserved⟩

/-! ## Whole runs -/

/-- When the network opens a connection, no command runs on an earlier one. -/
theorem idle_of_inTurn
    {run : ℕ} {wrapper : AmqpConnectionWrapper} {maxAttempts : JsNumber}
    (isolated : system.Isolated) (orderly : system.wrapper.Orderly)
    (tidy : system.Tidy) (linked : system.Linked) (attached : system.Attached)
    (stepped :
      system.wrapper.step maxAttempts
          (.initializer run (.connectionSettled .fulfilled)) =
        some wrapper)
    (inTurn :
      system.inTurn
          (.wrapper (.initializer run (.connectionSettled .fulfilled))) =
        true) :
    ∀ command ∈ system.commands, Idle command := by
  intro command member
  have calm : system.isReacting command = false := by
    have all := List.all_eq_true.mp inTurn command member
    exact Bool.not_eq_true' _ ▸ all
  unfold isReacting at calm
  refine ⟨?_, ?_, ?_⟩
  · intro connection received
    rw [received] at calm
    cases calm
  · intro connection running
    rw [running] at calm
    obtain ⟨made, found, same, _⟩ := linked command member connection running
    rw [found] at calm
    have unsettled : made.call.isSettled = false := calm
    have issued := List.mem_of_getElem? found
    rcases isolated.placedChannel made issued with cancelled | ⟨last, _⟩
    · have settled := (tidy.channelCommands made issued).settled cancelled
      cases unsettled.symm.trans settled
    · obtain ⟨current, there, pending⟩ :=
        AmqpConnectionWrapper.initializer_unsettled stepped
      have runLast := orderly.custody.last there (Or.inr pending)
      have equal : made.connection = run := by
        unfold AmqpConnectionWrapper.IsLast at last runLast
        omega
      obtain ⟨other, atOther, settled⟩ := attached.channelCommands made issued
      rw [equal] at atOther
      cases there.symm.trans atOther
      exact absurd settled (pending .connection)
  · intro failed
    rw [failed] at calm
    cases calm

/-- "connectionBecameUnavailable" is emitted for that error. -/
theorem failed_of_emission
    {command : Command} {call : ExecuteCall ℕ}
    (caught : command.call.step (system.view config) .caught = some call)
    (emission :
      command.call.emission call = some .connectionBecameUnavailable) :
    command.call.phase = .failed .connectionBecameUnavailable := by
  obtain ⟨error, before, catches⟩ := ExecuteCall.catches_of_caught caught
  rw [emission] at catches
  cases catches with
  | paused active retry unavailable =>
      rw [unavailable] at before
      exact before

theorem Isolated.steps
    {event : SystemEvent} (isolated : system.Isolated)
    (orderly : system.wrapper.Orderly) (tidy : system.Tidy)
    (linked : system.Linked) (attached : system.Attached)
    (inTurn : system.inTurn event = true)
    (steps : Steps config system event next) : next.Isolated := by
  cases steps with
  | @followed event wrapper permitted stepped =>
      apply isolated.after attached orderly (orderly.moves_of_step _ stepped)
      · intro unavailable
        subst unavailable
        cases permitted
      · intro run opening
        subst opening
        exact idle_of_inTurn isolated orderly tidy linked attached stepped inTurn
  | executed retryOnError =>
      refine
        ⟨isolated.quiet.congr rfl rfl, ?_, isolated.placedChannel,
          isolated.received, isolated.invoked, ?_⟩
      · intro command member connection received
        rcases List.mem_append.mp member with before | new
        · exact isolated.placed command before connection received
        · cases List.mem_singleton.mp new
          exact
            placed_of_container orderly (ExecuteCall.available_of_execute received)
      · intro run current strandedNow command member
        have stranded : system.Stranded run current := strandedNow.congr rfl rfl
        rcases List.mem_append.mp member with before | new
        · have calm := isolated.calm run current stranded command before
          exact ⟨calm.received, calm.running, calm.content⟩
        · cases List.mem_singleton.mp new
          have begins :=
            ExecuteCall.execute_begins (system.view config) retryOnError
          generalize
            ExecuteCall.execute (system.view config) retryOnError = call
            at begins ⊢
          cases begins with
          | refused cancelled => exact ⟨nofun, nofun, nofun⟩
          | waits active unavailable => exact ⟨nofun, nofun, nofun⟩
          | receives active available =>
              refine ⟨?_, nofun, nofun⟩
              intro connection received
              cases received
              exact orderly.last_of_container available stranded.last
  | invoked found received active => exact isolated.invoke orderly found received
  | commandMoved found stepped settled uninvoked unheard =>
      exact isolated.setCommand orderly found stepped settled uninvoked
  | @commandHeard index command call wrapper found caught emission stepped =>
      have moved := isolated.setCommand orderly found caught nofun nofun
      refine
        moved.after (attached.setCommand orderly found caught) orderly
          (orderly.moves_of_step _ stepped) ?_ nofun
      intro _ run current strandedNow
      have stranded : system.Stranded run current := strandedNow.congr rfl rfl
      have calm :=
        isolated.calm run current stranded command (List.mem_of_getElem? found)
      exact calm.content (failed_of_emission caught emission)
  | channelCommandMoved found stepped settled unheard =>
      exact isolated.setChannelCommand orderly found stepped
  | @channelCommandHeard index command call event wrapper found caught listens
      cause stepped =>
      refine
        (isolated.setChannelCommand orderly found caught).after
          (attached.setChannelCommand found call) orderly
          (orderly.moves_of_step _ stepped) ?_ ?_
      · intro unavailable
        subst unavailable
        rcases cause with ⟨_, impossible⟩ | ⟨_, impossible⟩
        · cases impossible
        · cases impossible
      · intro run opening
        subst opening
        rcases cause with ⟨_, impossible⟩ | ⟨_, impossible⟩
        · cases impossible
        · cases impossible

/-- What is known of a system on an event loop. -/
structure Separated (system : AmqpSystem) : Prop where
  orderly : system.wrapper.Orderly
  tidy : system.Tidy
  linked : system.Linked
  attached : system.Attached
  isolated : system.Isolated

theorem separated_create : create.Separated :=
  ⟨orderly_create, tidy_create, linked_create, attached_create, isolated_create⟩

/-- An event of the event loop is one of the system, in its turn. -/
theorem step_of_eventLoop
    {event : SystemEvent}
    (stepped : (eventLoop config).step system event = some next) :
    system.inTurn event = true ∧ system.step config event = some next := by
  change (if system.inTurn event then system.step config event else none) =
    some next at stepped
  by_cases inTurn : system.inTurn event = true
  · rw [if_pos inTurn] at stepped
    exact ⟨inTurn, stepped⟩
  · rw [if_neg inTurn] at stepped
    cases stepped

theorem separated_preserved (config : AmqpSystemConfig) :
    (eventLoop config).Preserved Separated := by
  intro system event next separated stepped
  obtain ⟨orderly, tidy, linked, attached, isolated⟩ := separated
  obtain ⟨inTurn, taken⟩ := step_of_eventLoop stepped
  have steps := steps_of_step taken
  exact
    ⟨orderly_preserved config system event next orderly taken,
      tidy.steps orderly steps, linked.steps steps, attached.steps orderly steps,
      isolated.steps orderly tidy linked attached inTurn steps⟩

/-- A connection that is disposed of stores no channel. -/
theorem stored_of_step
    {event : SystemEvent} {channel : ConfirmChannel}
    (orderly : system.wrapper.Orderly)
    (stepped : system.step config event = some next)
    (holds : next.wrapper.resources.channel = some channel) :
    system.wrapper.resources.channel = some channel ∨
      ∃ (run : ℕ) (current : InitializerRun) (reaction : WrapperEvent),
        event = .wrapper reaction ∧
          AmqpConnectionWrapper.ResumesWithChannel reaction run ∧
          system.wrapper.runs[run]? = some current ∧
            current.connection.isDisposed = false := by
  cases (steps_of_step stepped).wrapper with
  | rests call wrapper cancelled emitted =>
      rw [wrapper] at holds
      exact Or.inl holds
  | reacts reaction cause taken cancelled emitted =>
      rcases (orderly.moves_of_step _ taken).storedBy holds with
        before | ⟨run, current, found, active, resumes⟩
      · exact Or.inl before
      · right
        rcases cause with same | ⟨_, heard⟩
        · exact ⟨run, current, reaction, same, resumes, found, active⟩
        · -- What a call emits resumes nothing.
          rcases heard with rfl | ⟨connection, rfl | rfl⟩
          all_goals
            rcases resumes with impossible | impossible
            · cases impossible
            · cases impossible

/-- The container holds a channel of the last connection, if any.  A connection that is
disposed of stores none and hears none, and what is called on a connection never
runs on a channel of another. -/
theorem connections_isolated
    (config : AmqpSystemConfig) (system : AmqpSystem)
    (reachable : (eventLoop config).Reachable system) :
    (∀ (channel : ConfirmChannel),
        system.wrapper.resources.channel = some channel →
          ∃ (run : ℕ) (current : InitializerRun),
            system.wrapper.runs[run]? = some current ∧ system.wrapper.IsLast run ∧
              current.connection.isDisposed = false ∧
              current.connection.amqplibConnection = some channel.connection) ∧
      (∀ (event : SystemEvent) (next : AmqpSystem) (channel : ConfirmChannel),
        (eventLoop config).step system event = some next →
          next.wrapper.resources.channel = some channel →
            system.wrapper.resources.channel = some channel ∨
              ∃ (run : ℕ) (current : InitializerRun) (reaction : WrapperEvent),
                event = .wrapper reaction ∧
                  AmqpConnectionWrapper.ResumesWithChannel reaction run ∧
                  system.wrapper.runs[run]? = some current ∧
                    current.connection.isDisposed = false) ∧
        ∀ (run : ℕ) (current : InitializerRun),
          system.wrapper.runs[run]? = some current →
            (current.connection.isDisposed = true →
                current.connection.handlesChannels = false) ∧
              (∀ command ∈ system.channelCommands, command.connection = run →
                ∀ channel, .invoked channel ∈ command.call.history →
                  current.connection.amqplibConnection =
                    some channel.connection) ∧
              ∀ (other : ℕ) (another : InitializerRun) (connection : ℕ),
                system.wrapper.runs[other]? = some another → other ≠ run →
                  current.connection.amqplibConnection = some connection →
                    another.connection.amqplibConnection ≠ some connection := by
  obtain ⟨orderly, _, _, _, isolated⟩ :=
    Machine.reachable_invariant separated_create (separated_preserved config)
      reachable
  refine ⟨?_, ?_, ?_⟩
  · intro channel holds
    obtain ⟨run, current, found, uses⟩ := orderly.custody.owner channel holds
    have record := orderly.custody.records run current found
    exact
      ⟨run, current, found, orderly.custody.last found (Or.inl uses.listens),
        (record.listens uses.listens).1, uses.owns⟩
  · intro event next channel stepped holds
    exact stored_of_step orderly (step_of_eventLoop stepped).2 holds
  · intro run current found
    refine ⟨?_, ?_, ?_⟩
    · intro disposed
      by_contra listens
      rw [Bool.not_eq_false] at listens
      have record := orderly.custody.records run current found
      cases disposed.symm.trans (record.listens listens).1
    · intro command member same channel invoked
      obtain ⟨owner, there, owns⟩ := isolated.invoked command member channel invoked
      rw [same] at there
      cases found.symm.trans there
      exact owns
    · intro other another connection atOther different owned owns
      exact
        different
          (orderly.custody.distinct other run another current connection atOther
            found owns owned)

/-- The first connection is lost while it recreates its channel and a command waits
for one.  Its channel is created after the next connection has its own. -/
def lostWhileRecreating : List SystemEvent :=
  connected ++
    [.execute true, .wrapper (.channelLost 0), .command 0 .continued,
      .wrapper (.connectionLost 0),
      .command 0 (.commandSettled (.rejected .connectionClosed)),
      .command 0 .caught, .wrapper .oldConnectionDisposed,
      .wrapper (.initializer 1 .started),
      .wrapper (.initializer 1 (.connectionSettled .fulfilled)),
      .wrapper (.initializer 1 (.channelSettled .fulfilled)),
      .wrapper (.channelRecreationSettled 0 .fulfilled)]

theorem connections_isolated_lostWhileRecreating :
    ∃ system command,
      (eventLoop defaultConfig).run create lostWhileRecreating = some system ∧
        command ∈ system.channelCommands ∧ command.connection = 0 ∧
        (∀ (channel : ConfirmChannel),
          system.wrapper.resources.channel = some channel →
            ∃ (run : ℕ) (current : InitializerRun),
              system.wrapper.runs[run]? = some current ∧
                system.wrapper.IsLast run ∧
                current.connection.isDisposed = false ∧
                current.connection.amqplibConnection = some channel.connection) :=
  ⟨_, _, rfl, List.mem_cons_self, rfl,
    (connections_isolated defaultConfig _ ⟨lostWhileRecreating, rfl⟩).1⟩

end AmqpSystem

end Amq.Core
