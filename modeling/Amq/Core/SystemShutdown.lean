import Amq.Core.SystemSteps

/-!
# The end of a wrapper

A wrapper that has been disposed of has cancelled its commands and emits no further
event, with one exception each: `connect` that fails disposes of the wrapper without
cancelling them, and `reconnect` takes a run that `dispose` has cancelled for a
success.
-/

namespace Amq.Core

open Amq.Transition

/-! ## States of the wrapper -/

namespace AmqpConnectionWrapper

variable {wrapper next : AmqpConnectionWrapper} {maxAttempts : JsNumber}
  {event : WrapperEvent} {effects : List WrapperEffect}

/-- How a step changes the state of the wrapper. -/
inductive StateMoves
    (wrapper : AmqpConnectionWrapper) (event : WrapperEvent)
    (effects : List WrapperEffect) (next : AmqpConnectionWrapper) : Prop where
  | same (state : next.state = wrapper.state) (quiet : .cancelCommands ∉ effects)
  | connected (before : wrapper.state = .ready) (state : next.state = .connected)
  | disposed (before : wrapper.state = .connected) (state : next.state = .disposed)
      (cancelling : .cancelCommands ∈ effects)
      (cause : event = .disposeCalled ∨ event = .reconnectResumed)
  | refused (run : ℕ) (error : InitializerError)
      (same : event = .connectResumed) (connecting : wrapper.Connecting run)
      (rejected : wrapper.settledResult run = some (.rejected error))
      (state : next.state = .disposed) (quiet : .cancelCommands ∉ effects)

theorem Local.quiet (isLocal : Local effects) : .cancelCommands ∉ effects := by
  intro member
  obtain ⟨run, impossible⟩ := isLocal _ member
  cases impossible

theorem Moves.stateMoves
    (moves : Moves maxAttempts wrapper event effects next) :
    wrapper.StateMoves event effects next := by
  cases moves with
  | ignored served => exact .same rfl nofun
  | connects unused => exact .connected unused.state rfl
  | disposes state container pending =>
      exact .disposed state rfl List.mem_cons_self (Or.inl rfl)
  | disposesOnline online disposal =>
      exact .disposed online.state disposal.cases.1.state List.mem_cons_self
        (Or.inl rfl)
  | initializes found steps =>
      rcases initializerEffects_cases found steps with none | ⟨channel, one, _⟩
      · rw [none]
        exact .same rfl nofun
      · rw [one]
        exact .same rfl (by simp)
  | @connectFails run error connecting rejected =>
      exact .refused run error rfl connecting rejected rfl nofun
  | connectSucceeds connecting last promise handedOut =>
      exact .same rfl (by simp)
  | connectEnds disposed connecting => exact .same rfl nofun
  | connectRollsBack disposed connecting disposal =>
      exact .same disposal.cases.1.state disposal.isLocal.quiet
  | replaces mode connecting reconnecting retired => exact .same rfl nofun
  | reconnectFails reconnecting =>
      exact .disposed reconnecting.state rfl
        (List.mem_cons_of_mem _ List.mem_cons_self) (Or.inr rfl)
  | reconnectSucceeds reconnecting last promise handedOut =>
      exact .same rfl (by simp)
  | reconnectEnds disposed reconnecting => exact .same rfl nofun
  | reconnectCancelled disposed reconnecting cancelled =>
      exact .same rfl (by simp)
  | reconnectRollsBack disposed reconnecting disposal =>
      exact .same disposal.cases.1.state disposal.isLocal.quiet
  | reconnectFinishes disposed reconnecting => exact .same rfl nofun
  | loses online lost disposal =>
      exact .same disposal.cases.1.state disposal.isLocal.quiet
  | drops elsewhere lost served disposal =>
      exact .same disposal.cases.1.state disposal.isLocal.quiet
  | losesChannel found listens =>
      rw [withConnection_of_found _ found]
      exact .same rfl nofun
  | recreatesChannel found active recreating announced =>
      rw [withConnection_of_found _ found]
      rcases announced with rfl | ⟨rfl, _⟩
      · exact .same rfl (by simp)
      · exact .same rfl (by simp)
  | dropsChannel found disposed opened channel => exact .same rfl nofun

/-- What a disposed wrapper still emits. -/
theorem Moves.emitted_of_disposed
    {emission : WrapperEmission}
    (moves : Moves maxAttempts wrapper event effects next)
    (emitted : .emitted emission ∈ effects) (disposed : wrapper.state = .disposed) :
    event = .reconnectResumed ∧
      ∃ run, wrapper.reconnecting = some (.awaiting run) ∧
        wrapper.settledResult run = some .cancelled := by
  have noisy (isLocal : Local effects) : False := by
    obtain ⟨run, impossible⟩ := isLocal _ emitted
    cases impossible
  cases moves with
  | reconnectCancelled disposed reconnecting cancelled =>
      exact ⟨rfl, _, reconnecting, cancelled⟩
  | disposes state container pending => cases state.symm.trans disposed
  | disposesOnline online disposal => cases online.state.symm.trans disposed
  | initializes found steps =>
      rcases initializerEffects_cases found steps with none | ⟨channel, one, _⟩
      · rw [none] at emitted
        cases emitted
      · rw [one] at emitted
        cases List.mem_singleton.mp emitted
  | connectSucceeds connecting last promise handedOut =>
      cases connecting.state.symm.trans disposed
  | reconnectFails reconnecting => cases reconnecting.state.symm.trans disposed
  | reconnectSucceeds reconnecting last promise handedOut =>
      cases reconnecting.state.symm.trans disposed
  | recreatesChannel found active recreating announced =>
      rcases announced with rfl | ⟨_, online⟩
      · simp at emitted
      · cases online.state.symm.trans disposed
  | connectRollsBack disposed connecting disposal =>
      exact (noisy disposal.isLocal).elim
  | reconnectRollsBack disposed reconnecting disposal =>
      exact (noisy disposal.isLocal).elim
  | loses online lost disposal => exact (noisy disposal.isLocal).elim
  | drops elsewhere lost served disposal => exact (noisy disposal.isLocal).elim
  | ignored served => cases emitted
  | connects unused => cases emitted
  | connectFails connecting rejected => cases emitted
  | connectEnds disposed connecting => cases emitted
  | replaces mode connecting reconnecting retired => cases emitted
  | reconnectEnds disposed reconnecting => cases emitted
  | reconnectFinishes disposed reconnecting => cases emitted
  | losesChannel found listens => cases emitted
  | dropsChannel found disposed opened channel => cases emitted

end AmqpConnectionWrapper

namespace AmqpSystem

variable {config : AmqpSystemConfig} {system next : AmqpSystem}
  {event : SystemEvent}

/-! ## Events of a disposed wrapper -/

/-- None of the events was emitted by a disposed wrapper. -/
def IsSilent (system : AmqpSystem) : Prop :=
  ∀ entry ∈ system.emitted, entry.1 ≠ .disposed

/-- `reconnect` is about to see that its run has resolved with `null`. -/
def reconnectsDisposed (system : AmqpSystem) : SystemEvent → Bool
  | .wrapper .reconnectResumed =>
      match system.wrapper.reconnecting with
      | some (.awaiting run) =>
          system.wrapper.state == .disposed &&
            system.wrapper.settledResult run == some .cancelled
      | _ => false
  | _ => false

/-- The step does not end a `reconnect` of a disposed wrapper by a run that has
been cancelled. -/
def EndsQuietly (system : AmqpSystem) (event : SystemEvent) : Prop :=
  system.reconnectsDisposed event = false

instance (system : AmqpSystem) (event : SystemEvent) :
    Decidable (system.EndsQuietly event) :=
  inferInstanceAs (Decidable (_ = _))

theorem reconnectsDisposed_iff :
    system.reconnectsDisposed event = true ↔
      event = .wrapper .reconnectResumed ∧ system.wrapper.state = .disposed ∧
        ∃ run, system.wrapper.reconnecting = some (.awaiting run) ∧
          system.wrapper.settledResult run = some .cancelled := by
  constructor
  · intro decided
    unfold reconnectsDisposed at decided
    split at decided
    case h_1 =>
      split at decided
      case h_1 run reconnecting =>
        rw [Bool.and_eq_true, beq_iff_eq, beq_iff_eq] at decided
        exact ⟨rfl, decided.1, run, reconnecting, decided.2⟩
      case h_2 => cases decided
    case h_2 => cases decided
  · rintro ⟨rfl, disposed, run, reconnecting, cancelled⟩
    unfold reconnectsDisposed
    rw [reconnecting, disposed]
    dsimp only
    rw [cancelled]
    rfl

/-- What is new among the emitted events was emitted in the state before the
step. -/
theorem silent_step_iff
    (orderly : system.wrapper.Orderly)
    (steps : Steps config system event next) (silent : system.IsSilent) :
    next.IsSilent ↔ system.EndsQuietly event := by
  cases steps.wrapper with
  | rests call wrapper cancelled emitted =>
      have quiet : system.EndsQuietly event := by
        apply Bool.eq_false_iff.mpr
        intro decided
        exact call _ (reconnectsDisposed_iff.mp decided).1
      unfold IsSilent
      rw [emitted]
      exact ⟨fun _ => quiet, fun _ => silent⟩
  | reacts reaction cause stepped cancelled emitted =>
      have moves := orderly.moves_of_step _ stepped
      constructor
      · intro still
        apply Bool.eq_false_iff.mpr
        intro decided
        obtain ⟨same, disposed, run, reconnecting, settled⟩ :=
          reconnectsDisposed_iff.mp decided
        have reconnects : reaction = .reconnectResumed := by
          rcases cause with resumed | ⟨call, _⟩
          · cases same.symm.trans resumed
            rfl
          · exact absurd same (call _)
        subst reconnects
        have effects :
            system.wrapper.effects .reconnectResumed =
              [.resumeCommands, .emitted .reconnected] := by
          simp only [AmqpConnectionWrapper.effects, reconnecting, settled,
            Option.elim_some]
          rfl
        rw [effects] at emitted
        apply still (system.wrapper.state, .reconnected)
        · rw [emitted]
          exact List.mem_cons_self
        · exact disposed
      · intro quiet entry member
        rw [emitted] at member
        rcases List.mem_append.mp member with new | before
        · obtain ⟨emission, listed, rfl⟩ := List.mem_map.mp new
          obtain ⟨effect, among, same⟩ := List.mem_filterMap.mp listed
          intro disposed
          have announces : .emitted emission ∈ system.wrapper.effects reaction := by
            cases effect with
            | emitted other =>
                cases same
                exact among
            | _ => cases same
          obtain ⟨rfl, run, reconnecting, settled⟩ :=
            moves.emitted_of_disposed announces disposed
          have resumed : event = .wrapper .reconnectResumed := by
            rcases cause with resumed | ⟨_, other | ⟨_, other | other⟩⟩
            · exact resumed
            · cases other
            · cases other
            · cases other
          have loud : system.reconnectsDisposed event = true :=
            reconnectsDisposed_iff.mpr
              ⟨resumed, disposed, run, reconnecting, settled⟩
          cases quiet.symm.trans loud
        · exact silent entry before

theorem silent_of_next
    (steps : Steps config system event next) (silent : next.IsSilent) :
    system.IsSilent := by
  intro entry member
  apply silent entry
  cases steps.wrapper with
  | rests call wrapper cancelled emitted =>
      rw [emitted]
      exact member
  | reacts reaction cause stepped cancelled emitted =>
      rw [emitted]
      exact List.mem_append_right _ member

/-- A wrapper emits none of its events once it is disposed of, in exactly the runs
in which no `reconnect` of a disposed wrapper ends by a cancelled run of the
initializer: `reconnect` takes the `null` of that run for a connection. -/
theorem silent_iff
    (config : AmqpSystemConfig) (schedule : List SystemEvent)
    (system : AmqpSystem)
    (execution : (machine config).run create schedule = some system) :
    system.IsSilent ↔ (machine config).Throughout EndsQuietly create schedule :=
  Machine.sound_iff_throughout IsSilent EndsQuietly (orderly_preserved config)
    (fun _ _ _ _ stepped silent => silent_of_next (steps_of_step stepped) silent)
    (fun _ _ _ orderly silent stepped =>
      silent_step_iff orderly (steps_of_step stepped) silent)
    orderly_create nofun execution

/-- The wrapper is disposed of after `reconnect` has got a new connection, which it
disposes of. -/
def disposedAfterReconnecting : List SystemEvent :=
  connected ++
    [.wrapper (.connectionLost 0), .wrapper .oldConnectionDisposed,
      .wrapper (.initializer 1 .started),
      .wrapper (.initializer 1 (.connectionSettled .fulfilled)),
      .wrapper (.initializer 1 (.channelSettled .fulfilled)),
      .wrapper (.initializer 1 .resumed), .wrapper .disposeCalled,
      .wrapper (.initializer 1 .finished), .wrapper .reconnectResumed,
      .wrapper .reconnectFinished]

theorem silent_iff_rolledBack :
    ∃ system,
      (machine defaultConfig).run create disposedAfterReconnecting =
          some system ∧
        system.wrapper.state = .disposed ∧
        (system.IsSilent ↔
          (machine defaultConfig).Throughout EndsQuietly create
            disposedAfterReconnecting) ∧
        system.IsSilent := by
  have decided :=
    silent_iff defaultConfig disposedAfterReconnecting _ rfl
  exact ⟨_, rfl, rfl, decided, decided.mpr (by decide)⟩

/-- The wrapper is disposed of while `reconnect` waits for the server. -/
def disposedWhileReconnecting : List SystemEvent :=
  connected ++
    [.wrapper (.connectionLost 0), .wrapper .oldConnectionDisposed,
      .wrapper (.initializer 1 .started), .wrapper .disposeCalled,
      .wrapper (.initializer 1 (.connectionSettled .rejected)),
      .wrapper (.initializer 1 .resumed), .wrapper (.initializer 1 .finished),
      .wrapper .reconnectResumed]

theorem disposedWhileReconnecting_reconnected :
    ¬ ∀ (config : AmqpSystemConfig) (schedule : List SystemEvent)
        (system : AmqpSystem),
        (machine config).run create schedule = some system →
        system.IsSilent := by
  intro always
  have silent := always defaultConfig disposedWhileReconnecting _ rfl
  exact silent (.disposed, .reconnected) List.mem_cons_self rfl

/-! ## Commands of a disposed wrapper -/

/-- The wrapper, if it is disposed of, has no connection, its executor is cancelled,
its commands have settled, and a new one is rejected. -/
def ShutDown (config : AmqpSystemConfig) (system : AmqpSystem) : Prop :=
  system.wrapper.state = .disposed →
    system.wrapper.container = none ∧ system.wrapper.isCancelled = true ∧
      (∀ command ∈ system.commands, command.call.isSettled = true) ∧
      ∀ retryOnError,
        (ExecuteCall.execute (system.view config) retryOnError).history =
          [.settled (.rejected .connectionClosed)]

/-- The step that disposes of the wrapper rejects the pending commands. -/
def RejectsPending
    (config : AmqpSystemConfig) (system : AmqpSystem) (event : SystemEvent) :
    Prop :=
  ∀ next, (machine config).step system event = some next →
    system.wrapper.state ≠ .disposed → next.wrapper.state = .disposed →
      ∀ (index : ℕ) (command : Command), system.commands[index]? = some command →
        command.call.isSettled = false →
          ∃ later, next.commands[index]? = some later ∧
            .settled (.rejected .connectionClosed) ∈ later.call.history

/-- `connect` is about to see that the promise of its run is rejected. -/
def connectFails (system : AmqpSystem) : SystemEvent → Bool
  | .wrapper .connectResumed =>
      match system.wrapper.connecting with
      | none => false
      | some run =>
          match system.wrapper.settledResult run with
          | some (.rejected _) => system.wrapper.state != .disposed
          | _ => false
  | _ => false

/-- The step does not end a `connect` by its failure. -/
def ConnectSucceeds (system : AmqpSystem) (event : SystemEvent) : Prop :=
  system.connectFails event = false

instance (system : AmqpSystem) (event : SystemEvent) :
    Decidable (system.ConnectSucceeds event) :=
  inferInstanceAs (Decidable (_ = _))

theorem connectFails_iff :
    system.connectFails event = true ↔
      event = .wrapper .connectResumed ∧ system.wrapper.state ≠ .disposed ∧
        ∃ run error, system.wrapper.connecting = some run ∧
          system.wrapper.settledResult run = some (.rejected error) := by
  constructor
  · intro decided
    unfold connectFails at decided
    split at decided
    case h_1 =>
      split at decided
      case h_1 => cases decided
      case h_2 run connecting =>
        split at decided
        case h_1 error rejected =>
          rw [bne_iff_ne] at decided
          exact ⟨rfl, decided, run, error, connecting, rejected⟩
        case h_2 => cases decided
    case h_2 => cases decided
  · rintro ⟨rfl, active, run, error, connecting, rejected⟩
    unfold connectFails
    rw [connecting]
    dsimp only
    rw [rejected]
    exact bne_iff_ne.mpr active

/-- What a disposed wrapper lacks when its commands go on waiting is the
cancellation of its executor. -/
theorem shutDown_iff
    (config : AmqpSystemConfig) (orderly : system.wrapper.Orderly)
    (tidy : system.Tidy) :
    system.ShutDown config ↔
      (system.wrapper.state = .disposed → system.wrapper.isCancelled = true) := by
  constructor
  · intro shutDown disposed
    exact (shutDown disposed).2.1
  · intro cancels disposed
    have cancelled := cancels disposed
    refine ⟨?_, cancelled, ?_, ?_⟩
    · cases orderly.mode with
      | unused unused => exact unused.container
      | connecting run connecting => exact connecting.container
      | refused refused => exact refused.container
      | online run online => cases online.state.symm.trans disposed
      | replacing replacing => exact replacing.container
      | reconnecting run reconnecting => exact reconnecting.container
      | disposed disposed => exact disposed.container
    · intro command member
      exact (tidy.commands command member).settled cancelled
    · intro retryOnError
      unfold ExecuteCall.execute
      rw [view_cancellation config cancelled]

/-- A step that is not that of a failing `connect` cancels the executor when it
disposes of the wrapper. -/
theorem cancelled_of_disposed
    (orderly : system.wrapper.Orderly) (steps : Steps config system event next)
    (sound :
      system.wrapper.state = .disposed → system.wrapper.isCancelled = true)
    (succeeds : system.ConnectSucceeds event)
    (disposed : next.wrapper.state = .disposed) :
    next.wrapper.isCancelled = true := by
  cases steps.wrapper with
  | rests call wrapper cancelled emitted =>
      rw [wrapper] at disposed ⊢
      exact sound disposed
  | reacts reaction cause stepped cancelled emitted =>
      have moves := orderly.moves_of_step _ stepped
      have control := moves.controlStep
      cases moves.stateMoves with
      | same state quiet =>
          exact control.cancelled.mpr (Or.inl (sound (state.symm.trans disposed)))
      | connected before state => cases state.symm.trans disposed
      | disposed before state cancelling _ =>
          exact control.cancelled.mpr (Or.inr cancelling)
      | refused run error same connecting rejected state quiet =>
          subst same
          have resumed : event = .wrapper .connectResumed := by
            rcases cause with resumed | ⟨_, other | ⟨_, other | other⟩⟩
            · exact resumed
            · cases other
            · cases other
            · cases other
          have fails : system.connectFails event = true := by
            refine connectFails_iff.mpr
              ⟨resumed, ?_, run, error, connecting.connecting, rejected⟩
            rw [connecting.state]
            exact nofun
          cases succeeds.symm.trans fails

/-- After a `connect` that has failed the executor stays as it is. -/
theorem uncancelled_of_failed
    (orderly : system.wrapper.Orderly) (steps : Steps config system event next)
    (fails : system.connectFails event = true) :
    next.wrapper.state = .disposed ∧ next.wrapper.isCancelled = false := by
  obtain ⟨rfl, active, run, error, connecting, rejected⟩ :=
    connectFails_iff.mp fails
  cases steps with
  | followed permitted stepped =>
      have waiting : system.wrapper.Connecting run := by
        rcases orderly.connecting_or_disposed connecting with waiting | disposed
        · exact waiting
        · exact absurd disposed.state active
      simp only [AmqpConnectionWrapper.step, connecting, rejected,
        Option.map_some] at stepped
      cases stepped
      exact ⟨rfl, waiting.isCancelled⟩

/-- A wrapper that is disposed of with an uncancelled executor stays so. -/
theorem sound_of_next
    (orderly : system.wrapper.Orderly) (steps : Steps config system event next)
    (sound : next.wrapper.state = .disposed → next.wrapper.isCancelled = true)
    (disposed : system.wrapper.state = .disposed) :
    system.wrapper.isCancelled = true := by
  cases steps.wrapper with
  | rests call wrapper cancelled emitted =>
      rw [wrapper] at sound
      exact sound disposed
  | reacts reaction cause stepped cancelled emitted =>
      have moves := orderly.moves_of_step _ stepped
      cases moves.stateMoves with
      | same state quiet =>
          have now := sound (state.trans disposed)
          rcases moves.controlStep.cancelled.mp now with before | cancelling
          · exact before
          · exact absurd cancelling quiet
      | connected before state => cases before.symm.trans disposed
      | disposed before state cancelling _ => cases before.symm.trans disposed
      | refused run error same connecting rejected state quiet =>
          cases connecting.state.symm.trans disposed

/-- What a call emits never disposes of the wrapper. -/
theorem state_of_heard
    {reaction : WrapperEvent} {wrapper : AmqpConnectionWrapper}
    (orderly : system.wrapper.Orderly)
    (stepped :
      system.wrapper.step config.maxConnectionAttempts reaction = some wrapper)
    (heard :
      reaction = .connectionBecameUnavailable ∨
        ∃ connection, reaction = .channelLost connection ∨
          reaction = .connectionLost connection)
    (disposed : wrapper.state = .disposed) :
    system.wrapper.state = .disposed := by
  cases (orderly.moves_of_step _ stepped).stateMoves with
  | same state quiet => exact state.symm.trans disposed
  | connected before state => cases state.symm.trans disposed
  | disposed before state cancelling cause =>
      rcases cause with rfl | rfl
      · rcases heard with other | ⟨_, other | other⟩
        all_goals cases other
      · rcases heard with other | ⟨_, other | other⟩
        all_goals cases other
  | refused run error same connecting rejected state quiet =>
      subst same
      rcases heard with other | ⟨_, other | other⟩
      all_goals cases other

/-- `cancelAll` rejects the commands that have not settled. -/
theorem rejectsPending_of_succeeds
    (orderly : system.wrapper.Orderly) (tidy : system.Tidy)
    (succeeds : system.ConnectSucceeds event) :
    system.RejectsPending config event := by
  intro next stepped active disposed index command found pending
  have steps := steps_of_step stepped
  have cancelled : next.wrapper.isCancelled = true :=
    cancelled_of_disposed orderly steps (fun before => absurd before active)
      succeeds disposed
  cases steps with
  | @followed reaction wrapper permitted taken =>
      have moves := orderly.moves_of_step _ taken
      have cancelling : .cancelCommands ∈ system.wrapper.effects reaction := by
        cases moves.stateMoves with
        | same state quiet => exact absurd (state.symm.trans disposed) active
        | connected before state => cases state.symm.trans disposed
        | disposed before state cancelling cause => exact cancelling
        | refused run error same connecting rejected state quiet =>
            rcases moves.controlStep.cancelled.mp cancelled with before | now
            · cases connecting.isCancelled.symm.trans before
            · exact now
      have reaction :=
        ExecuteCall.reaction_reactAll command.call
          ((system.wrapper.effects reaction).filterMap WrapperEffect.onCommands)
      have settled :=
        (tidy.commands command (List.mem_of_getElem? found)).proper.settled_of_cancelled
          reaction (WrapperEffect.cancelled_mem_onCommands.mpr cancelling)
      obtain ⟨result, member⟩ := (ExecuteCall.isSettled_iff _).mp settled
      refine ⟨_, after_commands wrapper found, ?_⟩
      rcases reaction.entries _ member with before | ⟨_, same, _⟩
      · have early :=
          (ExecuteCall.isSettled_iff command.call).mpr ⟨result, before⟩
        cases pending.symm.trans early
      · rw [same] at member
        exact member
  | executed retryOnError => exact absurd disposed active
  | invoked _ received _ => exact absurd disposed active
  | commandMoved _ moved settled uninvoked unheard => exact absurd disposed active
  | commandHeard _ caught emission taken =>
      exact absurd (state_of_heard orderly taken (Or.inl rfl) disposed) active
  | channelCommandMoved _ moved settled unheard => exact absurd disposed active
  | @channelCommandHeard _ other _ reaction _ _ caught listens cause taken =>
      refine
        absurd
          (state_of_heard orderly taken (Or.inr ⟨other.connection, ?_⟩) disposed)
          active
      rcases cause with ⟨_, lost⟩ | ⟨_, lost⟩
      · exact Or.inl lost
      · exact Or.inr lost

/-- Conditions that hold along a run under an invariant. -/
theorem rejectsPending_throughout
    {schedule : List SystemEvent}
    (orderly : system.wrapper.Orderly) (tidy : system.Tidy)
    (succeeds : (machine config).Throughout ConnectSucceeds system schedule) :
    (machine config).Throughout (RejectsPending config) system schedule := by
  induction schedule generalizing system with
  | nil => trivial
  | cons event rest inductionHypothesis =>
      refine ⟨rejectsPending_of_succeeds orderly tidy succeeds.1, ?_⟩
      intro next stepped
      obtain ⟨orderlyNext, tidyNext⟩ :=
        tidy_preserved config system event next ⟨orderly, tidy⟩ stepped
      exact inductionHypothesis orderlyNext tidyNext (succeeds.2 next stepped)

/-- A disposed wrapper is shut down, and has rejected what was pending, in exactly
the runs in which `connect` does not fail: it sets the state and leaves the executor
alone. -/
theorem shutDown_iff_connectSucceeds
    (config : AmqpSystemConfig) (schedule : List SystemEvent)
    (system : AmqpSystem)
    (execution : (machine config).run create schedule = some system) :
    (system.ShutDown config ∧
        (machine config).Throughout (RejectsPending config) create schedule) ↔
      (machine config).Throughout ConnectSucceeds create schedule := by
  have initially : create.wrapper.Orderly ∧ create.Tidy :=
    ⟨orderly_create, tidy_create⟩
  obtain ⟨orderly, tidy⟩ :=
    Machine.run_invariant (tidy_preserved config) initially execution
  have decided :
      (system.wrapper.state = .disposed → system.wrapper.isCancelled = true) ↔
        (machine config).Throughout ConnectSucceeds create schedule := by
    apply Machine.sound_iff_throughout
      (fun system : AmqpSystem =>
        system.wrapper.state = .disposed → system.wrapper.isCancelled = true)
      ConnectSucceeds (orderly_preserved config)
    · intro state event next orderly stepped sound
      exact sound_of_next orderly (steps_of_step stepped) sound
    · intro state event next orderly sound stepped
      have steps := steps_of_step stepped
      constructor
      · intro still
        apply Bool.eq_false_iff.mpr
        intro fails
        obtain ⟨disposed, uncancelled⟩ := uncancelled_of_failed orderly steps fails
        cases uncancelled.symm.trans (still disposed)
      · intro succeeds disposed
        exact cancelled_of_disposed orderly steps sound succeeds disposed
    · exact orderly_create
    · exact nofun
    · exact execution
  rw [shutDown_iff config orderly tidy, decided]
  exact
    ⟨And.left,
      fun succeeds =>
        ⟨succeeds, rejectsPending_throughout orderly_create tidy_create succeeds⟩⟩

/-- A command waits for the connection, and the wrapper is disposed of while
`connect` runs. -/
def disposedWhileConnecting : List SystemEvent :=
  [.wrapper .connectCalled, .execute true, .wrapper (.initializer 0 .started),
    .wrapper .disposeCalled, .execute true,
    .wrapper (.initializer 0 (.connectionSettled .rejected)),
    .wrapper (.initializer 0 .resumed), .wrapper (.initializer 0 .finished),
    .wrapper .connectResumed]

theorem shutDown_iff_whileConnecting :
    ∃ system,
      (machine defaultConfig).run create disposedWhileConnecting = some system ∧
        system.wrapper.state = .disposed ∧
        system.ShutDown defaultConfig ∧
        (machine defaultConfig).Throughout (RejectsPending defaultConfig) create
          disposedWhileConnecting := by
  have decided :=
    shutDown_iff_connectSucceeds defaultConfig disposedWhileConnecting _ rfl
  exact ⟨_, rfl, rfl, decided.mpr (by decide)⟩

def singleAttempt : AmqpSystemConfig where
  maxConnectionAttempts := .ofNat 1
  commandTimeoutMs := .ofNat 30000

/-- A command waits for the connection, and the only attempt to connect fails. -/
def refusedConnection : List SystemEvent :=
  [.wrapper .connectCalled, .execute true, .wrapper (.initializer 0 .started),
    .wrapper (.initializer 0 (.connectionSettled .rejected)),
    .wrapper (.initializer 0 .resumed), .wrapper (.initializer 0 .finished),
    .wrapper .connectResumed]

theorem refusedConnection_pending :
    ¬ ∀ (config : AmqpSystemConfig) (schedule : List SystemEvent)
        (system : AmqpSystem),
        (machine config).run create schedule = some system →
        system.ShutDown config := by
  intro always
  have shutDown := always singleAttempt refusedConnection _ rfl
  exact Bool.false_ne_true (shutDown rfl).2.1

end AmqpSystem

end Amq.Core
