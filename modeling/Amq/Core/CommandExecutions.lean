import Amq.Core.RepeatedInvocations
import Amq.Core.SystemCalls
import Amq.Transition.Monitor

/-!
# How often amqplib executes a command

A command of the wrapper makes calls of channel executors, one after another, and
these pass it to amqplib.  A record beside the system tells which command each
of these calls belongs to.  Every repetition is accounted for by a loss that was
announced for this very command, and a command that is fulfilled has been
executed.
-/

namespace Amq.Core

open Amq.Transition

namespace AmqpSystem

variable {config : AmqpSystemConfig} {system next : AmqpSystem}

/-- The command of each call of a channel executor, in the order of the calls. -/
def recordOwner (owners : List ℕ) (system : AmqpSystem) :
    SystemEvent → List ℕ
  | .command index .continued =>
      match system.commands[index]? with
      | none => owners
      | some command =>
          match command.call.phase with
          | .received _ =>
              if system.wrapper.isCancelled then owners else owners ++ [index]
          | _ => owners
  | _ => owners

/-- The system with the commands that its channel calls belong to. -/
def ownedMachine (config : AmqpSystemConfig) :
    Machine (AmqpSystem × List ℕ) SystemEvent :=
  (machine config).watched recordOwner []

/-- The channel calls of one command. -/
def callsOf (system : AmqpSystem) (owners : List ℕ) (index : ℕ) :
    List ChannelCommand :=
  ((system.channelCommands.zip owners).filter (·.2 = index)).map Prod.fst

/-- How often amqplib has been asked to execute the command. -/
def executions (system : AmqpSystem) (owners : List ℕ) (index : ℕ) : ℕ :=
  ((system.callsOf owners index).map (·.call.invocations)).sum

/-- How often a loss has been announced on behalf of the command, of a
connection or of a channel. -/
def announcedLosses (system : AmqpSystem) (owners : List ℕ) (index : ℕ) : ℕ :=
  ((system.commands[index]?).elim 0 (·.call.losses)) +
    ((system.callsOf owners index).map (·.call.losses)).sum

/-- What is known of the commands and of their channel calls. -/
structure Owned (system : AmqpSystem) (owners : List ℕ) : Prop where
  length : owners.length = system.channelCommands.length
  known : ∀ owner ∈ owners, owner < system.commands.length
  counted :
    ∀ (index : ℕ) (command : Command), system.commands[index]? = some command →
      owners.count index = command.call.invocations
  commands : ∀ command ∈ system.commands, command.call.Repeats
  channelCommands : ∀ made ∈ system.channelCommands, made.call.Repeats
  retryOnError :
    ∀ (place index : ℕ) (made : ChannelCommand) (command : Command),
      system.channelCommands[place]? = some made → owners[place]? = some index →
        system.commands[index]? = some command →
          made.call.retryOnError = command.call.retryOnError
  running :
    ∀ (index : ℕ) (command : Command) (connection : ℕ),
      system.commands[index]? = some command →
        command.call.phase = .running connection →
          owners[command.channelCommand]? = some index
  fulfilled :
    ∀ (index : ℕ) (command : Command), system.commands[index]? = some command →
      .settled .fulfilled ∈ command.call.history →
        ∃ (place : ℕ) (made : ChannelCommand),
          system.channelCommands[place]? = some made ∧
            owners[place]? = some index ∧
              .settled .fulfilled ∈ made.call.history

theorem owned_create : create.Owned [] where
  length := rfl
  known := by simp
  counted index command present := by cases present
  commands := by simp [create]
  channelCommands := by simp [create]
  retryOnError place index made command present := by cases present
  running index command connection present := by cases present
  fulfilled index command present := by cases present

/-- A command that makes no call of a channel executor. -/
structure CommandStays
    (system : AmqpSystem) (command command' : Command) : Prop where
  retryOnError : command'.call.retryOnError = command.call.retryOnError
  invocations : command'.call.invocations = command.call.invocations
  channelCommand : command'.channelCommand = command.channelCommand
  repeats : command.call.Repeats → command'.call.Repeats
  running :
    ∀ connection, command'.call.phase = .running connection →
      command.call.phase = .running connection
  fulfilled :
    .settled .fulfilled ∈ command'.call.history →
      .settled .fulfilled ∈ command.call.history ∨
        ((∃ connection, command.call.phase = .running connection) ∧
          system.settledWith command.channelCommand .fulfilled = true)

structure ChannelCommandStays (made made' : ChannelCommand) : Prop where
  retryOnError : made'.call.retryOnError = made.call.retryOnError
  repeats : made.call.Repeats → made'.call.Repeats
  grown : ∀ entry ∈ made.call.history, entry ∈ made'.call.history

/-- Every call stays where it is. -/
structure CallsStay (system next : AmqpSystem) : Prop where
  length : next.commands.length = system.commands.length
  channelLength :
    next.channelCommands.length = system.channelCommands.length
  commands :
    ∀ (index : ℕ) (command : Command), system.commands[index]? = some command →
      ∃ command', next.commands[index]? = some command' ∧
        CommandStays system command command'
  channelCommands :
    ∀ (place : ℕ) (made : ChannelCommand),
      system.channelCommands[place]? = some made →
        ∃ made', next.channelCommands[place]? = some made' ∧
          ChannelCommandStays made made'

section Earlier

variable {α : Type} {items later : List α} {place : ℕ} {item : α}

/-- The record in a list of the same length from before. -/
theorem exists_earlier
    (sameLength : later.length = items.length)
    (present : later[place]? = some item) :
    ∃ earlier, items[place]? = some earlier := by
  have inside : place < items.length := by
    rw [← sameLength]
    exact (List.getElem?_eq_some_iff.mp present).1
  exact ⟨_, List.getElem?_eq_getElem inside⟩

end Earlier

theorem CallsStay.command
    (stay : CallsStay system next) {index : ℕ} {command' : Command}
    (present : next.commands[index]? = some command') :
    ∃ command, system.commands[index]? = some command ∧
      CommandStays system command command' := by
  obtain ⟨command, earlier⟩ := exists_earlier stay.length present
  obtain ⟨other, placed, stays⟩ := stay.commands index command earlier
  cases present.symm.trans placed
  exact ⟨command, earlier, stays⟩

theorem CallsStay.channelCommand
    (stay : CallsStay system next) {place : ℕ} {made' : ChannelCommand}
    (present : next.channelCommands[place]? = some made') :
    ∃ made, system.channelCommands[place]? = some made ∧
      ChannelCommandStays made made' := by
  obtain ⟨made, earlier⟩ := exists_earlier stay.channelLength present
  obtain ⟨other, placed, stays⟩ := stay.channelCommands place made earlier
  cases present.symm.trans placed
  exact ⟨made, earlier, stays⟩

theorem Owned.stay
    {owners : List ℕ} (owned : system.Owned owners)
    (stay : CallsStay system next) : next.Owned owners := by
  refine ⟨?_, ?_, ?_, ?_, ?_, ?_, ?_, ?_⟩
  · exact owned.length.trans stay.channelLength.symm
  · rw [stay.length]
    exact owned.known
  · intro index command' present
    obtain ⟨command, earlier, stays⟩ := stay.command present
    exact (owned.counted index command earlier).trans stays.invocations.symm
  · intro command' member
    obtain ⟨index, present⟩ := List.mem_iff_getElem?.mp member
    obtain ⟨command, earlier, stays⟩ := stay.command present
    exact stays.repeats (owned.commands command (List.mem_of_getElem? earlier))
  · intro made' member
    obtain ⟨place, present⟩ := List.mem_iff_getElem?.mp member
    obtain ⟨made, earlier, stays⟩ := stay.channelCommand present
    exact stays.repeats
      (owned.channelCommands made (List.mem_of_getElem? earlier))
  · intro place index made' command' present itsOwner placed
    obtain ⟨made, earlier, stays⟩ := stay.channelCommand present
    obtain ⟨command, before, staysToo⟩ := stay.command placed
    rw [stays.retryOnError, staysToo.retryOnError]
    exact owned.retryOnError place index made command earlier itsOwner before
  · intro index command' connection present running
    obtain ⟨command, earlier, stays⟩ := stay.command present
    rw [stays.channelCommand]
    exact owned.running index command connection earlier
      (stays.running connection running)
  · intro index command' present itsEnd
    obtain ⟨command, earlier, stays⟩ := stay.command present
    rcases stays.fulfilled itsEnd with before | ⟨⟨connection, running⟩, settled⟩
    · obtain ⟨place, made, placed, itsOwner, itsSuccess⟩ :=
        owned.fulfilled index command earlier before
      obtain ⟨made', following, staysToo⟩ :=
        stay.channelCommands place made placed
      exact ⟨place, made', following, itsOwner, staysToo.grown _ itsSuccess⟩
    · obtain ⟨made, placed, itsSuccess⟩ := (Option.any_eq_true _ _).mp settled
      have itsOwner := owned.running index command connection earlier running
      obtain ⟨made', following, staysToo⟩ :=
        stay.channelCommands command.channelCommand made placed
      refine ⟨command.channelCommand, made', following, itsOwner, ?_⟩
      exact staysToo.grown _ (of_decide_eq_true itsSuccess)

/-! ## The steps -/

theorem callsStay_after
    (system : AmqpSystem) (effects : List WrapperEffect)
    (wrapper : AmqpConnectionWrapper) :
    CallsStay system (system.after effects wrapper) := by
  refine ⟨List.length_map _, List.length_map _, ?_, ?_⟩
  · intro index command present
    obtain ⟨quiet, fulfilled⟩ :=
      ExecuteCall.quiet_reactAll command.call
        (effects.filterMap WrapperEffect.onCommands)
    refine ⟨_, after_commands wrapper present, ?_⟩
    exact
      { retryOnError := quiet.retryOnError
        invocations := quiet.invocations
        channelCommand := rfl
        repeats := fun repeats =>
          repeats.quiet quiet fun member => Or.inl (fulfilled member)
        running := quiet.running
        fulfilled := fun member => Or.inl (fulfilled member) }
  · intro place made present
    obtain ⟨quiet, fulfilled⟩ :=
      ExecuteCall.quiet_reactAll made.call
        (effects.filterMap (WrapperEffect.onChannelCommands made.connection))
    refine ⟨_, after_channelCommands wrapper present, ?_⟩
    exact
      { retryOnError := quiet.retryOnError
        repeats := fun repeats =>
          repeats.quiet quiet fun member => Or.inl (fulfilled member)
        grown := quiet.grown }

theorem commandStays_refl (system : AmqpSystem) (command : Command) :
    CommandStays system command command :=
  ⟨rfl, rfl, rfl, id, fun _ => id, Or.inl⟩

theorem channelCommandStays_refl (made : ChannelCommand) :
    ChannelCommandStays made made :=
  ⟨rfl, id, fun _ => id⟩

/-- A step of a command that does not invoke it. -/
theorem commandStays_of_step
    {command : Command} {event : CallEvent} {call : ExecuteCall ℕ}
    {view : ExecutorView ℕ}
    (stepped : command.call.step view event = some call)
    (settled :
      ∀ result, event = .commandSettled result →
        system.settledWith command.channelCommand result = true)
    (uninvoked :
      ∀ connection, event = .continued → call.phase ≠ .running connection) :
    CommandStays system command { command with call := call } := by
  have steps := ExecuteCall.steps_of_step stepped
  have accounts := steps.accounts
  refine ⟨steps.flags.1, ?_, rfl, fun repeats => repeats.accounts accounts, ?_,
    ?_⟩
  · cases accounts with
    | quiet quiet _ => exact quiet.invocations
    | invokes received => exact absurd rfl (uninvoked _ rfl)
    | pauses kind failed retry =>
        simp [ExecuteCall.invocations, CallObservation.isInvocation]
  · intro connection running
    rcases steps.running running with still | ⟨continued, _⟩
    · exact still
    · exact absurd running (uninvoked connection continued)
  · intro itsEnd
    cases accounts with
    | quiet quiet fulfilled =>
        rcases fulfilled itsEnd with earlier | ⟨success, running⟩
        · exact Or.inl earlier
        · exact Or.inr ⟨running, settled _ success⟩
    | invokes received => exact absurd rfl (uninvoked _ rfl)
    | pauses kind failed retry => exact Or.inl (by simpa using itsEnd)

theorem channelCommandStays_of_step
    {made : ChannelCommand} {event : CallEvent}
    {call : ExecuteCall ConfirmChannel} {view : ExecutorView ConfirmChannel}
    (stepped : made.call.step view event = some call) :
    ChannelCommandStays made { made with call := call } := by
  have steps := ExecuteCall.steps_of_step stepped
  exact ⟨steps.flags.1, fun repeats => repeats.accounts steps.accounts,
    steps.grown⟩

theorem callsStay_setCommand
    {index : ℕ} {command command' : Command}
    (found : system.commands[index]? = some command)
    (stays : CommandStays system command command') :
    CallsStay system (system.setCommand index command') := by
  refine ⟨List.length_set, rfl, ?_, ?_⟩
  · intro other earlier present
    by_cases same : other = index
    · subst same
      cases found.symm.trans present
      have inside := (List.getElem?_eq_some_iff.mp found).1
      exact ⟨command', List.getElem?_set_self inside, stays⟩
    · refine ⟨earlier, ?_, commandStays_refl system earlier⟩
      exact (List.getElem?_set_ne (Ne.symm same)).trans present
  · intro place made present
    exact ⟨made, present, channelCommandStays_refl made⟩

theorem callsStay_setChannelCommand
    {index : ℕ} {made made' : ChannelCommand}
    (found : system.channelCommands[index]? = some made)
    (stays : ChannelCommandStays made made') :
    CallsStay system (system.setChannelCommand index made') := by
  refine ⟨rfl, List.length_set, ?_, ?_⟩
  · intro other command present
    exact ⟨command, present, commandStays_refl system command⟩
  · intro other earlier present
    by_cases same : other = index
    · subst same
      cases found.symm.trans present
      have inside := (List.getElem?_eq_some_iff.mp found).1
      exact ⟨made', List.getElem?_set_self inside, stays⟩
    · refine ⟨earlier, ?_, channelCommandStays_refl earlier⟩
      exact (List.getElem?_set_ne (Ne.symm same)).trans present

/-- A new command has made no call yet. -/
theorem Owned.executed
    {owners : List ℕ} (owned : system.Owned owners)
    (config : AmqpSystemConfig) (retryOnError : Bool) :
    (system.execute config retryOnError).Owned owners := by
  obtain ⟨repeats, uninvoked⟩ :=
    ExecuteCall.repeats_execute (system.view config) retryOnError
  have unowned : system.commands.length ∉ owners := by
    intro member
    exact Nat.lt_irrefl _ (owned.known _ member)
  refine ⟨owned.length, ?_, ?_, ?_, owned.channelCommands, ?_, ?_, ?_⟩
  · intro owner member
    simp only [execute, List.length_append, List.length_singleton]
    exact Nat.lt_succ_of_lt (owned.known owner member)
  · apply forall_concat
      (fun index (command : Command) =>
        owners.count index = command.call.invocations)
      owned.counted
    rw [uninvoked]
    exact List.count_eq_zero.mpr unowned
  · intro command member
    rcases List.mem_append.mp member with before | new
    · exact owned.commands command before
    · rw [List.mem_singleton.mp new]
      exact repeats
  · intro place index made command present itsOwner placed
    rcases concat_cases placed with before | ⟨last, _⟩
    · exact owned.retryOnError place index made command present itsOwner before
    · rw [last] at itsOwner
      exact absurd (List.mem_of_getElem? itsOwner) unowned
  · intro index command connection placed running
    rcases concat_cases placed with before | ⟨_, itself⟩
    · exact owned.running index command connection before running
    · rw [itself] at running
      have started := repeats.running connection running
      have none := List.countP_eq_zero.mp uninvoked _ started
      simp [CallObservation.isInvocation] at none
  · intro index command placed itsEnd
    rcases concat_cases placed with before | ⟨_, itself⟩
    · exact owned.fulfilled index command before itsEnd
    · rw [itself] at itsEnd
      obtain ⟨resource, started⟩ := repeats.fulfilled itsEnd
      have none := List.countP_eq_zero.mp uninvoked _ started
      simp [CallObservation.isInvocation] at none

/-- The new channel call belongs to the command that is invoked. -/
theorem Owned.invoked
    {owners : List ℕ} (owned : system.Owned owners)
    (config : AmqpSystemConfig) {index connection : ℕ} {command : Command}
    (found : system.commands[index]? = some command)
    (received : command.call.phase = .received connection) :
    (system.invoke config index connection
        { command.call with
          phase := .running connection
          history := .invoked connection :: command.call.history }).Owned
      (owners ++ [index]) := by
  have inside := (List.getElem?_eq_some_iff.mp found).1
  have earlierOwner :
      ∀ {place owner : ℕ}, place ≠ system.channelCommands.length →
        (owners ++ [index])[place]? = some owner → owners[place]? = some owner := by
    intro place owner different itsOwner
    rcases concat_cases itsOwner with before | ⟨last, _⟩
    · exact before
    · exact absurd (last.trans owned.length) different
  have keptOwner :
      ∀ {place owner : ℕ}, owners[place]? = some owner →
        (owners ++ [index])[place]? = some owner := by
    intro place owner itsOwner
    rw [List.getElem?_append_left (List.getElem?_eq_some_iff.mp itsOwner).1]
    exact itsOwner
  refine ⟨?_, ?_, ?_, ?_, ?_, ?_, ?_, ?_⟩
  · simp only [invoke, List.length_append, List.length_singleton, owned.length]
  · intro owner member
    simp only [invoke, List.length_set]
    rcases List.mem_append.mp member with before | new
    · exact owned.known owner before
    · rw [List.mem_singleton.mp new]
      exact inside
  · intro other command' placed
    rw [List.count_append]
    rcases set_cases placed with ⟨rfl, rfl⟩ | ⟨different, before⟩
    · rw [owned.counted other command found, List.count_singleton_self]
      simp only [ExecuteCall.invocations]
      rw [List.countP_cons_of_pos rfl]
    · rw [owned.counted other command' before,
        List.count_singleton, if_neg (by simpa using Ne.symm different)]
      exact Nat.add_zero _
  · intro command' member
    rcases List.mem_or_eq_of_mem_set member with before | rfl
    · exact owned.commands command' before
    · exact (owned.commands command (List.mem_of_getElem? found)).accounts
        (.invokes received)
  · intro made member
    rcases List.mem_append.mp member with before | new
    · exact owned.channelCommands made before
    · rw [List.mem_singleton.mp new]
      exact (ExecuteCall.repeats_execute _ _).1
  · intro place owner made command' present itsOwner placed
    have sameRetry :
        ∃ earlier, system.commands[owner]? = some earlier ∧
          command'.call.retryOnError = earlier.call.retryOnError := by
      rcases set_cases placed with ⟨rfl, rfl⟩ | ⟨_, before⟩
      · exact ⟨command, found, rfl⟩
      · exact ⟨command', before, rfl⟩
    obtain ⟨earlier, before, retry⟩ := sameRetry
    rw [retry]
    rcases concat_cases present with old | ⟨last, new⟩
    · have different : place ≠ system.channelCommands.length :=
        Nat.ne_of_lt (List.getElem?_eq_some_iff.mp old).1
      exact owned.retryOnError place owner made earlier old
        (earlierOwner different itsOwner) before
    · rw [last, ← owned.length, List.getElem?_concat_length] at itsOwner
      cases itsOwner
      cases found.symm.trans before
      rw [new]
      exact ExecuteCall.execute_retryOnError _ _
  · intro other command' running placed phase
    rcases set_cases placed with ⟨rfl, rfl⟩ | ⟨_, before⟩
    · rw [← owned.length]
      exact List.getElem?_concat_length
    · exact keptOwner (owned.running other command' running before phase)
  · intro other command' placed itsEnd
    have earlierEnd :
        ∃ earlier, system.commands[other]? = some earlier ∧
          .settled .fulfilled ∈ earlier.call.history := by
      rcases set_cases placed with ⟨rfl, rfl⟩ | ⟨_, before⟩
      · exact ⟨command, found, by simpa using itsEnd⟩
      · exact ⟨command', before, itsEnd⟩
    obtain ⟨earlier, before, success⟩ := earlierEnd
    obtain ⟨place, made, present, itsOwner, itsSuccess⟩ :=
      owned.fulfilled other earlier before success
    refine ⟨place, made, ?_, keptOwner itsOwner, itsSuccess⟩
    exact (List.getElem?_append_left
      (List.getElem?_eq_some_iff.mp present).1).trans present

theorem recordOwner_of_received
    (owners : List ℕ) {index connection : ℕ} {command : Command}
    (found : system.commands[index]? = some command)
    (received : command.call.phase = .received connection)
    (active : system.wrapper.isCancelled = false) :
    recordOwner owners system (.command index .continued) = owners ++ [index] := by
  simp [recordOwner, found, received, active]

/-- Without an invocation the record stays. -/
theorem recordOwner_of_uninvoked
    (owners : List ℕ) {index : ℕ} {command : Command} {event : CallEvent}
    {call : ExecuteCall ℕ} (found : system.commands[index]? = some command)
    (stepped : command.call.step (system.view config) event = some call)
    (uninvoked :
      ∀ connection, event = .continued → call.phase ≠ .running connection) :
    recordOwner owners system (.command index event) = owners := by
  cases event with
  | continued =>
      simp only [recordOwner, found]
      split
      · rename_i connection received
        split
        · rfl
        · rename_i active
          have cancellation :=
            view_active config (Bool.eq_false_of_not_eq_true active)
          simp only [ExecuteCall.step, received, cancellation] at stepped
          cases stepped
          exact absurd rfl (uninvoked connection rfl)
      · rfl
  | _ => rfl

theorem Owned.steps
    {owners : List ℕ} {event : SystemEvent} (owned : system.Owned owners)
    (steps : Steps config system event next) :
    next.Owned (recordOwner owners system event) := by
  cases steps with
  | followed permitted stepped => exact owned.stay (callsStay_after _ _ _)
  | executed retryOnError => exact owned.executed config retryOnError
  | invoked found received active =>
      rw [recordOwner_of_received owners found received active]
      exact owned.invoked config found received
  | commandMoved found stepped settled uninvoked unheard =>
      rw [recordOwner_of_uninvoked owners found stepped uninvoked]
      exact owned.stay
        (callsStay_setCommand found
          (commandStays_of_step stepped settled uninvoked))
  | commandHeard found caught emission stepped =>
      have stays : CommandStays system _ _ :=
        commandStays_of_step caught (by simp) (by simp)
      exact (owned.stay (callsStay_setCommand found stays)).stay
        (callsStay_after _ _ _)
  | channelCommandMoved found stepped settled unheard =>
      exact owned.stay
        (callsStay_setChannelCommand found (channelCommandStays_of_step stepped))
  | channelCommandHeard found caught listens cause stepped =>
      have stays := channelCommandStays_of_step caught
      exact (owned.stay (callsStay_setChannelCommand found stays)).stay
        (callsStay_after _ _ _)

theorem owned_run
    {schedule : List SystemEvent} {state : AmqpSystem × List ℕ}
    (execution :
      (ownedMachine config).run (ownedMachine config).initial schedule =
        some state) :
    state.1.Owned state.2 := by
  have preserved :
      (ownedMachine config).Preserved
        fun state : AmqpSystem × List ℕ => state.1.Owned state.2 := by
    intro state event following owned stepped
    obtain ⟨taken, record⟩ := Machine.watched_step_iff.mp stepped
    rw [record]
    exact owned.steps (steps_of_step taken)
  exact Machine.run_invariant preserved owned_create execution

/-! ## Counting -/

theorem mem_callsOf {owners : List ℕ} {index : ℕ} {made : ChannelCommand} :
    made ∈ system.callsOf owners index ↔
      ∃ place : ℕ, system.channelCommands[place]? = some made ∧
        owners[place]? = some index := by
  unfold callsOf
  constructor
  · intro member
    obtain ⟨⟨found, owner⟩, kept, rfl⟩ := List.mem_map.mp member
    obtain ⟨paired, itsOwner⟩ := List.mem_filter.mp kept
    obtain ⟨place, placed⟩ := List.mem_iff_getElem?.mp paired
    obtain ⟨present, recorded⟩ := List.getElem?_zip_eq_some.mp placed
    rw [of_decide_eq_true itsOwner] at recorded
    exact ⟨place, present, recorded⟩
  · rintro ⟨place, present, recorded⟩
    refine List.mem_map.mpr ⟨(made, index), ?_, rfl⟩
    refine List.mem_filter.mpr ⟨?_, decide_eq_true rfl⟩
    exact List.mem_of_getElem? (List.getElem?_zip_eq_some.mpr ⟨present, recorded⟩)

/-- Each invocation of a command has made one call. -/
theorem Owned.length_callsOf
    {owners : List ℕ} (owned : system.Owned owners)
    {index : ℕ} {command : Command}
    (present : system.commands[index]? = some command) :
    (system.callsOf owners index).length = command.call.invocations := by
  have paired :
      (system.channelCommands.zip owners).map Prod.snd = owners :=
    List.map_snd_zip (le_of_eq owned.length)
  calc (system.callsOf owners index).length
      = (system.channelCommands.zip owners).countP (·.2 = index) := by
        simp only [callsOf, List.length_map, List.countP_eq_length_filter]
    _ = ((system.channelCommands.zip owners).map Prod.snd).countP (· = index) := by
        rw [List.countP_map]
        rfl
    _ = owners.count index := by
        rw [paired, List.count]
        congr
    _ = command.call.invocations := owned.counted index command present

/-- What holds of each part holds of the sums. -/
theorem sum_map_le_add_length {α : Type}
    (executed lost : α → ℕ) (items : List α)
    (each : ∀ item ∈ items, executed item ≤ lost item + 1) :
    (items.map executed).sum ≤ (items.map lost).sum + items.length := by
  induction items with
  | nil => exact Nat.le_refl 0
  | cons item items inductionHypothesis =>
      have first := each item List.mem_cons_self
      have others :=
        inductionHypothesis fun other member =>
          each other (List.mem_cons_of_mem _ member)
      simp only [List.map_cons, List.sum_cons, List.length_cons]
      omega

theorem Owned.executions_le
    {owners : List ℕ} (owned : system.Owned owners)
    {index : ℕ} {command : Command}
    (present : system.commands[index]? = some command) :
    system.executions owners index ≤ 1 + system.announcedLosses owners index := by
  have each :
      ∀ made ∈ system.callsOf owners index,
        made.call.invocations ≤ made.call.losses + 1 := by
    intro made member
    obtain ⟨place, placed, _⟩ := mem_callsOf.mp member
    exact (owned.channelCommands made (List.mem_of_getElem? placed)).invocations_le
  have within :=
    sum_map_le_add_length (fun made : ChannelCommand => made.call.invocations)
      (fun made => made.call.losses) (system.callsOf owners index) each
  rw [owned.length_callsOf present] at within
  have itself :=
    (owned.commands command (List.mem_of_getElem? present)).invocations_le
  simp only [executions, announcedLosses, present, Option.elim]
  omega

/-- A command that must not be retried announces no loss, nor do its calls. -/
theorem Owned.announcedLosses_eq_zero
    {owners : List ℕ} (owned : system.Owned owners)
    {index : ℕ} {command : Command}
    (present : system.commands[index]? = some command)
    (single : command.call.retryOnError = false) :
    system.announcedLosses owners index = 0 := by
  have itself :=
    (owned.commands command (List.mem_of_getElem? present)).once single
  have calls :
      ∀ lost ∈ (system.callsOf owners index).map (·.call.losses), lost = 0 := by
    intro lost member
    obtain ⟨made, itsCall, rfl⟩ := List.mem_map.mp member
    obtain ⟨place, placed, recorded⟩ := mem_callsOf.mp itsCall
    apply (owned.channelCommands made (List.mem_of_getElem? placed)).once
    rw [owned.retryOnError place index made command placed recorded present]
    exact single
  simp only [announcedLosses, present, Option.elim, itself]
  rw [Nat.zero_add, List.sum_eq_zero_iff_forall_eq_nat.mpr calls]

theorem Owned.exists_execution
    {owners : List ℕ} (owned : system.Owned owners)
    {index : ℕ} {command : Command}
    (present : system.commands[index]? = some command)
    (fulfilled : .settled .fulfilled ∈ command.call.history) :
    ∃ made ∈ system.callsOf owners index,
      .settled .fulfilled ∈ made.call.history ∧
        ∃ channel, .invoked channel ∈ made.call.history := by
  obtain ⟨place, made, placed, recorded, success⟩ :=
    owned.fulfilled index command present fulfilled
  refine ⟨made, mem_callsOf.mpr ⟨place, placed, recorded⟩, success, ?_⟩
  exact
    (owned.channelCommands made (List.mem_of_getElem? placed)).fulfilled success

/-- In every run amqplib executes a command at most once more than losses have been
announced for it, only once if it must not be retried, and at least once if it
is fulfilled. -/
theorem executions_accounted
    (config : AmqpSystemConfig) (schedule : List SystemEvent)
    (system : AmqpSystem) (owners : List ℕ) (index : ℕ) (command : Command)
    (execution :
      (ownedMachine config).run (ownedMachine config).initial schedule =
        some (system, owners))
    (present : system.commands[index]? = some command) :
    system.executions owners index ≤ 1 + system.announcedLosses owners index ∧
      (command.call.retryOnError = false →
        system.executions owners index ≤ 1) ∧
      (.settled .fulfilled ∈ command.call.history →
        ∃ made ∈ system.callsOf owners index,
          .settled .fulfilled ∈ made.call.history ∧
            ∃ channel, .invoked channel ∈ made.call.history) := by
  have owned : system.Owned owners := owned_run execution
  have accounted := owned.executions_le present
  refine ⟨accounted, ?_, owned.exists_execution present⟩
  intro single
  rw [owned.announcedLosses_eq_zero present single] at accounted
  exact accounted

/-- The connection is lost while the command runs; it is executed again on the next
one, and succeeds. -/
def executedTwice : List SystemEvent :=
  connected ++
    [.execute true, .command 0 .continued, .channelCommand 0 .continued,
      .wrapper (.connectionLost 0),
      .command 0 (.commandSettled (.rejected .connectionClosed)),
      .command 0 .caught, .wrapper .oldConnectionDisposed,
      .wrapper (.initializer 1 .started),
      .wrapper (.initializer 1 (.connectionSettled .fulfilled)),
      .wrapper (.initializer 1 (.channelSettled .fulfilled)),
      .wrapper (.initializer 1 .resumed), .wrapper (.initializer 1 .finished),
      .wrapper .reconnectResumed, .command 0 .intervalStarted, .command 0 .slept,
      .command 0 .continued, .channelCommand 1 .continued,
      .channelCommand 1 (.commandSettled .fulfilled),
      .command 0 (.commandSettled .fulfilled)]

theorem executions_accounted_executedTwice :
    ∃ system owners command,
      (ownedMachine defaultConfig).run (ownedMachine defaultConfig).initial
          executedTwice = some (system, owners) ∧
        system.commands[0]? = some command ∧
        system.executions owners 0 = 2 ∧
        system.executions owners 0 ≤ 1 + system.announcedLosses owners 0 ∧
        (command.call.retryOnError = false →
          system.executions owners 0 ≤ 1) ∧
        (.settled .fulfilled ∈ command.call.history →
          ∃ made ∈ system.callsOf owners 0,
            .settled .fulfilled ∈ made.call.history ∧
              ∃ channel, .invoked channel ∈ made.call.history) :=
  ⟨_, _, _, rfl, rfl, rfl,
    executions_accounted defaultConfig executedTwice _ _ 0 _ rfl rfl⟩

end AmqpSystem

end Amq.Core
