import Amq.Rpc.SentCommands
import Mathlib.Data.List.Induction

/-!
# What a call has sent, and what it settles with

In a run of a sender each call sends one command at most, no two of them under the
same correlation id.  A call settles with the status of the command that it has
sent, is interrupted, or fails with what it has been waiting for.
-/

namespace Amq.Rpc

open Function Amq.Transition

namespace CommandSender

variable {κ Buffer V : Type} [DecidableEq κ]

/-- In the run of the schedule the call sends the command. -/
def HasSent
    (config : CommandSenderConfig κ Buffer V)
    (schedule : List (CommandSenderEvent κ Buffer V)) (index : ℕ)
    (command : SentCommand κ Buffer) : Prop :=
  ∃ earlier event before after call,
    earlier ++ [event] <+: schedule ∧
      (machine config).run (create config) earlier = some before ∧
      before.step config event = some after ∧
      SendsCommand config before after index call command

/-- In the run of the schedule the call fails, with what it has been waiting
for. -/
def HasFailed
    (config : CommandSenderConfig κ Buffer V)
    (schedule : List (CommandSenderEvent κ Buffer V)) (index : ℕ)
    (result : SendResult V) : Prop :=
  ∃ earlier event before call,
    earlier ++ [event] <+: schedule ∧
      (machine config).run (create config) earlier = some before ∧
      before.calls[index]? = some call ∧
      Fails config before index call event result

variable {config : CommandSenderConfig κ Buffer V}
variable {sender next : CommandSender κ Buffer V}
variable {schedule : List (CommandSenderEvent κ Buffer V)}
variable {event : CommandSenderEvent κ Buffer V}

theorem HasSent.concat
    {index : ℕ} {command : SentCommand κ Buffer}
    (sent : HasSent config schedule index command) :
    HasSent config (schedule ++ [event]) index command := by
  obtain ⟨earlier, itsEvent, before, after, call, inside, reached, stepped, sends⟩ :=
    sent
  exact ⟨earlier, itsEvent, before, after, call,
    inside.trans (List.prefix_append _ _), reached, stepped, sends⟩

theorem HasFailed.concat
    {index : ℕ} {result : SendResult V}
    (failed : HasFailed config schedule index result) :
    HasFailed config (schedule ++ [event]) index result := by
  obtain ⟨earlier, itsEvent, before, call, inside, reached, present, fails⟩ := failed
  exact ⟨earlier, itsEvent, before, call, inside.trans (List.prefix_append _ _),
    reached, present, fails⟩

/-- One more step sends the command, or it has been sent before. -/
theorem hasSent_concat
    (execution : (machine config).run (create config) schedule = some sender)
    (stepped : sender.step config event = some next)
    {index : ℕ} {command : SentCommand κ Buffer}
    (sent : HasSent config (schedule ++ [event]) index command) :
    HasSent config schedule index command ∨
      ∃ call, SendsCommand config sender next index call command := by
  obtain ⟨earlier, itsEvent, before, after, call, inside, reached, taken, sends⟩ :=
    sent
  rcases List.prefix_concat_iff.mp inside with same | earlierStill
  · obtain ⟨sameSchedule, sameEvent⟩ := List.append_inj' same rfl
    cases sameEvent
    subst sameSchedule
    cases Option.some.inj (reached.symm.trans execution)
    cases Option.some.inj (taken.symm.trans stepped)
    exact Or.inr ⟨call, sends⟩
  · exact Or.inl
      ⟨earlier, itsEvent, before, after, call, earlierStill, reached, taken, sends⟩

/-! ## One step -/

/-- A call that gets to send its command sends it in this very step. -/
theorem sendsCommand_of_step
    (stepped : sender.step config event = some next)
    {index : ℕ} {call call' : SendCall κ V} {run : Option ℕ} {correlationId : κ}
    (present : sender.calls[index]? = some call)
    (initializing : call.phase = .initializing run)
    (present' : next.calls[index]? = some call')
    (sending : call'.phase = .sending correlationId) :
    ∃ command, SendsCommand config sender next index call command ∧
      command.correlationId = correlationId := by
  have inside := (List.getElem?_eq_some_iff.mp present).1
  cases call_of_step stepped present present' with
  | rests phase =>
      rw [sending, initializing] at phase
      cases phase
  | initialized _ itself =>
      subst itself
      have starts : call.phase.isInitializing = true := by
        rw [initializing]
        rfl
      rcases settles_or_sends present starts with
        ⟨result, calls, _⟩ | ⟨command, sends⟩
      · rw [calls, List.getElem?_set_self inside] at present'
        cases present'
        cases sending
      · rw [sends.calls, List.getElem?_set_self inside] at present'
        cases present'
        cases sending
        exact ⟨command, sends, rfl⟩
  | fails fails settled => cases sending.symm.trans settled
  | goesOn unsent unfailed => exact absurd sending (unsent correlationId)

/-- A call was there before, or it has just begun. -/
theorem call_origin
    (stepped : sender.step config event = some next)
    {index : ℕ} {call' : SendCall κ V}
    (present' : next.calls[index]? = some call') :
    (∃ call, sender.calls[index]? = some call ∧
        Ledger.CallMoves config sender.ledger next.ledger call call') ∨
      ∃ run, call'.phase = .initializing run := by
  have moved := Ledger.moves_of_step stepped
  cases present : sender.calls[index]? with
  | some call =>
      obtain ⟨other, placed, moves⟩ := moved.call present
      cases Option.some.inj (placed.symm.trans present')
      exact Or.inl ⟨call, rfl, moves⟩
  | none =>
      have absent (same : next.calls[index]? = sender.calls[index]?) : False := by
        rw [present, present'] at same
        cases same
      have calls := moved.calls
      change Ledger.CallsMove sender.calls next.calls at calls
      generalize next.calls = calls' at calls present' absent
      cases calls with
      | stays => exact (absent rfl).elim
      | begins commandName args run =>
          rcases concat_cases present' with old | ⟨_, new⟩
          · cases present.symm.trans old
          · exact Or.inr ⟨run, by rw [new]⟩
      | goesOn found sameRequest still =>
          rcases set_cases present' with ⟨same, _⟩ | ⟨_, old⟩
          · rw [same, found] at present
            cases present
          · cases present.symm.trans old

/-- The call that sends a command makes it. -/
theorem SendsCommand.created
    (stepped : sender.step config event = some next)
    {index : ℕ} {call : SendCall κ V} {command : SentCommand κ Buffer}
    (sends : SendsCommand config sender next index call command) :
    command.correlationId =
        config.generateId sender.commandManager.generated ∧
      next.commandManager =
        (sender.commandManager.create config.generateId config.queue
          call.commandName call.args).1 := by
  have inside := (List.getElem?_eq_some_iff.mp sends.present).1
  obtain ⟨call', present', moves⟩ := (Ledger.moves_of_step stepped).call sends.present
  change next.calls[index]? = some call' at present'
  have starts := sends.initializing
  rw [sends.calls, List.getElem?_set_self inside] at present'
  have phase : call'.phase = .sending command.correlationId :=
    (congrArg SendCall.phase (Option.some.inj present')).symm
  cases moves with
  | stays =>
      rw [phase] at starts
      cases starts
  | timesOut running =>
      change call.phase = _ at phase
      rw [phase] at starts
      cases starts
  | givesUp _ _ => cases phase
  | sends _ created => exact ⟨(SendPhase.sending.inj phase).symm, created⟩
  | abandons _ _ => cases phase
  | waits _ => cases phase
  | answers _ _ _ => cases phase

/-! ## Whole runs -/

/-- Why a call has settled as it has: it has failed, or it has been interrupted, or
the command that it has sent has this result. -/
inductive SettledAs
    (config : CommandSenderConfig κ Buffer V)
    (schedule : List (CommandSenderEvent κ Buffer V))
    (sender : CommandSender κ Buffer V) (index : ℕ) (call : SendCall κ V) :
    SendResult V → Prop
  | failed {result : SendResult V}
      (failed : HasFailed config schedule index result) :
      SettledAs config schedule sender index call result
  | interrupted (disposed : sender.isDisposed = true) :
      SettledAs config schedule sender index call (interrupted config call)
  | answered {own : ℕ} {object : Command V} {command : SentCommand κ Buffer}
      {result : SendResult V}
      (sent : HasSent config schedule index command)
      (itsId : command.correlationId = config.generateId own)
      (isCommand : Ledger.IsCommandOf sender.commandManager own object call)
      (status : statusResult object.status = some result) :
      SettledAs config schedule sender index call result

/-- What holds of the calls of a sender after a run. -/
structure Traced
    (config : CommandSenderConfig κ Buffer V)
    (schedule : List (CommandSenderEvent κ Buffer V))
    (sender : CommandSender κ Buffer V) : Prop where
  inFlight :
    ∀ (index : ℕ) (call : SendCall κ V) correlationId,
      sender.calls[index]? = some call →
        call.phase.correlationId? = some correlationId →
          ∃ own object command, HasSent config schedule index command ∧
            command.correlationId = correlationId ∧
            correlationId = config.generateId own ∧
            Ledger.IsCommandOf sender.commandManager own object call
  settled :
    ∀ (index : ℕ) (call : SendCall κ V) result,
      sender.calls[index]? = some call → call.phase = .settled result →
        SettledAs config schedule sender index call result
  sent :
    ∀ index command, HasSent config schedule index command →
      ∃ own call, command.correlationId = config.generateId own ∧
        own < sender.commandManager.commands.length ∧
        sender.calls[index]? = some call ∧ call.phase.isInitializing = false
  distinct :
    ∀ first second one two, HasSent config schedule first one →
      HasSent config schedule second two →
        one.correlationId = two.correlationId → first = second
  once :
    ∀ index one two, HasSent config schedule index one →
      HasSent config schedule index two → one = two

theorem traced_create (config : CommandSenderConfig κ Buffer V) :
    Traced config [] (create config) := by
  have silent (index : ℕ) (command : SentCommand κ Buffer) :
      ¬ HasSent config [] index command := by
    rintro ⟨earlier, event, _, _, _, inside, _⟩
    simp at inside
  refine ⟨?_, ?_, ?_, ?_, ?_⟩
  · intro index call correlationId present
    cases present
  · intro index call result present
    cases present
  · intro index command sent
    exact absurd sent (silent index command)
  · intro first second one two sent
    exact absurd sent (silent first one)
  · intro index one two sent
    exact absurd sent (silent index one)

section Step

variable (execution : (machine config).run (create config) schedule = some sender)
variable (stepped : sender.step config event = some next)
variable (traced : Traced config schedule sender)
variable (unique : Injective config.generateId)
variable (correlated : Ledger.Correlated config sender.ledger)

include stepped unique correlated in
/-- Why a call has settled stays so. -/
theorem SettledAs.step
    {index : ℕ} {call : SendCall κ V} {result : SendResult V}
    (settledAs : SettledAs config schedule sender index call result) :
    SettledAs config (schedule ++ [event]) next index call result := by
  have moved := Ledger.moves_of_step stepped
  cases settledAs with
  | failed failed => exact .failed failed.concat
  | interrupted disposed => exact .interrupted (moved.isDisposed disposed)
  | @answered own object command _ sent itsId isCommand status =>
      have notReady : object.status ≠ .ready := by
        intro ready
        rw [ready] at status
        cases status
      obtain ⟨object', isCommand', sameStatus⟩ :=
        isCommand.moves unique correlated moved
      rw [← sameStatus notReady] at status
      exact .answered sent.concat itsId isCommand' status

include execution stepped traced unique correlated in
theorem Traced.inFlight_step
    {index : ℕ} {call' : SendCall κ V} {correlationId : κ}
    (present' : next.calls[index]? = some call')
    (inFlight : call'.phase.correlationId? = some correlationId) :
    ∃ own object command, HasSent config (schedule ++ [event]) index command ∧
      command.correlationId = correlationId ∧
      correlationId = config.generateId own ∧
      Ledger.IsCommandOf next.commandManager own object call' := by
  have kept {call : SendCall κ V} (present : sender.calls[index]? = some call)
      (before : call.phase.correlationId? = some correlationId)
      (request : call'.request = call.request) :
      ∃ own object command, HasSent config (schedule ++ [event]) index command ∧
        command.correlationId = correlationId ∧
        correlationId = config.generateId own ∧
        Ledger.IsCommandOf next.commandManager own object call' := by
    obtain ⟨own, object, command, sent, itsId, named, isCommand⟩ :=
      traced.inFlight index call _ present before
    obtain ⟨object', isCommand', _⟩ :=
      isCommand.moves unique correlated (Ledger.moves_of_step stepped)
    obtain ⟨sameName, sameArgs⟩ := Prod.mk.inj request
    refine ⟨own, object', command, sent.concat, itsId, named, isCommand'.1, ?_, ?_⟩
    · rw [sameName, isCommand'.2.1]
    · rw [sameArgs, isCommand'.2.2]
  rcases call_origin stepped present' with ⟨call, present, moves⟩ | ⟨run, new⟩
  · cases moves with
    | stays => exact kept present inFlight rfl
    | timesOut running => exact kept present inFlight rfl
    | waits sending =>
        refine kept present ?_ rfl
        rw [sending]
        exact inFlight
    | sends initializing _ =>
        cases inFlight
        obtain ⟨command, sends, itsId⟩ :=
          sendsCommand_of_step stepped present initializing present' rfl
        have made :=
          CommandManager.create_fst config.generateId sender.commandManager
            config.queue call.commandName call.args
            (correlated.wellFormed.unused unique)
        have isCommand :
            next.commandManager.commands[sender.commandManager.commands.length]? =
              some (Command.create config.queue call.commandName call.args) := by
          rw [(sends.created stepped).2, made]
          exact List.getElem?_concat_length
        exact ⟨_, _, command, ⟨schedule, event, sender, next, _, List.prefix_rfl,
          execution, stepped, sends⟩, itsId,
          congrArg config.generateId correlated.wellFormed.generated, isCommand, rfl,
          rfl⟩
    | givesUp _ _ => cases inFlight
    | abandons _ _ => cases inFlight
    | answers _ _ _ => cases inFlight
  · rw [new] at inFlight
    cases inFlight

include execution stepped traced unique correlated in
theorem Traced.settled_step
    {index : ℕ} {call' : SendCall κ V} {result : SendResult V}
    (present' : next.calls[index]? = some call')
    (settled : call'.phase = .settled result) :
    SettledAs config (schedule ++ [event]) next index call' result := by
  have moved := Ledger.moves_of_step stepped
  have fails {call : SendCall κ V} (present : sender.calls[index]? = some call)
      (open_ : ∀ result, call.phase ≠ .settled result)
      (failure : result.isFailure = true) :
      SettledAs config (schedule ++ [event]) next index call' result :=
    .failed ⟨schedule, event, sender, call, List.prefix_rfl, execution, present,
      fails_of_step stepped present open_ present' settled failure⟩
  rcases call_origin stepped present' with ⟨call, present, moves⟩ | ⟨run, new⟩
  · have stays (before : call.phase = .settled result) :=
      (traced.settled index call result present before).step stepped unique
        correlated
    cases moves with
    | stays => exact stays settled
    | timesOut running =>
        cases stays settled with
        | failed failed => exact .failed failed
        | interrupted disposed => exact .interrupted disposed
        | answered sent itsId isCommand status =>
            exact .answered sent itsId isCommand status
    | givesUp initializing reason =>
        cases settled
        have open_ : ∀ result, call.phase ≠ .settled result := by
          rw [initializing]
          nofun
        rcases reason with failed | failed | ⟨disposed, interrupted⟩
        · subst failed
          exact fails present open_ rfl
        · subst failed
          exact fails present open_ rfl
        · subst interrupted
          exact .interrupted (moved.isDisposed disposed)
    | sends _ _ => cases settled
    | @abandons correlationId _ sending reason =>
        cases settled
        have open_ : ∀ result, call.phase ≠ .settled result := by
          rw [sending]
          nofun
        rcases reason with failed | ⟨disposed, interrupted⟩ | ⟨absent, _⟩
        · subst failed
          exact fails present open_ rfl
        · subst interrupted
          exact .interrupted (moved.isDisposed disposed)
        · have itsId : call.phase.correlationId? = some correlationId := by
            rw [sending]
            rfl
          obtain ⟨own, named, member⟩ :=
            (correlated.recorded index call present).inFlight correlationId itsId
          subst named
          rw [(correlated.wellFormed.get_iff unique own).mpr member] at absent
          cases absent
    | waits _ => cases settled
    | @answers correlationId own isSettled object _ waiting itsCommand status =>
        cases settled
        have inFlight : call.phase.correlationId? = some correlationId := by
          rw [waiting]
          rfl
        obtain ⟨other, itsObject, command, sent, itsId, named, isCommand⟩ :=
          traced.inFlight index call correlationId present inFlight
        have same :=
          ((correlated.recorded index call present).waiting _ _ _ waiting).1
        cases unique (named.symm.trans same)
        cases isCommand.1.symm.trans itsCommand
        have answered : SettledAs config schedule sender index
            { call with phase := .settled result, timer := none } result :=
          .answered sent (itsId.trans named) isCommand status
        exact answered.step stepped unique correlated
  · rw [new] at settled
    cases settled

/-- A call that sends has not sent before. -/
theorem unsent_of_sends
    {index : ℕ} {call : SendCall κ V} {command earlier : SentCommand κ Buffer}
    (traced : Traced config schedule sender)
    (sends : SendsCommand config sender next index call command)
    (sent : HasSent config schedule index earlier) : False := by
  obtain ⟨_, old, _, _, present, started⟩ := traced.sent index earlier sent
  cases Option.some.inj (present.symm.trans sends.present)
  exact Bool.false_ne_true (started.symm.trans sends.initializing)

omit [DecidableEq κ] in
/-- Only one call sends a command in a step. -/
theorem sendsCommand_unique
    {first second : ℕ} {call other : SendCall κ V}
    {one two : SentCommand κ Buffer}
    (firstly : SendsCommand config sender next first call one)
    (secondly : SendsCommand config sender next second other two) :
    first = second ∧ one = two := by
  refine ⟨?_, (List.cons.inj (firstly.sent.symm.trans secondly.sent)).1⟩
  by_contra different
  have inside := (List.getElem?_eq_some_iff.mp secondly.present).1
  have now := congrArg (·[second]?) (firstly.calls.symm.trans secondly.calls)
  rw [List.getElem?_set_ne different, List.getElem?_set_self inside,
    secondly.present] at now
  have starts := secondly.initializing
  rw [Option.some.inj now] at starts
  cases starts

include execution stepped traced unique correlated in
theorem Traced.sent_step
    {index : ℕ} {command : SentCommand κ Buffer}
    (sent : HasSent config (schedule ++ [event]) index command) :
    ∃ own call, command.correlationId = config.generateId own ∧
      own < next.commandManager.commands.length ∧
      next.calls[index]? = some call ∧ call.phase.isInitializing = false := by
  have moved := Ledger.moves_of_step stepped
  rcases hasSent_concat execution stepped sent with old | ⟨call, sends⟩
  · obtain ⟨own, call, itsId, made, present, started⟩ :=
      traced.sent index command old
    obtain ⟨call', present', moves⟩ := moved.call present
    refine ⟨own, call', itsId,
      made.trans_le (moved.commands_length unique correlated), present', ?_⟩
    cases moves with
    | stays => exact started
    | timesOut _ => exact started
    | givesUp _ _ => rfl
    | sends initializing _ =>
        rw [initializing] at started
        cases started
    | abandons _ _ => rfl
    | waits _ => rfl
    | answers _ _ _ => rfl
  · have inside := (List.getElem?_eq_some_iff.mp sends.present).1
    obtain ⟨itsId, created⟩ := sends.created stepped
    have generated :
        sender.commandManager.generated = sender.commandManager.commands.length :=
      correlated.wellFormed.generated
    have made :=
      CommandManager.create_fst config.generateId sender.commandManager
        config.queue call.commandName call.args
        (correlated.wellFormed.unused unique)
    have longer :
        sender.commandManager.generated < next.commandManager.commands.length := by
      rw [created, made, List.length_append, List.length_singleton, generated]
      exact Nat.lt_succ_self _
    have present' :
        next.calls[index]? =
          some
            { call with
              phase := .sending command.correlationId
              timer := some command.correlationId } := by
      rw [sends.calls]
      exact List.getElem?_set_self inside
    exact ⟨sender.commandManager.generated, _, itsId, longer, present', rfl⟩

include stepped traced unique correlated in
/-- A command that is sent has an id which no earlier one has. -/
theorem Traced.fresh
    {index other : ℕ} {call : SendCall κ V}
    {command earlier : SentCommand κ Buffer}
    (sends : SendsCommand config sender next index call command)
    (sent : HasSent config schedule other earlier) :
    command.correlationId ≠ earlier.correlationId := by
  intro same
  obtain ⟨own, _, itsId, made, _, _⟩ := traced.sent other earlier sent
  have generated :
      sender.commandManager.generated = sender.commandManager.commands.length :=
    correlated.wellFormed.generated
  rw [(sends.created stepped).1, itsId] at same
  have equal := unique same
  omega

end Step

/-- After every run the calls of a sender have settled with what they have met. -/
theorem traced_run
    (unique : Injective config.generateId)
    (execution : (machine config).run (create config) schedule = some sender) :
    Traced config schedule sender := by
  induction schedule using List.reverseRecOn generalizing sender with
  | nil =>
      cases execution
      exact traced_create config
  | append_singleton earlier event inductionHypothesis =>
      rw [Machine.run_append] at execution
      obtain ⟨before, reached, last⟩ := Option.bind_eq_some_iff.mp execution
      rw [Machine.run_singleton] at last
      have stepped : before.step config event = some sender := last
      have traced := inductionHypothesis reached
      have correlated := correlated_run unique reached
      refine
        { inFlight := fun index call correlationId present inFlight =>
            traced.inFlight_step reached stepped unique correlated present inFlight
          settled := fun index call result present settled =>
            traced.settled_step reached stepped unique correlated present settled
          sent := fun index command sent =>
            traced.sent_step reached stepped unique correlated sent
          distinct := ?_
          once := ?_ }
      · intro first second one two firstly secondly sameId
        rcases hasSent_concat reached stepped firstly with old | ⟨call, sends⟩
        · rcases hasSent_concat reached stepped secondly with old' | ⟨_, sends'⟩
          · exact traced.distinct first second one two old old' sameId
          · exact absurd sameId.symm
              (traced.fresh stepped unique correlated sends' old)
        · rcases hasSent_concat reached stepped secondly with old' | ⟨_, sends'⟩
          · exact absurd sameId
              (traced.fresh stepped unique correlated sends old')
          · exact (sendsCommand_unique sends sends').1
      · intro index one two firstly secondly
        rcases hasSent_concat reached stepped firstly with old | ⟨call, sends⟩
        · rcases hasSent_concat reached stepped secondly with old' | ⟨_, sends'⟩
          · exact traced.once index one two old old'
          · exact (unsent_of_sends traced sends' old).elim
        · rcases hasSent_concat reached stepped secondly with old' | ⟨_, sends'⟩
          · exact (unsent_of_sends traced sends old').elim
          · exact (sendsCommand_unique sends sends').2

end CommandSender

end Amq.Rpc
