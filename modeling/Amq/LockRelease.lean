import Amq.Jobs.JobServerLock
import Amq.Rpc.ReplyBeforeAcknowledge
import Amq.Transition.Monitor

/-!
# Who releases the lock of a message

A run takes the lock of its correlation id first and releases it last.  Whatever
makes it leave in between leaves the id locked, and later deliveries of the
message are swallowed until the connection unlocks all messages.
-/


namespace Amq

open Transition

/-! ## Runs that end in a step -/

section Ends

variable {ρ : Type} {isEnded : ρ → Prop} {runs : List ρ}

/-- The run at this place of the later list has ended since the earlier one. -/
def Ends
    (isEnded : ρ → Prop) (earlier later : List ρ) (index : ℕ) (run : ρ) :
    Prop :=
  later[index]? = some run ∧ isEnded run ∧
    ∀ before, earlier[index]? = some before → ¬ isEnded before

theorem not_ends_self {index : ℕ} {run : ρ} :
    ¬ Ends isEnded runs runs index run :=
  fun ⟨present, ended, working⟩ => working run present ended

theorem ends_set_iff
    {index place : ℕ} {run following leaving : ρ}
    (present : runs[index]? = some run) :
    Ends isEnded runs (runs.set index following) place leaving ↔
      place = index ∧ leaving = following ∧ isEnded following ∧
        ¬ isEnded run := by
  by_cases own : place = index
  · subst own
    have inside : place < runs.length :=
      (List.getElem?_eq_some_iff.mp present).1
    simp only [Ends, List.getElem?_set_self inside, present,
      Option.some.injEq, forall_eq', true_and]
    constructor
    · intro ⟨same, ended, working⟩
      subst same
      exact ⟨rfl, ended, working⟩
    · intro ⟨same, ended, working⟩
      subst same
      exact ⟨rfl, ended, working⟩
  · have elsewhere : index ≠ place := fun same => own same.symm
    constructor
    · intro ⟨found, ended, working⟩
      rw [List.getElem?_set_ne elsewhere] at found
      exact absurd ended (working leaving found)
    · intro ⟨same, _⟩
      exact absurd same own

theorem ends_concat_iff {place : ℕ} {new leaving : ρ} :
    Ends isEnded runs (runs ++ [new]) place leaving ↔
      place = runs.length ∧ leaving = new ∧ isEnded new := by
  constructor
  · intro ⟨found, ended, working⟩
    rcases concat_cases found with earlier | ⟨last, itself⟩
    · exact absurd ended (working leaving earlier)
    · exact ⟨last, itself, itself ▸ ended⟩
  · intro ⟨last, same, ended⟩
    subst last same
    refine ⟨List.getElem?_concat_length, ended, ?_⟩
    intro before found
    rw [List.getElem?_eq_none (Nat.le_refl _)] at found
    cases found

end Ends

/-! ## The RPC server -/

namespace Rpc.RpcServer

variable {κ Buffer V : Type} [DecidableEq κ] [DecidableEq V]

/-- How many runs there were when all messages were unlocked for the last
time. -/
def unlockedRuns
    (count : ℕ) (server : RpcServer κ Buffer V) :
    RpcServerEvent κ Buffer V → ℕ
  | .amqpReconnected | .amqpChannelRecreated =>
      if server.state = .listening then server.runs.length else count
  | _ => count

/-- The server and the number of runs that an `unlockAll` has outdated. -/
def lockMachine (config : RpcServerConfig Buffer V) :
    Machine (RpcServer κ Buffer V × ℕ) (RpcServerEvent κ Buffer V) :=
  (machine config).watched unlockedRuns 0

/-- A later message with this correlation id is processed. -/
def Processes
    (config : RpcServerConfig Buffer V) (server : RpcServer κ Buffer V)
    (correlationId : κ) : Prop :=
  ∀ (message : CommandMessage κ Buffer) (tag : DeliveryTag),
    message.correlationId = correlationId →
      (server.handleCommandMessage config message tag).runs =
        server.runs ++ [server.startRun config message]

/-- A run that ends in this step leaves its correlation id unlocked, unless the
server has been disposed of or has unlocked all messages in the meantime. -/
def ReleasesLock
    (config : RpcServerConfig Buffer V) (state : RpcServer κ Buffer V × ℕ)
    (event : RpcServerEvent κ Buffer V) : Prop :=
  ∀ next, state.1.step config event = some next →
    next.state ≠ .disposed →
      ∀ index run, state.2 ≤ index →
        Ends (fun run => run.phase = .ended) state.1.runs next.runs index run →
          next.messageRelevancyChecker.correlationIds run.correlationId = none ∧
            Processes config next run.correlationId

/-- `handleCommandMessage` gets to the handler. -/
def isReadable
    (config : RpcServerConfig Buffer V) (message : CommandMessage κ Buffer) :
    Bool :=
  match config.deserialize message.content with
  | none => false
  | some content => (config.spread content.args).isSome

/-- The step does not make a run leave with its lock: messages that take a lock
can be read, and a reply is serialized and sent as long as the lock is held. -/
def Unhindered
    (config : RpcServerConfig Buffer V) (state : RpcServer κ Buffer V × ℕ) :
    RpcServerEvent κ Buffer V → Prop
  | .commandMessage message _ =>
      state.1.messageRelevancyChecker.correlationIds message.correlationId =
          none →
        isReadable config message = true
  | .command index .proceed =>
      state.2 ≤ index → state.1.state ≠ .disposed →
        ∀ run reply, state.1.runs[index]? = some run →
          run.phase = .handled (some reply) → config.serialize reply = none →
            state.1.messageRelevancyChecker.correlationIds run.correlationId =
              none
  | .command index (.replySettled .rejected) =>
      state.2 ≤ index → state.1.state ≠ .disposed →
        ∀ run, state.1.runs[index]? = some run →
          state.1.messageRelevancyChecker.correlationIds run.correlationId =
            none
  | _ => True

omit [DecidableEq V] in
theorem processes_of_free
    (config : RpcServerConfig Buffer V) (server : RpcServer κ Buffer V)
    {correlationId : κ}
    (free :
      server.messageRelevancyChecker.correlationIds correlationId = none) :
    Processes config server correlationId := by
  intro message tag same
  subst same
  simp [handleCommandMessage, MessageRelevancyChecker.lock, free]


omit [DecidableEq κ] [DecidableEq V] in
theorem startRun_ended_iff
    (config : RpcServerConfig Buffer V) (server : RpcServer κ Buffer V)
    (message : CommandMessage κ Buffer) :
    (server.startRun config message).phase = .ended ↔
      isReadable config message = false := by
  unfold startRun isReadable
  cases deserialized : config.deserialize message.content with
  | none => simp
  | some content =>
      cases spread : config.spread content.args with
      | none => simp [spread]
      | some args =>
          cases handled :
              server.commandHandlerManager.handle config.toText
                content.command with
          | ok handler => simp [spread, handled]
          | error missing => simp [spread, handled]

omit [DecidableEq V] in
/-- A step of a run that ends it frees its correlation id, unless the run leaves
by an exception while the id is locked. -/
theorem releases_steps
    {config : RpcServerConfig Buffer V} {server : RpcServer κ Buffer V}
    {index : ℕ} {event : CommandEvent V} {run following : CommandRun κ V}
    {effects : List (CommandEffect κ Buffer)}
    (present : server.runs[index]? = some run)
    (stepped :
      run.Steps (server.surroundings config run.correlationId) event following
        effects)
    (live : server.state ≠ .disposed) {since : ℕ} (recent : since ≤ index) :
    (following.phase = .ended →
        (effects.foldl apply
            { server with
              runs :=
                server.runs.set index
                  following }).messageRelevancyChecker.correlationIds
            run.correlationId = none) ↔
      Unhindered config (server, since) (.command index event) := by
  have notDisposed :
      (server.surroundings config run.correlationId).isDisposed = false := by
    simp [surroundings, live]
  cases stepped with
  | handlerSettled => exact iff_of_true (by simp) trivial
  | timedOut => exact iff_of_true (by simp) trivial
  | notReplied reply handled hindered =>
      have unserialized : config.serialize reply = none := by
        rcases hindered with disposed | unserialized
        · rw [notDisposed] at disposed
          cases disposed
        · exact unserialized
      constructor
      · intro free _ _ other itsReply found _ _
        cases Option.some.inj (present.symm.trans found)
        exact free rfl
      · intro unhindered _
        exact unhindered recent live run reply present handled unserialized
  | replying reply content handled _ serialized =>
      refine iff_of_true (by simp) ?_
      intro _ _ other itsReply found itsPhase unserialized
      cases Option.some.inj (present.symm.trans found)
      rw [handled] at itsPhase
      cases itsPhase
      have serialized : config.serialize reply = some content := serialized
      rw [unserialized] at serialized
      cases serialized
  | replyAccepted => exact iff_of_true (by simp) trivial
  | replyFailed replying =>
      constructor
      · intro free _ _ other found
        cases Option.some.inj (present.symm.trans found)
        exact free rfl
      · intro unhindered _
        exact unhindered recent live run present
  | proceedDisposed answered disposed =>
      rw [notDisposed] at disposed
      cases disposed
  | proceedAcknowledging tag answered =>
      refine iff_of_true (by simp) ?_
      intro _ _ other reply found handled _
      cases Option.some.inj (present.symm.trans found)
      rw [handled] at answered
      simp at answered
  | proceedUnlocking answered =>
      refine iff_of_true ?_ ?_
      · intro _
        simp [apply, MessageRelevancyChecker.unlock]
      · intro _ _ other reply found handled _
        cases Option.some.inj (present.symm.trans found)
        rw [handled] at answered
        simp at answered
  | acknowledgeSettled tag settlement acknowledging =>
      refine iff_of_true ?_ trivial
      intro _
      simp [apply, MessageRelevancyChecker.unlock]

omit [DecidableEq κ] [DecidableEq V] in
/-- An ended run takes no further step. -/
theorem not_ended_of_steps
    {surroundings : CommandSurroundings Buffer V} {event : CommandEvent V}
    {run following : CommandRun κ V} {effects : List (CommandEffect κ Buffer)}
    (stepped : run.Steps surroundings event following effects) :
    run.phase ≠ .ended := by
  intro ended
  cases stepped <;> simp_all

omit [DecidableEq κ] [DecidableEq V] in
theorem correlationId_steps
    {surroundings : CommandSurroundings Buffer V} {event : CommandEvent V}
    {run following : CommandRun κ V} {effects : List (CommandEffect κ Buffer)}
    (stepped : run.Steps surroundings event following effects) :
    following.correlationId = run.correlationId := by
  cases stepped <;> rfl

/-- Without a run that ends, nothing is asked of a step. -/
theorem releasesLock_of_runs_eq
    {config : RpcServerConfig Buffer V} {server next : RpcServer κ Buffer V}
    {event : RpcServerEvent κ Buffer V} {since : ℕ}
    (stepped : server.step config event = some next)
    (unchanged : next.runs = server.runs) :
    ReleasesLock config (server, since) event := by
  intro following taken _ index run _ ends
  rw [stepped] at taken
  cases taken
  rw [unchanged] at ends
  exact absurd ends not_ends_self

theorem releasesLock_deliver_iff
    {config : RpcServerConfig Buffer V} {server : RpcServer κ Buffer V}
    {message : CommandMessage κ Buffer} {tag : DeliveryTag} {since : ℕ}
    (outdated : since ≤ server.runs.length)
    (listening : server.state = .listening)
    (stepped :
      server.step config (.commandMessage message tag) =
        some (server.handleCommandMessage config message tag)) :
    ReleasesLock config (server, since) (.commandMessage message tag) ↔
      Unhindered config (server, since) (.commandMessage message tag) := by
  by_cases free :
      server.messageRelevancyChecker.correlationIds message.correlationId = none
  · have started :
        (server.handleCommandMessage config message tag).runs =
          server.runs ++ [server.startRun config message] :=
      processes_of_free config server free message tag rfl
    have locked :
        (server.handleCommandMessage config message
            tag).messageRelevancyChecker.correlationIds message.correlationId =
          some tag := by
      simp [handleCommandMessage, MessageRelevancyChecker.lock]
    have itsState :
        (server.handleCommandMessage config message tag).state = .listening :=
      listening
    have live :
        (server.handleCommandMessage config message tag).state ≠ .disposed := by
      rw [itsState]
      decide
    constructor
    · intro releases _
      by_contra unreadable
      have ended : (server.startRun config message).phase = .ended :=
        (startRun_ended_iff config server message).mpr
          (Bool.eq_false_of_not_eq_true unreadable)
      have ends :
          Ends (fun run : CommandRun κ V => run.phase = .ended) server.runs
            (server.handleCommandMessage config message tag).runs
            server.runs.length (server.startRun config message) := by
        rw [started]
        exact ends_concat_iff.mpr ⟨rfl, rfl, ended⟩
      have released :
          (server.handleCommandMessage config message
              tag).messageRelevancyChecker.correlationIds message.correlationId =
            none :=
        (releases _ stepped live _ _ outdated ends).1
      rw [locked] at released
      cases released
    · intro unhindered next taken _ index run _ ends
      rw [stepped] at taken
      cases taken
      rw [started] at ends
      obtain ⟨_, same, ended⟩ := ends_concat_iff.mp ends
      have unreadable := (startRun_ended_iff config server message).mp ended
      rw [unhindered free] at unreadable
      cases unreadable
  · refine iff_of_true (releasesLock_of_runs_eq stepped ?_) ?_
    · have taken :
          (server.messageRelevancyChecker.correlationIds
            message.correlationId).isNone = false :=
        Bool.eq_false_of_not_eq_true fun none =>
          free (Option.isNone_iff_eq_none.mp none)
      simp [handleCommandMessage, MessageRelevancyChecker.lock, taken]
    · exact fun isFree => absurd isFree free

omit [DecidableEq κ] [DecidableEq V] in
theorem unhindered_command_of_vacuous
    {config : RpcServerConfig Buffer V} {server : RpcServer κ Buffer V}
    {index : ℕ} {event : CommandEvent V} {since : ℕ}
    (vacuous : ¬ (since ≤ index ∧ server.state ≠ .disposed)) :
    Unhindered config (server, since) (.command index event) := by
  cases event with
  | proceed => exact fun recent live => absurd ⟨recent, live⟩ vacuous
  | replySettled settlement =>
      cases settlement with
      | fulfilled => trivial
      | rejected => exact fun recent live => absurd ⟨recent, live⟩ vacuous
  | _ => trivial

theorem releasesLock_command_iff
    {config : RpcServerConfig Buffer V} {server : RpcServer κ Buffer V}
    {index : ℕ} {event : CommandEvent V} {since : ℕ}
    {run following : CommandRun κ V} {effects : List (CommandEffect κ Buffer)}
    (present : server.runs[index]? = some run)
    (taken :
      run.Steps (server.surroundings config run.correlationId) event following
        effects)
    (stepped :
      server.step config (.command index event) =
        some
          (effects.foldl apply
            { server with runs := server.runs.set index following })) :
    ReleasesLock config (server, since) (.command index event) ↔
      Unhindered config (server, since) (.command index event) := by
  obtain ⟨runs, _, state⟩ :=
    effects_runs { server with runs := server.runs.set index following } effects
  by_cases asked : since ≤ index ∧ server.state ≠ .disposed
  · obtain ⟨recent, live⟩ := asked
    rw [← releases_steps present taken live recent]
    constructor
    · intro releases ended
      have ends :
          Ends (fun run : CommandRun κ V => run.phase = .ended) server.runs
            (effects.foldl apply
              { server with runs := server.runs.set index following }).runs
            index following := by
        rw [runs]
        exact (ends_set_iff present).mpr
          ⟨rfl, rfl, ended, not_ended_of_steps taken⟩
      have released :=
        (releases _ stepped (by rw [state]; exact live) _ _ recent ends).1
      rw [correlationId_steps taken] at released
      exact released
    · intro released next same _ place leaving _ ends
      rw [stepped] at same
      cases same
      rw [runs] at ends
      obtain ⟨_, itself, ended, _⟩ := (ends_set_iff present).mp ends
      subst itself
      have free := released ended
      rw [← correlationId_steps taken] at free
      exact ⟨free, processes_of_free config _ free⟩
  · refine iff_of_true ?_ (unhindered_command_of_vacuous asked)
    intro next same live place leaving recent ends
    rw [stepped] at same
    cases same
    rw [runs] at ends
    obtain ⟨own, _⟩ := (ends_set_iff present).mp ends
    subst own
    rw [state] at live
    exact absurd ⟨recent, live⟩ asked

/-- One step of the server releases the locks of the runs that it ends exactly
when it is unhindered. -/
theorem releasesLock_iff
    {config : RpcServerConfig Buffer V} {server next : RpcServer κ Buffer V}
    {event : RpcServerEvent κ Buffer V} {since : ℕ}
    (outdated : since ≤ server.runs.length)
    (stepped : server.step config event = some next) :
    ReleasesLock config (server, since) event ↔
      Unhindered config (server, since) event := by
  cases event with
  | commandMessage message tag =>
      have moved := stepped
      simp only [step] at stepped
      split at stepped
      · rename_i accepted
        cases stepped
        exact releasesLock_deliver_iff outdated accepted.1 moved
      · cases stepped
  | command index event =>
      have moved := stepped
      simp only [step, stepCommand] at stepped
      split at stepped
      · rename_i run present
        split at stepped
        · rename_i following effects taken
          cases stepped
          exact releasesLock_command_iff present (CommandRun.steps_of_step taken)
            moved
        · cases stepped
      · cases stepped
  | _ =>
      cases moves_of_step stepped with
      | administers undisturbed =>
          exact iff_of_true (releasesLock_of_runs_eq stepped undisturbed.runs)
            trivial

theorem runs_length_of_step
    {config : RpcServerConfig Buffer V} {server next : RpcServer κ Buffer V}
    {event : RpcServerEvent κ Buffer V}
    (stepped : server.step config event = some next) :
    server.runs.length ≤ next.runs.length := by
  cases moves_of_step stepped with
  | administers undisturbed => rw [undisturbed.runs]
  | delivers message tag listening =>
      simp only [handleCommandMessage]
      split
      · simp
      · exact Nat.le_refl _
  | steps index event present taken =>
      rw [(effects_runs _ _).1]
      simp

omit [DecidableEq κ] [DecidableEq V] in
theorem unlockedRuns_le
    {count : ℕ} {server : RpcServer κ Buffer V}
    (outdated : count ≤ server.runs.length)
    (event : RpcServerEvent κ Buffer V) :
    unlockedRuns count server event ≤ server.runs.length := by
  unfold unlockedRuns
  split
  · split
    · exact Nat.le_refl _
    · exact outdated
  · split
    · exact Nat.le_refl _
    · exact outdated
  · exact outdated

/-- The server releases the lock of every run that ends exactly when none of its
steps is hindered. -/
theorem releasesLock_throughout_iff
    {config : RpcServerConfig Buffer V}
    {schedule : List (RpcServerEvent κ Buffer V)}
    {state : RpcServer κ Buffer V × ℕ}
    (execution :
      (lockMachine config).run (lockMachine config).initial schedule =
        some state) :
    (lockMachine config).Throughout (ReleasesLock config)
        (lockMachine config).initial schedule ↔
      (lockMachine config).Throughout (Unhindered config)
        (lockMachine config).initial schedule := by
  have preserved :
      (lockMachine config).Preserved
        fun state : RpcServer κ Buffer V × ℕ =>
          state.2 ≤ state.1.runs.length := by
    intro state event next outdated stepped
    obtain ⟨taken, count⟩ := Machine.watched_step_iff.mp stepped
    rw [count]
    exact (unlockedRuns_le outdated event).trans (runs_length_of_step taken)
  refine Machine.throughout_congr _ _ preserved ?_ (Nat.zero_le _) execution
  intro state event next outdated stepped
  exact releasesLock_iff outdated (Machine.watched_step_iff.mp stepped).1

end Rpc.RpcServer

/-! ## The job server -/

namespace Jobs.JobRun

variable {κ V : Type}

def correlationId : JobRun κ V → κ
  | .undeserialized correlationId => correlationId
  | .attempt run => run.correlationId

def HasEnded : JobRun κ V → Prop
  | .undeserialized _ => True
  | .attempt run => run.phase = .ended

end Jobs.JobRun

namespace Jobs.JobServer

variable {κ Buffer V : Type} [DecidableEq κ] [DecidableEq Buffer] [DecidableEq V]

/-- How many runs there were when all messages were unlocked for the last
time. -/
def unlockedRuns
    (count : ℕ) (server : JobServer κ Buffer V) :
    JobServerEvent κ Buffer V → ℕ
  | .amqpReconnected | .amqpChannelRecreated =>
      if server.state = .listening then server.runs.length else count
  | _ => count

/-- The server and the number of runs that an `unlockAll` has outdated. -/
def lockMachine (config : JobServerConfig Buffer V) :
    Machine (JobServer κ Buffer V × ℕ) (JobServerEvent κ Buffer V) :=
  (machine config).watched unlockedRuns 0

/-- A later message with this correlation id is processed. -/
def Processes
    (config : JobServerConfig Buffer V) (server : JobServer κ Buffer V)
    (correlationId : κ) : Prop :=
  ∀ (message : Message κ Buffer) (tag : DeliveryTag),
    message.correlationId = correlationId →
      (server.handleJobMessage config message tag).runs =
        server.runs ++ [server.startRun config message]

/-- A run that ends in this step leaves its correlation id unlocked, unless the
server has been disposed of or has unlocked all messages in the meantime. -/
def ReleasesLock
    (config : JobServerConfig Buffer V) (state : JobServer κ Buffer V × ℕ)
    (event : JobServerEvent κ Buffer V) : Prop :=
  ∀ next, state.1.step config event = some next →
    next.state ≠ .disposed →
      ∀ index jobRun, state.2 ≤ index →
        Ends JobRun.HasEnded state.1.runs next.runs index jobRun →
          next.messageRelevancyChecker.correlationIds jobRun.correlationId =
              none ∧
            Processes config next jobRun.correlationId

/-- The step does not make a run leave with its lock: messages that take a lock
can be deserialized, and the default `scheduler.retry()` does not reject as long
as the lock is held. -/
def Unhindered
    (config : JobServerConfig Buffer V) (state : JobServer κ Buffer V × ℕ) :
    JobServerEvent κ Buffer V → Prop
  | .jobMessage message _ =>
      state.1.messageRelevancyChecker.correlationIds message.correlationId =
          none →
        config.jsonBufferSerializer.deserialize message.content ≠ none
  | .attempt index .defaultRetrySettled =>
      state.2 ≤ index → state.1.state ≠ .disposed →
        ∀ run call, state.1.runs[index]? = some (.attempt run) →
          run.phase = .retrying call → run.retries[call]? = some .rejected →
            state.1.messageRelevancyChecker.correlationIds run.correlationId =
              none
  | _ => True

omit [DecidableEq Buffer] [DecidableEq V] in
theorem processes_of_free
    (config : JobServerConfig Buffer V) (server : JobServer κ Buffer V)
    {correlationId : κ}
    (free :
      server.messageRelevancyChecker.correlationIds correlationId = none) :
    Processes config server correlationId := by
  intro message tag same
  subst same
  simp [handleJobMessage, MessageRelevancyChecker.lock, free]

section

omit [DecidableEq κ] [DecidableEq Buffer] [DecidableEq V]

theorem startRun_correlationId
    (config : JobServerConfig Buffer V) (server : JobServer κ Buffer V)
    (message : Message κ Buffer) :
    (server.startRun config message).correlationId = message.correlationId := by
  unfold startRun
  split
  · rfl
  · exact (AttemptRun.start_cases _ _ _).1

theorem start_not_ended
    {surroundings : Surroundings Buffer V}
    (live : surroundings.isDisposed = false)
    (correlationId : κ) (context : SerializedContext V) :
    (AttemptRun.start surroundings correlationId context).phase ≠ .ended := by
  unfold AttemptRun.start
  dsimp only
  split
  · simp
  · split <;> simp
  · simp [AttemptRun.catchError, live]

theorem startRun_hasEnded_iff
    {config : JobServerConfig Buffer V} {server : JobServer κ Buffer V}
    (listening : server.state = .listening) (message : Message κ Buffer) :
    (server.startRun config message).HasEnded ↔
      config.jsonBufferSerializer.deserialize message.content = none := by
  unfold startRun
  split
  · rename_i undeserialized
    exact iff_of_true trivial undeserialized
  · rename_i context deserialized
    refine iff_of_false ?_ (by simp [deserialized])
    exact start_not_ended (by simp [surroundings, listening]) _ _

theorem catchError_not_ended
    {surroundings : Surroundings Buffer V}
    (live : surroundings.isDisposed = false) (run : AttemptRun κ V) :
    (run.catchError surroundings).phase ≠ .ended := by
  simp [AttemptRun.catchError, live]

end

omit [DecidableEq Buffer] [DecidableEq V] in
/-- A step of a run that ends it frees its correlation id, unless the run leaves
by an exception while the id is locked. -/
theorem releases_steps
    {config : JobServerConfig Buffer V} {server : JobServer κ Buffer V}
    {index : ℕ} {event : AttemptEvent V} {run following : AttemptRun κ V}
    {effects : List (Effect κ Buffer)}
    (present : server.runs[index]? = some (.attempt run))
    (stepped :
      run.Steps (server.surroundings config run.correlationId) event following
        effects)
    (live : server.state ≠ .disposed) {since : ℕ} (recent : since ≤ index) :
    (following.phase = .ended → run.phase ≠ .ended →
        (effects.foldl apply
            { server with
              runs :=
                server.runs.set index
                  (.attempt following) }).messageRelevancyChecker.correlationIds
            run.correlationId = none) ↔
      Unhindered config (server, since) (.attempt index event) := by
  have notDisposed :
      (server.surroundings config run.correlationId).isDisposed = false := by
    simp [surroundings, live]
  cases stepped with
  | handlerResolved => exact iff_of_true (by simp) trivial
  | handlerRejected =>
      refine iff_of_true ?_ trivial
      exact fun ended => absurd ended (catchError_not_ended notDisposed _)
  | handlerTimedOut =>
      refine iff_of_true ?_ trivial
      exact fun ended => absurd ended (catchError_not_ended notDisposed _)
  | handleErrorResolved => exact iff_of_true (by simp) trivial
  | handleErrorDisposed hasHandleError handlingError disposed =>
      rw [notDisposed] at disposed
      cases disposed
  | handleErrorRejected =>
      refine iff_of_true ?_ trivial
      intro ended
      rw [AttemptRun.callRetry_phase] at ended
      cases ended
  | retryCalled =>
      refine iff_of_true ?_ trivial
      intro ended working
      rw [AttemptRun.callRetry_phase] at ended
      exact absurd ended working
  | discardCalled =>
      refine iff_of_true ?_ trivial
      intro ended working
      rw [AttemptRun.discard_phase] at ended
      exact absurd ended working
  | dataChanged =>
      exact iff_of_true (fun ended working => absurd ended working) trivial
  | retryContextChanged =>
      exact iff_of_true (fun ended working => absurd ended working) trivial
  | retryPublished =>
      exact iff_of_true (fun ended working => absurd ended working) trivial
  | retryNotPublished =>
      exact iff_of_true (fun ended working => absurd ended working) trivial
  | sendConfirmed =>
      exact iff_of_true (fun ended working => absurd ended working) trivial
  | sendFailed =>
      exact iff_of_true (fun ended working => absurd ended working) trivial
  | defaultRetryResolved call retrying resolved =>
      refine iff_of_true (by simp) ?_
      intro _ _ other place found itsPhase rejected
      cases Option.some.inj (present.symm.trans found)
      rw [retrying] at itsPhase
      cases itsPhase
      rw [resolved] at rejected
      cases rejected
  | defaultRetryRejected call retrying rejected =>
      constructor
      · intro free _ _ other place found _ _
        cases Option.some.inj (present.symm.trans found)
        refine free rfl ?_
        simp [retrying]
      · intro unhindered _ _
        exact unhindered recent live run call present retrying rejected
  | proceedDisposed processed disposed =>
      rw [notDisposed] at disposed
      cases disposed
  | proceedAcknowledging => exact iff_of_true (by simp) trivial
  | proceedUnlocking =>
      refine iff_of_true ?_ trivial
      intro _ _
      simp [apply, MessageRelevancyChecker.unlock]
  | acknowledgeSettled =>
      refine iff_of_true ?_ trivial
      intro _ _
      simp [apply, MessageRelevancyChecker.unlock]

omit [DecidableEq Buffer] [DecidableEq V] in
theorem effects_state
    (server : JobServer κ Buffer V) (effects : List (Effect κ Buffer)) :
    (effects.foldl apply server).state = server.state := by
  induction effects generalizing server with
  | nil => rfl
  | cons effect rest inductionHypothesis =>
      rw [List.foldl_cons, inductionHypothesis]
      cases effect with
      | publish retryDelayMs message => rfl
      | acknowledge tag => rfl
      | unlock correlationId => rfl

/-- Without a run that ends, nothing is asked of a step. -/
theorem releasesLock_of_runs_eq
    {config : JobServerConfig Buffer V} {server next : JobServer κ Buffer V}
    {event : JobServerEvent κ Buffer V} {since : ℕ}
    (stepped : server.step config event = some next)
    (unchanged : next.runs = server.runs) :
    ReleasesLock config (server, since) event := by
  intro following taken _ index jobRun _ ends
  rw [stepped] at taken
  cases taken
  rw [unchanged] at ends
  exact absurd ends not_ends_self

theorem releasesLock_deliver_iff
    {config : JobServerConfig Buffer V} {server : JobServer κ Buffer V}
    {message : Message κ Buffer} {tag : DeliveryTag} {since : ℕ}
    (outdated : since ≤ server.runs.length)
    (listening : server.state = .listening)
    (stepped :
      server.step config (.jobMessage message tag) =
        some (server.handleJobMessage config message tag)) :
    ReleasesLock config (server, since) (.jobMessage message tag) ↔
      Unhindered config (server, since) (.jobMessage message tag) := by
  by_cases free :
      server.messageRelevancyChecker.correlationIds message.correlationId = none
  · have started :
        (server.handleJobMessage config message tag).runs =
          server.runs ++ [server.startRun config message] :=
      processes_of_free config server free message tag rfl
    have locked :
        (server.handleJobMessage config message
            tag).messageRelevancyChecker.correlationIds message.correlationId =
          some tag := by
      simp [handleJobMessage, MessageRelevancyChecker.lock]
    have itsState :
        (server.handleJobMessage config message tag).state = .listening :=
      listening
    have live :
        (server.handleJobMessage config message tag).state ≠ .disposed := by
      rw [itsState]
      decide
    constructor
    · intro releases _ undeserialized
      have ended : (server.startRun config message).HasEnded :=
        (startRun_hasEnded_iff listening message).mpr undeserialized
      have ends :
          Ends JobRun.HasEnded server.runs
            (server.handleJobMessage config message tag).runs
            server.runs.length (server.startRun config message) := by
        rw [started]
        exact ends_concat_iff.mpr ⟨rfl, rfl, ended⟩
      have released := (releases _ stepped live _ _ outdated ends).1
      rw [startRun_correlationId, locked] at released
      cases released
    · intro unhindered next taken _ index run _ ends
      rw [stepped] at taken
      cases taken
      rw [started] at ends
      obtain ⟨_, same, ended⟩ := ends_concat_iff.mp ends
      exact absurd ((startRun_hasEnded_iff listening message).mp ended)
        (unhindered free)
  · refine iff_of_true (releasesLock_of_runs_eq stepped ?_) ?_
    · have taken :
          (server.messageRelevancyChecker.correlationIds
            message.correlationId).isNone = false :=
        Bool.eq_false_of_not_eq_true fun none =>
          free (Option.isNone_iff_eq_none.mp none)
      simp [handleJobMessage, MessageRelevancyChecker.lock, taken]
    · exact fun isFree => absurd isFree free

omit [DecidableEq κ] [DecidableEq Buffer] [DecidableEq V] in
theorem unhindered_attempt_of_vacuous
    {config : JobServerConfig Buffer V} {server : JobServer κ Buffer V}
    {index : ℕ} {event : AttemptEvent V} {since : ℕ}
    (vacuous : ¬ (since ≤ index ∧ server.state ≠ .disposed)) :
    Unhindered config (server, since) (.attempt index event) := by
  cases event with
  | defaultRetrySettled =>
      exact fun recent live => absurd ⟨recent, live⟩ vacuous
  | _ => trivial

theorem releasesLock_attempt_iff
    {config : JobServerConfig Buffer V} {server : JobServer κ Buffer V}
    {index : ℕ} {event : AttemptEvent V} {since : ℕ}
    {run following : AttemptRun κ V} {effects : List (Effect κ Buffer)}
    (present : server.runs[index]? = some (.attempt run))
    (taken :
      run.Steps (server.surroundings config run.correlationId) event following
        effects)
    (stepped :
      server.step config (.attempt index event) =
        some
          (effects.foldl apply
            { server with
              runs := server.runs.set index (.attempt following) })) :
    ReleasesLock config (server, since) (.attempt index event) ↔
      Unhindered config (server, since) (.attempt index event) := by
  have runs :
      (effects.foldl apply
          { server with
            runs := server.runs.set index (.attempt following) }).runs =
        server.runs.set index (.attempt following) :=
    runs_effects _ effects
  have state :
      (effects.foldl apply
          { server with
            runs := server.runs.set index (.attempt following) }).state =
        server.state :=
    effects_state _ effects
  by_cases asked : since ≤ index ∧ server.state ≠ .disposed
  · obtain ⟨recent, live⟩ := asked
    rw [← releases_steps present taken live recent]
    constructor
    · intro releases ended working
      have ends :
          Ends JobRun.HasEnded server.runs
            (effects.foldl apply
              { server with
                runs := server.runs.set index (.attempt following) }).runs
            index (.attempt following) := by
        rw [runs]
        exact (ends_set_iff present).mpr ⟨rfl, rfl, ended, working⟩
      have released :=
        (releases _ stepped (by rw [state]; exact live) _ _ recent ends).1
      rw [JobRun.correlationId, AttemptRun.correlationId_steps taken] at released
      exact released
    · intro released next same _ place leaving _ ends
      rw [stepped] at same
      cases same
      rw [runs] at ends
      obtain ⟨_, itself, ended, working⟩ := (ends_set_iff present).mp ends
      subst itself
      have free := released ended working
      rw [← AttemptRun.correlationId_steps taken] at free
      exact ⟨free, processes_of_free config _ free⟩
  · refine iff_of_true ?_ (unhindered_attempt_of_vacuous asked)
    intro next same live place leaving recent ends
    rw [stepped] at same
    cases same
    rw [runs] at ends
    obtain ⟨own, _⟩ := (ends_set_iff present).mp ends
    subst own
    rw [state] at live
    exact absurd ⟨recent, live⟩ asked

/-- One step of the server releases the locks of the runs that it ends exactly
when it is unhindered. -/
theorem releasesLock_iff
    {config : JobServerConfig Buffer V} {server next : JobServer κ Buffer V}
    {event : JobServerEvent κ Buffer V} {since : ℕ}
    (outdated : since ≤ server.runs.length)
    (stepped : server.step config event = some next) :
    ReleasesLock config (server, since) event ↔
      Unhindered config (server, since) event := by
  cases event with
  | jobMessage message tag =>
      have moved := stepped
      simp only [step] at stepped
      split at stepped
      · rename_i accepted
        cases stepped
        exact releasesLock_deliver_iff outdated accepted.1 moved
      · cases stepped
  | attempt index event =>
      obtain ⟨run, following, effects, present, taken, same⟩ :=
        stepAttempt_cases stepped
      subst same
      exact releasesLock_attempt_iff present taken stepped
  | _ =>
      have unchanged : next.runs = server.runs :=
        runs_eq_of_step stepped (by simp) (by simp)
      exact iff_of_true (releasesLock_of_runs_eq stepped unchanged) trivial

theorem runs_length_of_step
    {config : JobServerConfig Buffer V} {server next : JobServer κ Buffer V}
    {event : JobServerEvent κ Buffer V}
    (stepped : server.step config event = some next) :
    server.runs.length ≤ next.runs.length := by
  cases event with
  | jobMessage message tag =>
      simp only [step] at stepped
      split at stepped
      · cases stepped
        simp only [handleJobMessage]
        split
        · simp
        · exact Nat.le_refl _
      · cases stepped
  | attempt index event =>
      obtain ⟨run, following, effects, _, _, same⟩ := stepAttempt_cases stepped
      subst same
      rw [runs_effects]
      simp
  | _ => rw [runs_eq_of_step stepped (by simp) (by simp)]

omit [DecidableEq κ] [DecidableEq Buffer] [DecidableEq V] in
theorem unlockedRuns_le
    {count : ℕ} {server : JobServer κ Buffer V}
    (outdated : count ≤ server.runs.length)
    (event : JobServerEvent κ Buffer V) :
    unlockedRuns count server event ≤ server.runs.length := by
  unfold unlockedRuns
  split
  · split
    · exact Nat.le_refl _
    · exact outdated
  · split
    · exact Nat.le_refl _
    · exact outdated
  · exact outdated

/-- The server releases the lock of every run that ends exactly when none of its
steps is hindered. -/
theorem releasesLock_throughout_iff
    {config : JobServerConfig Buffer V}
    {schedule : List (JobServerEvent κ Buffer V)}
    {state : JobServer κ Buffer V × ℕ}
    (execution :
      (lockMachine config).run (lockMachine config).initial schedule =
        some state) :
    (lockMachine config).Throughout (ReleasesLock config)
        (lockMachine config).initial schedule ↔
      (lockMachine config).Throughout (Unhindered config)
        (lockMachine config).initial schedule := by
  have preserved :
      (lockMachine config).Preserved
        fun state : JobServer κ Buffer V × ℕ =>
          state.2 ≤ state.1.runs.length := by
    intro state event next outdated stepped
    obtain ⟨taken, count⟩ := Machine.watched_step_iff.mp stepped
    rw [count]
    exact (unlockedRuns_le outdated event).trans (runs_length_of_step taken)
  refine Machine.throughout_congr _ _ preserved ?_ (Nat.zero_le _) execution
  intro state event next outdated stepped
  exact releasesLock_iff outdated (Machine.watched_step_iff.mp stepped).1

end Jobs.JobServer

/-! ## Both servers -/

section Servers

variable {κ Buffer V : Type} [DecidableEq κ] [DecidableEq Buffer] [DecidableEq V]
variable {κ' Buffer' V' : Type} [DecidableEq κ'] [DecidableEq V']

/-- Either server releases the lock of every run that ends, as long as it is not
disposed of and does not unlock all messages, exactly when each message that
takes a lock can be read and no run fails to publish its retry or its reply
while the lock is held. -/
theorem locks_released_iff_unhindered
    (jobConfig : Jobs.JobServerConfig Buffer V)
    (jobSchedule : List (Jobs.JobServerEvent κ Buffer V))
    (jobServer : Jobs.JobServer κ Buffer V)
    (jobExecution :
      (Jobs.JobServer.machine jobConfig).run
          (Jobs.JobServer.machine jobConfig).initial jobSchedule =
        some jobServer)
    (rpcConfig : Rpc.RpcServerConfig Buffer' V')
    (rpcSchedule : List (Rpc.RpcServerEvent κ' Buffer' V'))
    (rpcServer : Rpc.RpcServer κ' Buffer' V')
    (rpcExecution :
      (Rpc.RpcServer.machine rpcConfig).run
          (Rpc.RpcServer.machine rpcConfig).initial rpcSchedule =
        some rpcServer) :
    ((Jobs.JobServer.lockMachine jobConfig).Throughout
          (Jobs.JobServer.ReleasesLock jobConfig)
          (Jobs.JobServer.lockMachine jobConfig).initial jobSchedule ↔
        (Jobs.JobServer.lockMachine jobConfig).Throughout
          (Jobs.JobServer.Unhindered jobConfig)
          (Jobs.JobServer.lockMachine jobConfig).initial jobSchedule) ∧
      ((Rpc.RpcServer.lockMachine rpcConfig).Throughout
          (Rpc.RpcServer.ReleasesLock rpcConfig)
          (Rpc.RpcServer.lockMachine rpcConfig).initial rpcSchedule ↔
        (Rpc.RpcServer.lockMachine rpcConfig).Throughout
          (Rpc.RpcServer.Unhindered rpcConfig)
          (Rpc.RpcServer.lockMachine rpcConfig).initial rpcSchedule) := by
  obtain ⟨jobCount, jobWatched⟩ :=
    Machine.exists_run_watched Jobs.JobServer.unlockedRuns 0 jobExecution 0
  obtain ⟨rpcCount, rpcWatched⟩ :=
    Machine.exists_run_watched Rpc.RpcServer.unlockedRuns 0 rpcExecution 0
  exact ⟨Jobs.JobServer.releasesLock_throughout_iff jobWatched,
    Rpc.RpcServer.releasesLock_throughout_iff rpcWatched⟩

end Servers

/-- The handler of a first attempt and the default retry both reject. -/
def failedRetry :
    List (Jobs.JobServerEvent ℕ (Jobs.SerializedContext ℤ) ℤ) :=
  Jobs.JobServer.firstDelivery ++
    [.attempt 0 (.handlerSettled .rejected),
      .attempt 0 (.handleErrorSettled .rejected),
      .attempt 0 (.retryQueueSettled 0 .rejected)]

/-- A command is handled and its reply is sent. -/
def sentReply : List (Rpc.RpcServerEvent ℕ ℤ ℤ) :=
  Rpc.RpcServer.firstDelivery ++
    [.command 0 (.handlerSettled (.resolved (some 3))), .command 0 .proceed]

/-- The default retry is published and the attempt is acknowledged. -/
def endedAttempt :
    List (Jobs.JobServerEvent ℕ (Jobs.SerializedContext ℤ) ℤ) :=
  Jobs.JobServer.firstDelivery ++
    [.attempt 0 (.handlerSettled .rejected),
      .attempt 0 (.handleErrorSettled .rejected),
      .attempt 0 (.retryQueueSettled 0 .fulfilled),
      .attempt 0 (.sendSettled 0 .fulfilled),
      .attempt 0 .defaultRetrySettled, .attempt 0 .proceed,
      .attempt 0 (.acknowledgeSettled .fulfilled)]

/-- The reply has been sent and the command is acknowledged. -/
def endedCommand : List (Rpc.RpcServerEvent ℕ ℤ ℤ) :=
  sentReply ++
    [.command 0 (.replySettled .fulfilled), .command 0 .proceed,
      .command 0 (.acknowledgeSettled .fulfilled)]

theorem locks_released_iff_unhindered_first :
    ∃ (jobServer : Jobs.JobServer ℕ (Jobs.SerializedContext ℤ) ℤ)
      (rpcServer : Rpc.RpcServer ℕ ℤ ℤ),
      (Jobs.JobServer.machine Jobs.JobServer.integerConfig).run
          (Jobs.JobServer.machine Jobs.JobServer.integerConfig).initial
          endedAttempt = some jobServer ∧
        (∀ run ∈ jobServer.runs, Jobs.JobRun.HasEnded run) ∧
        (Jobs.JobServer.lockMachine Jobs.JobServer.integerConfig).Throughout
          (Jobs.JobServer.ReleasesLock Jobs.JobServer.integerConfig)
          (Jobs.JobServer.lockMachine Jobs.JobServer.integerConfig).initial
          endedAttempt ∧
        (Rpc.RpcServer.machine Rpc.RpcServer.integerConfig).run
            (Rpc.RpcServer.machine Rpc.RpcServer.integerConfig).initial
            endedCommand = some rpcServer ∧
        rpcServer.runs.map Rpc.CommandRun.phase = [.ended] ∧
        (Rpc.RpcServer.lockMachine Rpc.RpcServer.integerConfig).Throughout
          (Rpc.RpcServer.ReleasesLock Rpc.RpcServer.integerConfig)
          (Rpc.RpcServer.lockMachine Rpc.RpcServer.integerConfig).initial
          endedCommand := by
  obtain ⟨jobs, commands⟩ :=
    locks_released_iff_unhindered
      Jobs.JobServer.integerConfig endedAttempt _ rfl
      Rpc.RpcServer.integerConfig endedCommand _ rfl
  refine ⟨_, _, rfl, ?_, jobs.mpr ?_, rfl, rfl, commands.mpr ?_⟩
  · intro run member
    cases List.mem_singleton.mp member
    rfl
  · refine Machine.throughout_cons trivial rfl ?_
    refine Machine.throughout_cons trivial rfl ?_
    refine Machine.throughout_cons trivial rfl ?_
    refine Machine.throughout_cons (fun _ absent => by cases absent) rfl ?_
    refine Machine.throughout_cons trivial rfl ?_
    refine Machine.throughout_cons trivial rfl ?_
    refine Machine.throughout_cons trivial rfl ?_
    refine Machine.throughout_cons trivial rfl ?_
    refine Machine.throughout_cons ?_ rfl ?_
    · intro _ _ run call present retrying rejected
      cases present
      cases retrying
      cases rejected
    refine Machine.throughout_cons trivial rfl ?_
    exact Machine.throughout_cons trivial rfl trivial
  · refine Machine.throughout_cons trivial rfl ?_
    refine Machine.throughout_cons trivial rfl ?_
    refine Machine.throughout_cons (fun _ => rfl) rfl ?_
    refine Machine.throughout_cons trivial rfl ?_
    refine Machine.throughout_cons ?_ rfl ?_
    · intro _ _ run reply present handled unserialized
      cases present
      cases handled
      cases unserialized
    refine Machine.throughout_cons trivial rfl ?_
    refine Machine.throughout_cons ?_ rfl ?_
    · intro _ _ run reply present handled
      cases present
      cases handled
    exact Machine.throughout_cons trivial rfl trivial

/-- The retry and the reply are not published, and both runs leave with their
locks. -/
theorem failed_publication_keeps_lock :
    ¬ ((∀ (config :
            Jobs.JobServerConfig (Jobs.SerializedContext ℤ) ℤ)
          (schedule :
            List (Jobs.JobServerEvent ℕ (Jobs.SerializedContext ℤ) ℤ)),
          (Jobs.JobServer.lockMachine config).Throughout
            (Jobs.JobServer.ReleasesLock config)
            (Jobs.JobServer.lockMachine config).initial schedule) ∨
        ∀ (config : Rpc.RpcServerConfig ℤ ℤ)
          (schedule : List (Rpc.RpcServerEvent ℕ ℤ ℤ)),
          (Rpc.RpcServer.lockMachine config).Throughout
            (Rpc.RpcServer.ReleasesLock config)
            (Rpc.RpcServer.lockMachine config).initial schedule) := by
  intro always
  rcases always with jobs | commands
  · have condition :=
      jobs Jobs.JobServer.integerConfig
        (failedRetry ++ [.attempt 0 .defaultRetrySettled])
    have releases := Machine.throughout_last condition rfl
    have freed :=
      (releases _ rfl (fun disposed => by cases disposed) 0 _ (Nat.zero_le _)
        ⟨rfl, rfl, by
          intro before found ended
          cases found
          cases ended⟩).1
    cases freed
  · have condition :=
      commands Rpc.RpcServer.integerConfig
        (sentReply ++ [.command 0 (.replySettled .rejected)])
    have releases := Machine.throughout_last condition rfl
    have freed :=
      (releases _ rfl (fun disposed => by cases disposed) 0 _ (Nat.zero_le _)
        ⟨rfl, rfl, by
          intro before found ended
          cases found
          cases ended⟩).1
    cases freed

end Amq
