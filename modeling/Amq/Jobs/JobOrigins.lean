import Amq.Jobs.JobSystem

/-!
# Where jobs come from

Whatever is retried, redelivered or handled by another server, a run handles a
job that a client has enqueued, with the data that the client has given it unless
user code changes data in place.
-/


namespace Amq.Jobs

open Function Amq.Transition Amq.Broker

section Runs

variable {κ Buffer V : Type}

/-- The same job at whatever attempt, and with the same data if those are left
alone. -/
def SameJob (untouched : Prop) (one two : SerializedContext V) : Prop :=
  two.job = one.job ∧ (untouched → two.data = one.data)

theorem SameJob.trans
    {untouched : Prop} {one two three : SerializedContext V}
    (first : SameJob untouched one two) (second : SameJob untouched two three) :
    SameJob untouched one three :=
  ⟨second.1.trans first.1, fun kept => (second.2 kept).trans (first.2 kept)⟩

theorem SameJob.mono
    {untouched before : Prop} {one two : SerializedContext V}
    (same : SameJob before one two) (earlier : untouched → before) :
    SameJob untouched one two :=
  ⟨same.1, fun kept => same.2 (earlier kept)⟩

namespace AttemptRun

/-- The data of the run have not been changed in place. -/
def IsUntouched (run : AttemptRun κ V) : Prop :=
  ∀ data, .dataChanged data ∉ run.history

/-- What the run sends is the job that it handles. -/
structure KeepsJob (run : AttemptRun κ V) : Prop where
  itsJob : run.scheduler.job = run.context.job
  itsData : run.IsUntouched → run.scheduler.data = run.context.data
  published :
    ∀ call message, .published call message ∈ run.history →
      SameJob run.IsUntouched run.context message

theorem IsUntouched.of_append
    {run next : AttemptRun κ V} {added : List (Observation V)}
    (untouched : next.IsUntouched) (history : next.history = added ++ run.history) :
    run.IsUntouched := by
  intro data member
  apply untouched data
  rw [history]
  exact List.mem_append_right _ member

/-- A step that publishes the job at most and leaves its data alone. -/
theorem KeepsJob.pass
    {run next : AttemptRun κ V} (keeps : run.KeepsJob)
    (added : List (Observation V))
    (history : next.history = added ++ run.history)
    (context : next.context = run.context)
    (itsJob : next.scheduler.job = run.scheduler.job)
    (itsData : next.scheduler.data = run.scheduler.data)
    (published :
      ∀ call message, .published call message ∈ added →
        SameJob run.IsUntouched run.context message) :
    next.KeepsJob where
  itsJob := by
    rw [context, itsJob]
    exact keeps.itsJob
  itsData untouched := by
    rw [context, itsData]
    exact keeps.itsData (untouched.of_append history)
  published call message member := by
    have same : SameJob run.IsUntouched run.context message := by
      rw [history] at member
      rcases List.mem_append.mp member with new | old
      · exact published call message new
      · exact keeps.published call message old
    rw [context]
    exact same.mono fun untouched => untouched.of_append history

theorem KeepsJob.discard
    {run : AttemptRun κ V} (keeps : run.KeepsJob) (reason : DiscardReason) :
    (run.discard reason).KeepsJob := by
  have history := discard_history run reason
  by_cases discarded : run.scheduler.isDiscarded = true
  · rw [if_pos discarded] at history
    exact keeps.pass [] history (by simp) (by simp) (by simp) (by simp)
  · rw [if_neg discarded] at history
    exact keeps.pass [.discardReported reason] history (by simp) (by simp)
      (by simp) (by simp)

theorem KeepsJob.catchError
    {run : AttemptRun κ V} (keeps : run.KeepsJob)
    (surroundings : Surroundings Buffer V) :
    (run.catchError surroundings).KeepsJob :=
  keeps.pass [] (by simp) (by simp) (by simp) (by simp) (by simp)

theorem KeepsJob.callRetry
    {run : AttemptRun κ V} (keeps : run.KeepsJob)
    (surroundings : Surroundings Buffer V) (options : RetryOptions V)
    (isDefault : Bool) :
    (run.callRetry surroundings options isDefault).KeepsJob := by
  obtain ⟨itsJob, itsData, _⟩ :=
    callRetry_scheduler surroundings run options isDefault
  have context := callRetry_context surroundings run options isDefault
  rcases callRetry_added surroundings run options isDefault with
    history | history
  · exact keeps.pass [.retryCalled run.retries.length isDefault] history context
      itsJob itsData (by simp)
  · exact keeps.pass
      [.discardReported .maxAttemptCountReached,
        .retryCalled run.retries.length isDefault]
      history context itsJob itsData (by simp)

theorem keepsJob_start
    (surroundings : Surroundings Buffer V) (correlationId : κ)
    (context : SerializedContext V) :
    (start surroundings correlationId context).KeepsJob := by
  have nothing :
      ∀ (phase : AttemptPhase) (isExposed : Bool) (history : List (Observation V)),
        (∀ call message, .published call message ∉ history) →
          KeepsJob
            { correlationId := correlationId
              context := context
              scheduler := Scheduler.create context correlationId
              phase := phase
              isExposed := isExposed
              retries := []
              history := history } := by
    intro phase isExposed history unpublished
    refine ⟨rfl, fun _ => rfl, ?_⟩
    intro call message member
    exact absurd member (unpublished call message)
  unfold start
  dsimp only
  split
  · exact (nothing .processed false [.attemptExceeded] (by simp)).discard _
  · split
    · exact nothing _ true [] (by simp)
    · exact nothing _ false [] (by simp)
  · exact (nothing .processed false [] (by simp)).catchError surroundings

theorem keepsJob_steps
    {surroundings : Surroundings Buffer V} {run next : AttemptRun κ V}
    {event : AttemptEvent V} {effects : List (Effect κ Buffer)}
    (keeps : run.KeepsJob)
    (stepped : Steps surroundings run event next effects) : next.KeepsJob := by
  cases stepped with
  | handlerResolved hasTimer handling =>
      exact keeps.pass [.handlerResolved] rfl rfl rfl rfl (by simp)
  | handlerRejected hasHandler hasTimer handling =>
      exact keeps.catchError surroundings
  | handlerTimedOut hasHandler handling =>
      have timedOut :
          KeepsJob { run with history := .handlerTimedOut :: run.history } :=
        keeps.pass [.handlerTimedOut] rfl rfl rfl rfl (by simp)
      exact timedOut.catchError surroundings
  | handleErrorResolved handlingError =>
      exact keeps.pass [.handleErrorResolved] rfl rfl rfl rfl (by simp)
  | handleErrorDisposed hasHandleError handlingError disposed =>
      exact keeps.pass [] rfl rfl rfl rfl (by simp)
  | handleErrorRejected hasHandleError handlingError live =>
      have emitted :
          KeepsJob
            { run with
              phase := .retrying run.retries.length
              history := .jobErrorEmitted :: run.history } :=
        keeps.pass [.jobErrorEmitted] rfl rfl rfl rfl (by simp)
      exact emitted.callRetry surroundings defaultRetryOptions true
  | retryCalled options exposed =>
      exact keeps.callRetry surroundings options false
  | discardCalled exposed => exact keeps.discard .givenByUser
  | dataChanged data changeable =>
      refine ⟨keeps.itsJob, ?_, ?_⟩
      · intro untouched
        exact absurd List.mem_cons_self (untouched data)
      · intro call message member
        have old := List.mem_of_ne_of_mem (by simp) member
        refine (keeps.published call message old).mono ?_
        exact fun untouched => absurd List.mem_cons_self (untouched data)
  | retryContextChanged call nextAttempt passed retryContext retryDelayMs creating
      changeable =>
      exact keeps.pass [] rfl rfl rfl rfl (by simp)
  | retryPublished call nextAttempt retryContext retryDelayMs content creating
      serialized =>
      refine keeps.pass [.published call _] rfl rfl rfl rfl ?_
      intro other itself member
      cases List.mem_singleton.mp member
      exact ⟨keeps.itsJob, keeps.itsData⟩
  | retryNotPublished call nextAttempt retryContext retryDelayMs settlement
      creating =>
      exact keeps.pass [] rfl rfl rfl rfl (by simp)
  | sendConfirmed call message retryDelayMs sending =>
      exact keeps.pass [.publishConfirmed call] rfl rfl rfl rfl (by simp)
  | sendFailed call message retryDelayMs sending =>
      exact keeps.pass [] rfl rfl rfl rfl (by simp)
  | defaultRetryResolved call retrying resolved =>
      exact keeps.pass [.defaultRetryResolved call] rfl rfl rfl rfl (by simp)
  | defaultRetryRejected call retrying rejected =>
      exact keeps.pass [.defaultRetryRejected call] rfl rfl rfl rfl (by simp)
  | proceedDisposed processed disposed =>
      exact keeps.pass [] rfl rfl rfl rfl (by simp)
  | proceedAcknowledging tag processed live actual =>
      exact keeps.pass [.acknowledged tag] rfl rfl rfl rfl (by simp)
  | proceedUnlocking processed live actual =>
      exact keeps.pass [] rfl rfl rfl rfl (by simp)
  | acknowledgeSettled tag settlement acknowledging =>
      exact keeps.pass [] rfl rfl rfl rfl (by simp)

end AttemptRun

end Runs

namespace JobServer

variable {κ Buffer V : Type} [DecidableEq κ] [DecidableEq Buffer] [DecidableEq V]
variable {config : JobServerConfig Buffer V} {server next : JobServer κ Buffer V}

/-- The run handles what was read from the message. -/
def StartedFor
    (config : JobServerConfig Buffer V) (message : Message κ Buffer)
    (run : AttemptRun κ V) : Prop :=
  run.correlationId = message.correlationId ∧
    config.jsonBufferSerializer.deserialize message.content = some run.context

omit [DecidableEq κ] [DecidableEq Buffer] [DecidableEq V] in
theorem startedFor_of_startRun
    {message : Message κ Buffer} {run : AttemptRun κ V}
    (started : .attempt run = server.startRun config message) :
    run.KeepsJob ∧ StartedFor config message run := by
  unfold startRun at started
  split at started
  · cases started
  · rename_i context deserialized
    cases started
    obtain ⟨itsId, itsContext, _⟩ :=
      AttemptRun.start_cases (server.surroundings config message.correlationId)
        message.correlationId context
    refine ⟨AttemptRun.keepsJob_start _ _ _, itsId, ?_⟩
    rw [itsContext]
    exact deserialized

/-- Where a run comes from, and what it keeps of that. -/
theorem origin_of_run
    {event : JobServerEvent κ Buffer V}
    (stepped : server.step config event = some next)
    (keeps : ∀ run, .attempt run ∈ server.runs → run.KeepsJob)
    {run : AttemptRun κ V} (member : .attempt run ∈ next.runs) :
    run.KeepsJob ∧
      ((∃ old, .attempt old ∈ server.runs ∧
          run.correlationId = old.correlationId ∧ run.context = old.context) ∨
        ∃ message tag, event = .jobMessage message tag ∧
          StartedFor config message run) := by
  have earlier :
      .attempt run ∈ server.runs →
        run.KeepsJob ∧
          ((∃ old, .attempt old ∈ server.runs ∧
              run.correlationId = old.correlationId ∧
              run.context = old.context) ∨
            ∃ message tag, event = .jobMessage message tag ∧
              StartedFor config message run) :=
    fun old => ⟨keeps run old, Or.inl ⟨run, old, rfl, rfl⟩⟩
  cases moves_of_step stepped with
  | administers undisturbed =>
      rw [undisturbed.runs] at member
      exact earlier member
  | delivers message tag =>
      rcases mem_runs_handleJobMessage member with old | started
      · exact earlier old
      · obtain ⟨itsJob, startedFor⟩ := startedFor_of_startRun started
        exact ⟨itsJob, Or.inr ⟨message, tag, rfl, startedFor⟩⟩
  | @steps index event old following effects present taken =>
      rw [runs_effects] at member
      rcases List.mem_or_eq_of_mem_set member with kept | moved
      · exact earlier kept
      · cases moved
        have itself := List.mem_of_getElem? present
        exact ⟨AttemptRun.keepsJob_steps (keeps old itself) taken,
          Or.inl ⟨old, itself, AttemptRun.correlationId_steps taken,
            AttemptRun.context_steps taken⟩⟩

end JobServer

namespace JobSystem

variable {ι κ Buffer V : Type}
variable [DecidableEq ι] [DecidableEq κ] [DecidableEq Buffer] [DecidableEq V]
variable {config : ι → JobServerConfig Buffer V}
variable {serializer : JsonBufferSerializer Buffer (SerializedContext V)}
variable {system next : JobSystem ι κ Buffer V}

/-- The message, if it can be read, carries an enqueued job. -/
def CarriesEnqueued
    (serializer : JsonBufferSerializer Buffer (SerializedContext V))
    (untouched : Prop) (enqueued : List (Message κ Buffer))
    (message : Message κ Buffer) : Prop :=
  ∃ job ∈ enqueued, job.correlationId = message.correlationId ∧
    ∀ context, serializer.deserialize message.content = some context →
      ∃ first, serializer.deserialize job.content = some first ∧
        SameJob untouched first context

/-- The run handles an enqueued job. -/
def HandlesEnqueued
    (serializer : JsonBufferSerializer Buffer (SerializedContext V))
    (untouched : Prop) (enqueued : List (Message κ Buffer))
    (run : AttemptRun κ V) : Prop :=
  ∃ job ∈ enqueued, job.correlationId = run.correlationId ∧
    ∃ first, serializer.deserialize job.content = some first ∧
      SameJob untouched first run.context

/-- No run has had its data changed in place. -/
def IsUntouched (servers : ι → JobServer κ Buffer V) : Prop :=
  ∀ server run, .attempt run ∈ (servers server).runs → run.IsUntouched

structure Traced
    (serializer : JsonBufferSerializer Buffer (SerializedContext V))
    (system : JobSystem ι κ Buffer V) : Prop where
  accounted : system.queue.Accounted
  published :
    ∀ message ∈ system.queue.published,
      CarriesEnqueued serializer (IsUntouched system.servers) system.enqueued
        message
  runs :
    ∀ server run, .attempt run ∈ (system.servers server).runs →
      run.KeepsJob ∧
        HandlesEnqueued serializer (IsUntouched system.servers) system.enqueued
          run

omit [DecidableEq ι] [DecidableEq κ] [DecidableEq Buffer] [DecidableEq V] in
theorem traced_create
    (config : ι → JobServerConfig Buffer V)
    (serializer : JsonBufferSerializer Buffer (SerializedContext V)) :
    (create config : JobSystem ι κ Buffer V).Traced serializer where
  accounted := WorkQueue.accounted_empty
  published message member := by cases member
  runs server run member := by cases member

section

omit [DecidableEq κ] [DecidableEq Buffer] [DecidableEq V]

theorem CarriesEnqueued.mono
    {untouched before : Prop} {enqueued grown : List (Message κ Buffer)}
    {message : Message κ Buffer}
    (carries : CarriesEnqueued serializer before enqueued message)
    (earlier : untouched → before) (keeps : ∀ job ∈ enqueued, job ∈ grown) :
    CarriesEnqueued serializer untouched grown message := by
  obtain ⟨job, member, itsId, reads⟩ := carries
  refine ⟨job, keeps job member, itsId, ?_⟩
  intro context read
  obtain ⟨first, readFirst, same⟩ := reads context read
  exact ⟨first, readFirst, same.mono earlier⟩

theorem HandlesEnqueued.mono
    {untouched before : Prop} {enqueued grown : List (Message κ Buffer)}
    {run : AttemptRun κ V}
    (handles : HandlesEnqueued serializer before enqueued run)
    (earlier : untouched → before) (keeps : ∀ job ∈ enqueued, job ∈ grown) :
    HandlesEnqueued serializer untouched grown run := by
  obtain ⟨job, member, itsId, first, read, same⟩ := handles
  exact ⟨job, keeps job member, itsId, first, read, same.mono earlier⟩

theorem handlesEnqueued_of_startedFor
    {serverConfig : JobServerConfig Buffer V} {untouched : Prop}
    {enqueued : List (Message κ Buffer)}
    {message : Message κ Buffer} {run : AttemptRun κ V}
    (shared : serverConfig.jsonBufferSerializer = serializer)
    (carries : CarriesEnqueued serializer untouched enqueued message)
    (started : JobServer.StartedFor serverConfig message run) :
    HandlesEnqueued serializer untouched enqueued run := by
  obtain ⟨job, member, itsId, reads⟩ := carries
  obtain ⟨sameId, read⟩ := started
  rw [shared] at read
  exact ⟨job, member, itsId.trans sameId.symm, reads _ read⟩

end

/-- What was changed in place stays changed. -/
theorem isUntouched_of_serve
    {server : ι} {event : JobServerEvent κ Buffer V} {after : JobServer κ Buffer V}
    (stepped : (system.servers server).step (config server) event = some after)
    (untouched : IsUntouched (update system.servers server after)) :
    IsUntouched system.servers := by
  intro other run member
  by_cases same : other = server
  · subst same
    obtain ⟨index, inside, itself⟩ := List.mem_iff_getElem.mp member
    have present : (system.servers other).runs[index]? = some (.attempt run) := by
      rw [List.getElem?_eq_getElem inside, itself]
    obtain ⟨next, place, _, added, history, _⟩ :=
      (JobServer.moves_of_step stepped).run present
    have kept : next.IsUntouched := by
      apply untouched other next
      rw [update_self]
      exact List.mem_of_getElem? place
    exact kept.of_append history
  · apply untouched other run
    rw [update_of_ne same]
    exact member

theorem Traced.serve
    {server : ι} {event : JobServerEvent κ Buffer V}
    (traced : system.Traced serializer)
    (shared : ∀ server, (config server).jsonBufferSerializer = serializer)
    (served : system.serve config server event = some next)
    (carries :
      ∀ message tag, event = .jobMessage message tag →
        CarriesEnqueued serializer (IsUntouched system.servers) system.enqueued
          message) :
    next.Traced serializer := by
  obtain ⟨after, stepped, rfl⟩ := serve_cases served
  have earlier := isUntouched_of_serve stepped
  refine ⟨traced.accounted, ?_, ?_⟩
  · intro message member
    exact (traced.published message member).mono earlier fun _ known => known
  intro other run member
  dsimp only at member
  by_cases same : other = server
  · subst same
    rw [update_self] at member
    obtain ⟨itsJob, origin⟩ :=
      JobServer.origin_of_run stepped
        (fun old present => (traced.runs other old present).1) member
    refine ⟨itsJob, ?_⟩
    suffices
        handles :
          HandlesEnqueued serializer (IsUntouched system.servers)
            system.enqueued run from
      handles.mono earlier fun _ known => known
    rcases origin with ⟨old, present, sameId, sameContext⟩ |
      ⟨message, tag, same, started⟩
    · unfold HandlesEnqueued
      rw [sameId, sameContext]
      exact (traced.runs other old present).2
    · exact handlesEnqueued_of_startedFor (shared other)
        (carries message tag same) started
  · rw [update_of_ne same] at member
    obtain ⟨itsJob, handles⟩ := traced.runs other run member
    exact ⟨itsJob, handles.mono earlier fun _ known => known⟩

omit [DecidableEq V] in
/-- The queue may take any step, if what it takes carries enqueued jobs. -/
theorem Traced.stepQueue
    {event : WorkQueueEvent (ι × DeliveryTag) (Message κ Buffer)}
    (traced : system.Traced serializer)
    (enqueued expiring expired : List (Message κ Buffer))
    (accepted : List (AcceptedRetry ι κ Buffer))
    (stepped :
      { system with
        enqueued := enqueued
        expiring := expiring
        expired := expired
        accepted := accepted }.stepQueue event = some next)
    (grown : ∀ job ∈ system.enqueued, job ∈ enqueued)
    (carries :
      ∀ message ∈ event.publishes,
        CarriesEnqueued serializer (IsUntouched system.servers) enqueued
          message) :
    next.Traced serializer := by
  obtain ⟨queue, taken, rfl⟩ := Option.map_eq_some_iff.mp stepped
  refine ⟨traced.accounted.step taken, ?_, ?_⟩
  · intro message member
    rw [WorkQueue.published_step taken] at member
    rcases List.mem_append.mp member with new | old
    · exact carries message new
    · exact (traced.published message old).mono id grown
  · intro server run member
    obtain ⟨itsJob, handles⟩ := traced.runs server run member
    exact ⟨itsJob, handles.mono id grown⟩

omit [DecidableEq V] in
/-- A step of the queue that takes nothing new. -/
theorem Traced.moveQueue
    {event : WorkQueueEvent (ι × DeliveryTag) (Message κ Buffer)}
    (traced : system.Traced serializer)
    (stepped : system.stepQueue event = some next)
    (silent : event.publishes = []) :
    next.Traced serializer := by
  refine traced.stepQueue system.enqueued system.expiring system.expired
    system.accepted stepped (fun job member => member) ?_
  intro message member
  rw [silent] at member
  cases member

omit [DecidableEq ι] [DecidableEq V] in
/-- What a run has sent, with the context that it has written. -/
theorem hasSent_content
    {retry : AcceptedRetry ι κ Buffer}
    (sent : system.hasSent config retry = true) :
    ∃ run context,
      .attempt run ∈ (system.servers retry.server).runs ∧
        run.correlationId = retry.message.correlationId ∧
        .published retry.call context ∈ run.history ∧
        (config retry.server).jsonBufferSerializer.serialize context =
          some retry.message.content := by
  unfold hasSent at sent
  split at sent
  · rename_i run present
    obtain ⟨itsId, written⟩ := Bool.and_eq_true_iff.mp sent
    obtain ⟨entry, member, decided⟩ := List.any_eq_true.mp written
    cases entry with
    | published call context =>
        obtain ⟨itsCall, serialized⟩ := Bool.and_eq_true_iff.mp decided
        cases of_decide_eq_true itsCall
        exact ⟨run, context, List.mem_of_getElem? present,
          of_decide_eq_true itsId, member, of_decide_eq_true serialized⟩
    | _ => cases decided
  · cases sent

omit [DecidableEq ι] [DecidableEq V] in
theorem Traced.carries_retry
    {retry : AcceptedRetry ι κ Buffer}
    (traced : system.Traced serializer)
    (shared : ∀ server, (config server).jsonBufferSerializer = serializer)
    (restores :
      ∀ context content, serializer.serialize context = some content →
        serializer.deserialize content = some context)
    (sent : system.hasSent config retry = true) :
    CarriesEnqueued serializer (IsUntouched system.servers) system.enqueued
      retry.message := by
  obtain ⟨run, context, present, itsId, published, written⟩ :=
    hasSent_content sent
  obtain ⟨keeps, job, member, sameId, first, read, same⟩ :=
    traced.runs retry.server run present
  rw [shared] at written
  refine ⟨job, member, sameId.trans itsId, ?_⟩
  intro other readsOther
  cases (restores context _ written).symm.trans readsOther
  refine ⟨first, read, same.trans ?_⟩
  exact (keeps.published _ context published).mono fun untouched =>
    untouched retry.server run present

omit [DecidableEq ι] [DecidableEq κ] [DecidableEq Buffer] [DecidableEq V] in
/-- What is ready was published. -/
theorem Traced.carries_ready
    {message : Message κ Buffer}
    (traced : system.Traced serializer) (ready : message ∈ system.queue.ready) :
    CarriesEnqueued serializer (IsUntouched system.servers) system.enqueued
      message := by
  apply traced.published
  apply traced.accounted.conserved.mem_iff.mp
  unfold WorkQueue.held
  simp [ready]

theorem traced_preserved
    (shared : ∀ server, (config server).jsonBufferSerializer = serializer)
    (restores :
      ∀ context content, serializer.serialize context = some content →
        serializer.deserialize content = some context) :
    (machine config).Preserved
      (Traced serializer : JobSystem ι κ Buffer V → Prop) := by
  intro system event next traced stepped
  cases event with
  | enqueued message expires =>
      simp only [machine, step] at stepped
      refine traced.stepQueue (message :: system.enqueued) _ system.expired
        system.accepted stepped
        (fun job member => List.mem_cons_of_mem _ member) ?_
      intro itself member
      cases List.mem_singleton.mp member
      exact ⟨message, List.mem_cons_self, rfl,
        fun context read => ⟨context, read, rfl, fun _ => rfl⟩⟩
  | jobExpired message =>
      simp only [machine, step, Option.ite_none_right_eq_some] at stepped
      exact traced.stepQueue system.enqueued system.expiring _ system.accepted
        stepped.2 (fun job member => member) (List.forall_mem_nil _)
  | delivered server message tag =>
      simp only [machine, step] at stepped
      obtain ⟨known, first, rest⟩ := Option.bind_eq_some_iff.mp stepped
      obtain ⟨handled, second, last⟩ := Option.bind_eq_some_iff.mp rest
      have told : known.Traced serializer := by
        refine traced.serve shared first ?_
        intro itself itsTag same
        cases same
      have ready : message ∈ known.queue.ready := by
        obtain ⟨after, _, rfl⟩ := serve_cases second
        obtain ⟨queue, taken, _⟩ := Option.map_eq_some_iff.mp last
        simp only [WorkQueue.step, Option.ite_none_right_eq_some] at taken
        exact taken.1.1
      have took : handled.Traced serializer := by
        refine told.serve shared second ?_
        intro itself itsTag same
        cases same
        exact told.carries_ready ready
      exact took.moveQueue last rfl
  | retryAccepted retry =>
      simp only [machine, step] at stepped
      split at stepped
      · rename_i sent
        refine traced.stepQueue system.enqueued system.expiring system.expired
          (retry :: system.accepted) stepped (fun job member => member) ?_
        intro itself member
        cases List.mem_singleton.mp member
        exact traced.carries_retry shared restores sent
      · cases stepped
  | retryDeadLettered message => exact traced.moveQueue stepped rfl
  | retryLost message => exact traced.moveQueue stepped rfl
  | acknowledgementArrived server arrived =>
      simp only [machine, step] at stepped
      split at stepped
      · split at stepped
        · rename_i settled taken
          cases stepped
          exact traced.moveQueue taken rfl
        · exact traced.moveQueue stepped rfl
      · cases stepped
  | channelClosed server channel =>
      simp only [machine, step] at stepped
      exact traced.moveQueue stepped rfl
  | served server event =>
      simp only [machine, step] at stepped
      split at stepped
      · rename_i possible
        refine traced.serve shared stepped ?_
        intro message tag same
        subst same
        cases possible
      · cases stepped

theorem traced_run
    {schedule : List (JobSystemEvent ι κ Buffer V)}
    (shared : ∀ server, (config server).jsonBufferSerializer = serializer)
    (restores :
      ∀ context content, serializer.serialize context = some content →
        serializer.deserialize content = some context)
    (execution : (machine config).run (create config) schedule = some system) :
    system.Traced serializer :=
  Machine.run_invariant (traced_preserved shared restores)
    (traced_create config serializer) execution

end JobSystem

end Amq.Jobs
