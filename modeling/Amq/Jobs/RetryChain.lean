import Amq.Jobs.FailedInitialization
import Amq.Jobs.RetryAccounts

/-!
# Chains of retries

A job starts with the message of a client and goes on with the messages that
calls of `scheduler.retry` send, each from a run of some server that has handled
the message before.  Clients and servers are arbitrary; they share a serializer,
and every server has the same maximum for the job.

A retry writes its message from the objects that user code has been given or has
passed, after it has waited for its queue.  User code may have changed them by
then, so a link keeps what they hold when the message is written.
-/


namespace Amq.Jobs

open Amq.Transition

section Chains

variable {κ Buffer : Type} [DecidableEq κ] [DecidableEq Buffer]

/-- What a server is created with. -/
structure ServerSettings where
  coercions : Coercions
  defaultRetryDelayCalculator : RetryDelayCalculator JobValue
  defaultMaxAttemptCount : JsNumber

def ServerSettings.config
    (settings : ServerSettings) (serializer : JsonBufferSerializer Buffer Json) :
    JobServerConfig Buffer JobValue :=
  settings.coercions.serverConfig serializer
    settings.defaultRetryDelayCalculator settings.defaultMaxAttemptCount

/-- A run of some server, in which the registration of the job is fixed. -/
structure ServerExecution
    (κ : Type) {Buffer : Type} [DecidableEq κ] [DecidableEq Buffer]
    (serializer : JsonBufferSerializer Buffer Json)
    (job : JobValue) (maximum : ℕ) where
  settings : ServerSettings
  schedule : List (JobServerEvent κ Buffer JobValue)
  state : JobServer κ Buffer JobValue × List (RunRecord κ Buffer)
  execution :
    (JobServer.recordingMachine (settings.config serializer)).run
        (JobServer.recordingMachine (settings.config serializer)).initial
        schedule = some state
  fixed :
    (JobServer.recordingMachine (settings.config serializer)).Throughout
        (JobServer.FixedRegistration (settings.config serializer) job maximum)
        (JobServer.recordingMachine (settings.config serializer)).initial
        schedule

namespace ServerExecution

variable {serializer : JsonBufferSerializer Buffer Json} {job : JobValue}
  {maximum : ℕ}

/-- The run has been started for the message, and the calls have been made on
its scheduler. -/
def Handles
    (server : ServerExecution κ serializer job maximum) (index : ℕ)
    (message : Message κ Buffer) (run : AttemptRun κ JobValue)
    (calls : List MadeCall) : Prop :=
  server.state.1.runs[index]? = some (.attempt run) ∧
    server.state.2[index]? = some ⟨message, calls⟩

theorem runAccount
    (server : ServerExecution κ serializer job maximum) {index : ℕ}
    {message : Message κ Buffer} {run : AttemptRun κ JobValue}
    {calls : List MadeCall} (handles : server.Handles index message run calls) :
    JobServer.RunAccount (server.settings.config serializer) job maximum
      ⟨message, calls⟩ run := by
  obtain ⟨present, recorded⟩ := handles
  have preserved :=
    JobServer.accounts_preserved (κ := κ) server.settings.coercions
      (server.settings.config serializer) rfl job maximum
  have accounts :=
    Machine.run_invariant_under preserved
      (JobServer.accounts_initial (server.settings.config serializer) job
        maximum)
      server.fixed server.execution
  exact accounts.runs index run ⟨message, calls⟩ present recorded

theorem countP_isDiscardReport
    (server : ServerExecution κ serializer job maximum) {index : ℕ}
    {message : Message κ Buffer} {run : AttemptRun κ JobValue}
    {calls : List MadeCall} (handles : server.Handles index message run calls) :
    run.history.countP Observation.isDiscardReport ≤ 1 := by
  obtain ⟨present, _⟩ := handles
  have recorded :=
    JobServer.runs_invariant
      (fun _ _ _ => AttemptRun.callRecord_start _ _ _)
      (fun _ _ _ _ _ record stepped =>
        AttemptRun.callRecord_steps record stepped)
      (Machine.run_of_watched server.execution) run (List.mem_of_getElem? present)
  rw [recorded.reports]
  split
  · exact Nat.le_refl 1
  · exact Nat.zero_le 1

end ServerExecution

/-- The message that a call of `performInBackground` has sent. -/
def PerformsInBackground
    (serializer : JsonBufferSerializer Buffer Json)
    (options : PerformOptions JobValue) (message : Message κ Buffer) : Prop :=
  ∃ (coercions : Coercions) (exchange : String) (generateId : ℕ → κ)
    (schedule : List (JobClientEvent JobValue))
    (client next : JobClient κ Buffer JobValue) (index : ℕ)
    (call : PerformCall JobValue) (publication : Publication κ Buffer),
    (JobClient.machine
            (coercions.clientConfig serializer exchange generateId)).run
          (JobClient.machine
            (coercions.clientConfig serializer exchange generateId)).initial
          schedule = some client ∧
      client.calls[index]? = some call ∧ call.options = options ∧
        client.settlePreparation
            (coercions.clientConfig serializer exchange generateId) index =
          some next ∧
        next.published = publication :: client.published ∧
        message = ⟨publication.correlationId, publication.content⟩

/-- A call of `retry` when it writes its message. -/
structure Retry where
  /-- As user code has passed them. -/
  options : RetryOptions JobValue
  /-- The data that user code has been given. -/
  received : JobValue
  /-- What the object `data` holds now. -/
  data : JobValue
  /-- What was passed as `retryContext` holds this now. -/
  retryContext : Option JobValue

/-- User code has changed neither the data nor the `retryContext`. -/
def Retry.IsUntouched (retry : Retry) : Prop :=
  retry.data = retry.received ∧
    retry.retryContext = retry.options.retryContext

/-- The step in which a call of `retry` that a run for the message has made
writes and sends the message `next`. -/
def Retries
    (serializer : JsonBufferSerializer Buffer Json)
    (job : JobValue) (maximum : ℕ) (message : Message κ Buffer)
    (retry : Retry) (next : Message κ Buffer) : Prop :=
  ∃ (server : ServerExecution κ serializer job maximum) (index : ℕ)
    (run : AttemptRun κ JobValue) (calls : List MadeCall) (call : ℕ)
    (made : MadeCall) (itsAttempt : JobValue) (retryDelayMs : JsNumber)
    (after : JobServer κ Buffer JobValue),
    server.Handles index message run calls ∧ calls[call]? = some made ∧
      run.retries[call]? =
          some (.creating itsAttempt retry.retryContext retryDelayMs) ∧
        retry.options = made.options ∧ retry.received = run.context.data ∧
        retry.data = run.scheduler.data ∧
      server.state.1.step (server.settings.config serializer)
          (.attempt index (.retryQueueSettled call .fulfilled)) = some after ∧
        after.published = ⟨retryDelayMs, next⟩ :: server.state.1.published

/-- A message of a job.  The first one has not been sent by a retry. -/
structure Link (κ Buffer : Type) where
  retry : Option Retry
  message : Message κ Buffer

namespace Link

/-- The retry that has sent the message was asked to reset the attempts. -/
def resetsAttempts (link : Link κ Buffer) : Bool :=
  link.retry.any fun retry => retry.options.resetAttempts

/-- The `retryContext` that the message ought to have. -/
def retryContext (link : Link κ Buffer) : JobValue :=
  match link.retry with
  | none => JobValue.emptyObject
  | some retry => JobValue.orEmptyObject retry.options.retryContext

/-- The data that the message has, in a job with these data. -/
def writtenData (data : JobValue) (link : Link κ Buffer) : JobValue :=
  match link.retry with
  | none => data
  | some retry => retry.data

/-- The `retryContext` that the message has. -/
def writtenContext (link : Link κ Buffer) : JobValue :=
  match link.retry with
  | none => JobValue.emptyObject
  | some retry => JobValue.orEmptyObject retry.retryContext

/-- The objects were left alone until the message was written. -/
def IsUntouched (link : Link κ Buffer) : Prop :=
  ∀ retry, link.retry = some retry → retry.IsUntouched

end Link

/-- The messages of a job with this data and correlation id, the latest first. -/
inductive Chain
    (serializer : JsonBufferSerializer Buffer Json) (maximum : ℕ)
    (job data : JobValue) (correlationId : κ) : List (Link κ Buffer) → Prop where
  | begins (options : PerformOptions JobValue) (message : Message κ Buffer)
      (itsJob : job = some (.string options.job))
      (itsData : data = options.data.getD none)
      (itsId : correlationId = message.correlationId)
      (performed : PerformsInBackground serializer options message) :
      Chain serializer maximum job data correlationId [⟨none, message⟩]
  | continues (retry : Retry) (next : Message κ Buffer)
      (link : Link κ Buffer) (earlier : List (Link κ Buffer))
      (chain :
        Chain serializer maximum job data correlationId (link :: earlier))
      (retried : Retries serializer job maximum link.message retry next) :
      Chain serializer maximum job data correlationId
        (⟨some retry, next⟩ :: link :: earlier)

/-- The attempt that the latest message of a chain ought to have. -/
def attemptOf : List (Link κ Buffer) → ℕ
  | [] => 0
  | link :: earlier =>
      match link.retry with
      | none => 1
      | some retry =>
          if retry.options.resetAttempts then 2 else attemptOf earlier + 1

/-- Every message has the job, the data and the correlation id of the first one,
the context that its retry was given and the next attempt, within the maximum. -/
def PassesOn
    (serializer : JsonBufferSerializer Buffer Json) (maximum : ℕ)
    (job data : JobValue) (correlationId : κ) (links : List (Link κ Buffer)) :
    Prop :=
  ∀ later link earlier, links = later ++ link :: earlier →
    link.message.correlationId = correlationId ∧
      (contextSerializer serializer).deserialize link.message.content =
        some
          ⟨job, data, link.retryContext,
            some (.number (attemptOf (link :: earlier)))⟩ ∧
      attemptOf (link :: earlier) ≤ maximum ∧
      (link.retry.isSome = true → 2 ≤ attemptOf (link :: earlier))

/-- Without resets there are no more messages than attempts. -/
def IsBounded (maximum : ℕ) (links : List (Link κ Buffer)) : Prop :=
  (∀ link ∈ links, link.resetsAttempts = false) → links.length ≤ maximum

/-- In every run for a message of the job, a retry that would exceed the maximum
reports so and sends nothing, the scheduler reports at most one discard, and user
code only sees attempts up to the maximum. -/
def RunsKeepMaximum
    (κ : Type) [DecidableEq κ] (serializer : JsonBufferSerializer Buffer Json)
    (maximum : ℕ) (job : JobValue) : Prop :=
  ∀ (server : ServerExecution κ serializer job maximum) (index : ℕ)
    (message : Message κ Buffer) (run : AttemptRun κ JobValue)
    (calls : List MadeCall) (attempt : ℚ),
    server.Handles index message run calls → run.context.job = job →
      run.context.attempt = some (.number attempt) →
        (∀ call made, calls[call]? = some made →
          made.wasDiscarded = false →
            ((Reported run.history call ∧
                call ∉ publishedCalls run.history) ↔
              maximum < nextAttempt attempt made.options)) ∧
          run.history.countP Observation.isDiscardReport ≤ 1 ∧
          (run.isExposed = true → attempt ≤ maximum)

/-! ## One message after another -/

/-- A message that is sent for a call has been written from what the objects hold
before the step. -/
theorem JobServer.written_of_published
    {V : Type} [DecidableEq V] {config : JobServerConfig Buffer V}
    {server after : JobServer κ Buffer V} {index call : ℕ}
    {run : AttemptRun κ V} {itsAttempt : V} {retryContext : Option V}
    {retryDelayMs : JsNumber} {next : Message κ Buffer}
    (present : server.runs[index]? = some (.attempt run))
    (waiting :
      run.retries[call]? =
        some (.creating itsAttempt retryContext retryDelayMs))
    (stepped :
      server.step config (.attempt index (.retryQueueSettled call .fulfilled)) =
        some after)
    (published :
      after.published = ⟨retryDelayMs, next⟩ :: server.published) :
    ∃ content,
      config.jsonBufferSerializer.serialize
            (run.scheduler.retryMessage config.operators retryContext
              itsAttempt) =
          some content ∧
        next = ⟨run.correlationId, content⟩ := by
  obtain ⟨itself, following, effects, found, steppedRun, moved⟩ :=
    stepAttempt_cases stepped
  cases present.symm.trans found
  cases steppedRun with
  | retryPublished _ other itsContext itsDelay content creating serialized =>
      cases waiting.symm.trans creating
      have sent := published.symm.trans (congrArg JobServer.published moved)
      have message := (List.cons.inj sent).1
      injection message with _ itsMessage
      exact ⟨content, serialized, itsMessage⟩
  | retryNotPublished _ other itsContext itsDelay settlement creating =>
      have same := published.symm.trans (congrArg JobServer.published moved)
      exact absurd (congrArg List.length same) (Nat.succ_ne_self _)

section Links

variable {serializer : JsonBufferSerializer Buffer Json} {job data : JobValue}
  {maximum : ℕ}

omit [DecidableEq κ] [DecidableEq Buffer] in
/-- What a client sends can be read by every server. -/
theorem performed_content
    (roundTrips : RoundTrips serializer)
    {options : PerformOptions JobValue} {message : Message κ Buffer}
    (performed : PerformsInBackground serializer options message) :
    (contextSerializer serializer).deserialize message.content =
      some
        ⟨some (.string options.job), options.data.getD none,
          JobValue.emptyObject, some (.number 1)⟩ := by
  obtain ⟨coercions, exchange, generateId, schedule, client, next, index, call,
    publication, _, present, itsOptions, settled, published, itsMessage⟩ :=
    performed
  subst itsOptions itsMessage
  obtain ⟨other, initializer, run, phase, itself, _, _, outcome⟩ :=
    JobClient.settlePreparation_cases settled
  rw [present] at itself
  cases itself
  have unpublished (same : next.published = client.published) : False := by
    have longer := congrArg List.length (published.symm.trans same)
    rw [List.length_cons] at longer
    omega
  rcases outcome with ⟨_, moved⟩ | ⟨_, moved⟩
  · unfold JobClient.publish at moved
    split at moved
    · exact (unpublished (by rw [moved]; rfl)).elim
    · split at moved
      · exact (unpublished (by rw [moved]; rfl)).elim
      · rename_i content serialized
        have sent := published.symm.trans (congrArg JobClient.published moved)
        rw [(List.cons.inj sent).1]
        exact contextSerializer_roundTrips roundTrips serialized
  · exact (unpublished (by rw [moved]; rfl)).elim

/-- A retry passes on the job and its correlation id with the next attempt,
within the maximum, and what the objects hold by now. -/
theorem retried_content
    (roundTrips : RoundTrips serializer)
    {message next : Message κ Buffer} {retry : Retry}
    {received retryContext : JobValue} {attempt : ℚ}
    (read :
      (contextSerializer serializer).deserialize message.content =
        some ⟨job, received, retryContext, some (.number attempt)⟩)
    (retried : Retries serializer job maximum message retry next) :
    next.correlationId = message.correlationId ∧
      (contextSerializer serializer).deserialize next.content =
        some
          ⟨job, retry.data, JobValue.orEmptyObject retry.retryContext,
            some (.number (nextAttempt attempt retry.options))⟩ ∧
      nextAttempt attempt retry.options ≤ maximum ∧
      retry.received = received ∧
      AttemptRun.ChangedInPlace retry.options.retryContext
        retry.retryContext := by
  obtain ⟨server, index, run, calls, call, made, itsAttempt, retryDelayMs, after,
    handles, found, waiting, itsOptions, itsReceived, itsData, stepped,
    published⟩ := retried
  have account := server.runAccount handles
  have itsContext :
      run.context = ⟨job, received, retryContext, some (.number attempt)⟩ :=
    Option.some.inj (account.context.symm.trans read)
  have itsAccount :=
    account.account (by rw [itsContext]) attempt (by rw [itsContext])
  obtain ⟨⟨other, itself, sent, within⟩, another, present, changed⟩ :=
    itsAccount.creating call itsAttempt retry.retryContext retryDelayMs waiting
  cases found.symm.trans itself
  cases found.symm.trans present
  obtain ⟨content, written, itsMessage⟩ :=
    JobServer.written_of_published handles.1 waiting stepped published
  rw [itsOptions, itsReceived, itsMessage, itsContext]
  refine ⟨account.correlationId, ?_, within, rfl, changed⟩
  rw [contextSerializer_roundTrips roundTrips written, sent, itsData]
  have itsJob : run.scheduler.job = job := by
    rw [itsAccount.itsJob, itsContext]
  simp only [Scheduler.retryMessage, itsJob]
  rfl

omit [DecidableEq κ] [DecidableEq Buffer] in
theorem cast_attemptOf_cons
    (retry : Retry) (message : Message κ Buffer)
    (earlier : List (Link κ Buffer)) :
    (attemptOf (⟨some retry, message⟩ :: earlier) : ℚ) =
      nextAttempt (attemptOf earlier) retry.options := by
  cases resets : retry.options.resetAttempts with
  | true =>
      simp only [attemptOf, nextAttempt, resets, if_true]
      rw [Nat.cast_ofNat, one_add_one_eq_two]
  | false =>
      simp only [attemptOf, nextAttempt, resets, Bool.false_eq_true, if_false]
      rw [Nat.cast_succ]

omit [DecidableEq κ] [DecidableEq Buffer] in
theorem one_le_attemptOf
    (link : Link κ Buffer) (earlier : List (Link κ Buffer)) :
    1 ≤ attemptOf (link :: earlier) := by
  unfold attemptOf
  split
  · exact Nat.le_refl 1
  · split
    · decide
    · exact Nat.le_add_left 1 _

end Links

namespace Chain

variable {serializer : JsonBufferSerializer Buffer Json} {job data : JobValue}
  {maximum : ℕ} {correlationId : κ}

theorem of_append
    {later earlier : List (Link κ Buffer)} {link : Link κ Buffer}
    (chain :
      Chain serializer maximum job data correlationId
        (later ++ link :: earlier)) :
    Chain serializer maximum job data correlationId (link :: earlier) := by
  induction later with
  | nil => exact chain
  | cons last rest inductionHypothesis =>
      cases rest with
      | nil =>
          cases chain with
          | continues retry next previous older chain retried => exact chain
      | cons previous older =>
          cases chain with
          | continues retry next previous older chain retried =>
              exact inductionHypothesis chain

/-- What the latest message of a chain is. -/
theorem latest
    (roundTrips : RoundTrips serializer) (positive : 1 ≤ maximum)
    {links : List (Link κ Buffer)}
    (chain : Chain serializer maximum job data correlationId links) :
    ∀ link earlier, links = link :: earlier →
      link.message.correlationId = correlationId ∧
        (contextSerializer serializer).deserialize link.message.content =
          some
            ⟨job, link.writtenData data, link.writtenContext,
              some (.number (attemptOf (link :: earlier)))⟩ ∧
        attemptOf (link :: earlier) ≤ maximum ∧
        (link.retry.isSome = true → 2 ≤ attemptOf (link :: earlier)) := by
  induction chain with
  | begins options message itsJob itsData itsId performed =>
      intro link earlier same
      cases same
      refine ⟨itsId.symm, ?_, positive, nofun⟩
      rw [performed_content roundTrips performed, itsJob, itsData]
      simp only [Link.writtenData, Link.writtenContext, attemptOf, Nat.cast_one]
  | continues retry next link earlier chain retried inductionHypothesis =>
      intro last rest same
      cases same
      obtain ⟨itsId, read, _, _⟩ := inductionHypothesis link earlier rfl
      obtain ⟨sameId, readNext, within, _, _⟩ :=
        retried_content roundTrips read retried
      have attempt := cast_attemptOf_cons retry next (link :: earlier)
      have positiveAttempt := one_le_attemptOf link earlier
      refine ⟨sameId.trans itsId, ?_, ?_, ?_⟩
      · rw [readNext, attempt]
        rfl
      · rw [← attempt] at within
        exact_mod_cast within
      · intro _
        simp only [attemptOf]
        split
        · decide
        · exact Nat.succ_le_succ positiveAttempt

/-- A retry is given the data of the message before, and its `retryContext` is
the object that user code has passed. -/
theorem latest_retry
    (roundTrips : RoundTrips serializer) (positive : 1 ≤ maximum)
    {link previous : Link κ Buffer} {earlier : List (Link κ Buffer)}
    {retry : Retry} (isRetry : link.retry = some retry)
    (chain :
      Chain serializer maximum job data correlationId
        (link :: previous :: earlier)) :
    retry.received = previous.writtenData data ∧
      AttemptRun.ChangedInPlace retry.options.retryContext
        retry.retryContext := by
  cases chain with
  | continues itself next _ _ chain retried =>
      cases isRetry
      obtain ⟨_, read, _, _⟩ := chain.latest roundTrips positive previous earlier rfl
      obtain ⟨_, _, _, received, changed⟩ :=
        retried_content roundTrips read retried
      exact ⟨received, changed⟩

/-- The first message has not been sent by a retry. -/
theorem retry_eq_none
    {link : Link κ Buffer}
    (chain : Chain serializer maximum job data correlationId [link]) :
    link.retry = none := by
  cases chain with
  | begins => rfl

/-- Without resets every message counts. -/
theorem attemptOf_eq_length
    {links : List (Link κ Buffer)}
    (chain : Chain serializer maximum job data correlationId links)
    (unreset : ∀ link ∈ links, link.resetsAttempts = false) :
    attemptOf links = links.length := by
  induction chain with
  | begins => rfl
  | continues retry next link earlier chain retried inductionHypothesis =>
      have counted :=
        inductionHypothesis fun other member =>
          unreset other (List.mem_cons_of_mem _ member)
      have kept : retry.options.resetAttempts = false :=
        unreset ⟨some retry, next⟩ List.mem_cons_self
      rw [attemptOf, List.length_cons, ← counted]
      simp only [kept, Bool.false_eq_true, if_false]

/-- A chain without resets is bounded, whatever user code does to its objects. -/
theorem isBounded
    (roundTrips : RoundTrips serializer) (positive : 1 ≤ maximum)
    {links : List (Link κ Buffer)}
    (chain : Chain serializer maximum job data correlationId links) :
    IsBounded maximum links := by
  intro unreset
  cases links with
  | nil => exact Nat.zero_le maximum
  | cons link earlier =>
      obtain ⟨_, _, within, _⟩ :=
        chain.latest roundTrips positive link earlier rfl
      rw [chain.attemptOf_eq_length unreset] at within
      exact within

/-- While the objects are left alone, the data stay those of the first
message. -/
theorem writtenData_eq
    (roundTrips : RoundTrips serializer) (positive : 1 ≤ maximum)
    {links : List (Link κ Buffer)}
    (chain : Chain serializer maximum job data correlationId links)
    (untouched : ∀ link ∈ links, link.IsUntouched) :
    ∀ link earlier, links = link :: earlier → link.writtenData data = data := by
  induction chain with
  | begins =>
      intro link earlier same
      cases same
      rfl
  | continues retry next link earlier chain retried inductionHypothesis =>
      intro last rest same
      cases same
      have before :=
        inductionHypothesis
          (fun other member => untouched other (List.mem_cons_of_mem _ member))
          link earlier rfl
      obtain ⟨received, _⟩ :=
        latest_retry roundTrips positive rfl
          (chain.continues retry next link earlier retried)
      have kept := (untouched _ List.mem_cons_self retry rfl).1
      exact kept.trans (received.trans before)

/-- A chain whose objects are left alone is passed on. -/
theorem passesOn_of_untouched
    (roundTrips : RoundTrips serializer) (positive : 1 ≤ maximum)
    {links : List (Link κ Buffer)}
    (chain : Chain serializer maximum job data correlationId links)
    (untouched : ∀ link ∈ links, link.IsUntouched) :
    PassesOn serializer maximum job data correlationId links := by
  intro later link earlier same
  subst same
  have part := chain.of_append
  obtain ⟨itsId, read, within, retried⟩ :=
    part.latest roundTrips positive link earlier rfl
  have itsData : link.writtenData data = data :=
    part.writtenData_eq roundTrips positive
      (fun other member => untouched other (List.mem_append_right _ member))
      link earlier rfl
  have itsContext : link.writtenContext = link.retryContext := by
    have kept :=
      untouched link (List.mem_append_right _ List.mem_cons_self)
    unfold Link.writtenContext Link.retryContext
    cases isRetry : link.retry with
    | none => rfl
    | some retry =>
        dsimp only
        rw [(kept retry isRetry).2]
  rw [itsData, itsContext] at read
  exact ⟨itsId, read, within, retried⟩

/-- What is passed on has been left alone. -/
theorem untouched_of_passesOn
    (roundTrips : RoundTrips serializer) (positive : 1 ≤ maximum)
    {links : List (Link κ Buffer)}
    (chain : Chain serializer maximum job data correlationId links)
    (passesOn : PassesOn serializer maximum job data correlationId links) :
    ∀ link ∈ links, link.IsUntouched := by
  have written :
      ∀ later link earlier, links = later ++ link :: earlier →
        link.writtenData data = data ∧
          link.writtenContext = link.retryContext := by
    intro later link earlier same
    obtain ⟨_, ought, _, _⟩ := passesOn later link earlier same
    subst same
    obtain ⟨_, read, _, _⟩ :=
      chain.of_append.latest roundTrips positive link earlier rfl
    have agree := Option.some.inj (read.symm.trans ought)
    injection agree with _ itsData itsContext _
    exact ⟨itsData, itsContext⟩
  intro link member retry isRetry
  obtain ⟨later, earlier, same⟩ := List.append_of_mem member
  obtain ⟨itsData, itsContext⟩ := written later link earlier same
  subst same
  have part := chain.of_append
  cases earlier with
  | nil => cases isRetry.symm.trans part.retry_eq_none
  | cons previous older =>
      obtain ⟨received, changed⟩ :=
        latest_retry roundTrips positive isRetry part
      have before :=
        (written (later ++ [link]) previous older (by simp)).1
      unfold Link.writtenData at itsData
      unfold Link.writtenContext Link.retryContext at itsContext
      rw [isRetry] at itsData itsContext
      exact ⟨itsData.trans (received.trans before).symm,
        changed.eq_of_orEmptyObject itsContext⟩

end Chain

/-- The maximum is kept whatever user code does to its objects. -/
theorem runsKeepMaximum
    (serializer : JsonBufferSerializer Buffer Json) (maximum : ℕ)
    (job : JobValue) : RunsKeepMaximum κ serializer maximum job := by
  intro server index message run calls attempt handles itsJob itsAttempt
  have account := (server.runAccount handles).account itsJob attempt itsAttempt
  refine ⟨?_, server.countP_isDiscardReport handles, account.exposed⟩
  intro call made found undiscarded
  rw [← account.reported call made found undiscarded]
  refine and_iff_left_of_imp ?_
  intro reported sent
  obtain ⟨message, published⟩ := published_of_mem sent
  obtain ⟨other, itself, _, within⟩ :=
    account.published call message published
  cases found.symm.trans itself
  exact absurd
    ((account.reported call made found undiscarded).mp reported)
    (not_lt.mpr within)

/-- The messages of a job are what the retries ought to make of its first
message, and the maximum is kept, if and only if user code has left the data and
the `retryContext` of every retry unchanged until its message was written. -/
theorem retry_chains_faithful_iff
    (serializer : JsonBufferSerializer Buffer Json) (job data : JobValue)
    (maximum : ℕ) (correlationId : κ) (links : List (Link κ Buffer))
    (roundTrips : RoundTrips serializer) (positive : 1 ≤ maximum)
    (chain : Chain serializer maximum job data correlationId links) :
    (PassesOn serializer maximum job data correlationId links ∧
        IsBounded maximum links ∧ RunsKeepMaximum κ serializer maximum job) ↔
      ∀ link ∈ links, link.IsUntouched := by
  constructor
  · intro ⟨passesOn, _, _⟩
    exact chain.untouched_of_passesOn roundTrips positive passesOn
  · intro untouched
    exact ⟨chain.passesOn_of_untouched roundTrips positive untouched,
      chain.isBounded roundTrips positive,
      runsKeepMaximum serializer maximum job⟩

end Chains

/-! ## Two concrete chains

A client sends a job with a counter.  One handler asks for a retry and leaves the
counter alone, another one increments it and throws. -/

/-- Of these operators only those on numbers are used below. -/
def plainCoercions : Coercions where
  toNumber _ := some .nan
  addOne _ := none
  toText _ := "value"
  numberText _ := "number"

def counter (count : ℚ) : JobValue :=
  some (.object [("n", .number count)])

def mailJob : PerformOptions JobValue where
  job := "send"
  data := some (counter 1)
  expireMs := none
  transient := false

def sentMail : Message ℕ Json :=
  ⟨0, SerializedContext.toJson
    ⟨some (.string "send"), counter 1, JobValue.emptyObject, some (.number 1)⟩⟩

theorem sentMail_performed :
    PerformsInBackground jsonSerializer mailJob sentMail :=
  ⟨plainCoercions, "jobs", id,
    [.performInBackground "mail" mailJob, .initializerRun 0 0 .started,
      .initializerRun 0 0 (.commandSettled .fulfilled),
      .initializerRun 0 0 (.commandSettled .fulfilled),
      .initializerRun 0 0 (.commandSettled .fulfilled)],
    _, _, 0, _, _, rfl, rfl, rfl, rfl, rfl, rfl⟩

def mailSettings : ServerSettings where
  coercions := plainCoercions
  defaultRetryDelayCalculator _ := some (.ofNat 1000)
  defaultMaxAttemptCount := .ofNat 2

/-- Until the retry that the handler asks for waits for its queue. -/
def mailRetry : List (JobServerEvent ℕ Json JobValue) :=
  [.listen, .setJobHandler (some (.string "send")) .function,
    .messagePublished sentMail, .jobMessage sentMail ⟨0, 1⟩,
    .attempt 0
      (.retryCalled
        { retryDelayMs := some (.ofNat 1)
          retryContext := some (some (.string "again"))
          resetAttempts := false })]

def retryAgain : Retry where
  options :=
    { retryDelayMs := some (.ofNat 1)
      retryContext := some (some (.string "again"))
      resetAttempts := false }
  received := counter 1
  data := counter 1
  retryContext := some (some (.string "again"))

def retriedMail : Message ℕ Json :=
  ⟨0, SerializedContext.toJson
    ⟨some (.string "send"), counter 1, some (.string "again"),
      some (.number 2)⟩⟩

/-- Until the default retry of the handler that has thrown waits for its
queue. -/
def countedRetry : List (JobServerEvent ℕ Json JobValue) :=
  [.listen, .setJobHandler (some (.string "send")) .function,
    .messagePublished sentMail, .jobMessage sentMail ⟨0, 1⟩,
    .attempt 0 (.dataChanged (counter 2)),
    .attempt 0 (.handlerSettled .rejected),
    .attempt 0 (.handleErrorSettled .rejected)]

def retryCounted : Retry where
  options := AttemptRun.defaultRetryOptions
  received := counter 1
  data := counter 2
  retryContext := none

def countedMail : Message ℕ Json :=
  ⟨0, SerializedContext.toJson
    ⟨some (.string "send"), counter 2, JobValue.emptyObject,
      some (.number 2)⟩⟩

theorem mailRetry_fixed :
    (JobServer.recordingMachine (mailSettings.config jsonSerializer)).Throughout
      (JobServer.FixedRegistration (mailSettings.config jsonSerializer)
        (some (.string "send")) 2)
      (JobServer.recordingMachine (mailSettings.config jsonSerializer)).initial
      mailRetry := by
  refine Machine.throughout_cons trivial rfl ?_
  refine Machine.throughout_cons trivial rfl ?_
  refine Machine.throughout_cons trivial rfl ?_
  refine Machine.throughout_cons (fun _ _ _ => rfl) rfl ?_
  exact Machine.throughout_cons (fun _ _ _ _ => rfl) (by with_unfolding_all rfl) trivial

theorem countedRetry_fixed :
    (JobServer.recordingMachine (mailSettings.config jsonSerializer)).Throughout
      (JobServer.FixedRegistration (mailSettings.config jsonSerializer)
        (some (.string "send")) 2)
      (JobServer.recordingMachine (mailSettings.config jsonSerializer)).initial
      countedRetry := by
  refine Machine.throughout_cons trivial rfl ?_
  refine Machine.throughout_cons trivial rfl ?_
  refine Machine.throughout_cons trivial rfl ?_
  refine Machine.throughout_cons (fun _ _ _ => rfl) rfl ?_
  refine Machine.throughout_cons (fun _ _ _ _ => rfl) (by with_unfolding_all rfl) ?_
  refine Machine.throughout_cons (fun _ _ _ _ => rfl) (by with_unfolding_all rfl) ?_
  exact Machine.throughout_cons (fun _ _ _ _ => rfl) (by with_unfolding_all rfl) trivial

theorem retriedMail_retried :
    Retries jsonSerializer (some (.string "send")) 2 sentMail retryAgain
      retriedMail := by
  refine
    ⟨⟨mailSettings, mailRetry, ?_, ?execution, mailRetry_fixed⟩, 0, ?_, ?_, 0,
      ?_, ?_, ?_, ?_, ⟨?present, ?recorded⟩, ?found, ?waiting, ?itsOptions,
      ?received, ?data, ?stepped, ?published⟩
  case execution => with_unfolding_all exact rfl
  case present => exact rfl
  case recorded => exact rfl
  case found => exact rfl
  case waiting => with_unfolding_all exact rfl
  case itsOptions => exact rfl
  case received => with_unfolding_all exact rfl
  case data => with_unfolding_all exact rfl
  case stepped => with_unfolding_all exact rfl
  case published => with_unfolding_all exact rfl

theorem countedMail_retried :
    Retries jsonSerializer (some (.string "send")) 2 sentMail retryCounted
      countedMail := by
  refine
    ⟨⟨mailSettings, countedRetry, ?_, ?execution, countedRetry_fixed⟩, 0, ?_,
      ?_, 0, ?_, ?_, ?_, ?_, ⟨?present, ?recorded⟩, ?found, ?waiting,
      ?itsOptions, ?received, ?data, ?stepped, ?published⟩
  case execution => with_unfolding_all exact rfl
  case present => exact rfl
  case recorded => exact rfl
  case found => exact rfl
  case waiting => with_unfolding_all exact rfl
  case itsOptions => exact rfl
  case received => with_unfolding_all exact rfl
  case data => with_unfolding_all exact rfl
  case stepped => with_unfolding_all exact rfl
  case published => with_unfolding_all exact rfl

/-- The counter of the next attempt is not that of the first message. -/
theorem countedMail_not_passedOn :
    Chain jsonSerializer 2 (some (.string "send")) (counter 1) 0
        [⟨some retryCounted, countedMail⟩, ⟨none, sentMail⟩] ∧
      ¬ PassesOn jsonSerializer 2 (some (.string "send")) (counter 1) 0
        [(⟨some retryCounted, countedMail⟩ : Link ℕ Json), ⟨none, sentMail⟩] := by
  refine ⟨?_, ?_⟩
  · exact .continues retryCounted countedMail ⟨none, sentMail⟩ []
      (.begins mailJob sentMail rfl rfl rfl sentMail_performed)
      countedMail_retried
  · intro passesOn
    obtain ⟨_, ought, _, _⟩ := passesOn [] _ _ rfl
    have read :
        (contextSerializer jsonSerializer).deserialize countedMail.content =
          some
            ⟨some (.string "send"), counter 2, JobValue.emptyObject,
              some (.number 2)⟩ :=
      SerializedContext.ofJson_toJson _
    have agree := Option.some.inj (read.symm.trans ought)
    injection agree with _ itsData _ _
    exact absurd itsData (by decide +kernel)

/-- The first chain is passed on, since nothing was changed. -/
theorem retry_chains_faithful_iff_mail :
    PassesOn jsonSerializer 2 (some (.string "send")) (counter 1) 0
      [(⟨some retryAgain, retriedMail⟩ : Link ℕ Json), ⟨none, sentMail⟩] := by
  have chain :
      Chain jsonSerializer 2 (some (.string "send")) (counter 1) 0
        [⟨some retryAgain, retriedMail⟩, ⟨none, sentMail⟩] :=
    .continues retryAgain retriedMail ⟨none, sentMail⟩ []
      (.begins mailJob sentMail rfl rfl rfl sentMail_performed)
      retriedMail_retried
  have untouched :
      ∀ link ∈ [(⟨some retryAgain, retriedMail⟩ : Link ℕ Json), ⟨none, sentMail⟩],
        link.IsUntouched := by
    intro link member retry isRetry
    rcases List.mem_cons.mp member with last | first
    · rw [last] at isRetry
      cases isRetry
      exact ⟨rfl, rfl⟩
    · rw [List.mem_singleton.mp first] at isRetry
      cases isRetry
  exact ((retry_chains_faithful_iff jsonSerializer _ _ 2 0 _
    jsonSerializer_roundTrips (by decide) chain).mpr untouched).1

end Amq.Jobs
