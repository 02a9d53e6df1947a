import Amq.Jobs.AttemptRun
import Amq.Transition.Machine

/-!
# The job server and its runs

The server is a machine over arbitrary interleavings: messages reach the job
queue from clients and from retries, the broker delivers and redelivers them in
any order under fresh tags, the runs of `handleJobMessage` move on one await at
a time, and the events of the connection unlock every message.

Queue initialization and consumption are left out here: they decide *whether*
messages arrive, and every arrival is allowed anyway.  Listeners of the
application are assumed not to throw.
-/


namespace Amq.Jobs

open Amq.Transition

inductive JobServerState where
  | ready
  | listening
  | disposed
  deriving DecidableEq, Repr

/-- The fixed parts of a server: the language and its serializer. -/
structure JobServerConfig (Buffer V : Type) where
  operators : JsOperators V
  jsonBufferSerializer : JsonBufferSerializer Buffer (SerializedContext V)
  defaultRetryDelayCalculator : RetryDelayCalculator V
  defaultMaxAttemptCount : JsNumber

structure Delivery (κ Buffer : Type) where
  tag : DeliveryTag
  message : Message κ Buffer

/-- A run that took the lock.  A run whose message cannot be deserialized ends
at once; it emits `deserializationError` and leaves the lock as it is. -/
inductive JobRun (κ V : Type) where
  | undeserialized (correlationId : κ)
  | attempt (run : AttemptRun κ V)

/-- A message that `retry` has passed to `sendToQueue`. -/
structure RetryPublication (κ Buffer : Type) where
  retryDelayMs : JsNumber
  message : Message κ Buffer

structure JobServer (κ Buffer V : Type) where
  state : JobServerState
  jobHandlerManager : JobHandlerManager V
  messageRelevancyChecker : MessageRelevancyChecker κ
  runs : List (JobRun κ V)
  /-- Messages that reached the job queue or one of its retry queues. -/
  messages : List (Message κ Buffer)
  /-- Messages sent by retries of this server, the latest first. -/
  published : List (RetryPublication κ Buffer)
  /-- Deliveries passed to `handleJobMessage`, the latest first. -/
  deliveries : List (Delivery κ Buffer)
  /-- Arguments of the calls of `acknowledge`, the latest first. -/
  acknowledged : List DeliveryTag

inductive JobServerEvent (κ Buffer V : Type) where
  | listen
  | dispose
  | setJobHandler (job : V) (handler : JobHandler V)
  | amqpReconnected
  | amqpChannelRecreated
  | messagePublished (message : Message κ Buffer)
  | jobMessage (message : Message κ Buffer) (tag : DeliveryTag)
  | attempt (index : ℕ) (event : AttemptEvent V)

namespace JobServer

variable {κ Buffer V : Type} [DecidableEq κ] [DecidableEq Buffer] [DecidableEq V]

def create (config : JobServerConfig Buffer V) : JobServer κ Buffer V where
  state := .ready
  jobHandlerManager :=
    { defaultRetryDelayCalculator := config.defaultRetryDelayCalculator
      defaultMaxAttemptCount := config.defaultMaxAttemptCount
      jobHandlers := fun _ => none }
  messageRelevancyChecker := MessageRelevancyChecker.empty
  runs := []
  messages := []
  published := []
  deliveries := []
  acknowledged := []

/-- What the run for `correlationId` reads of the server. -/
def surroundings
    (config : JobServerConfig Buffer V) (server : JobServer κ Buffer V)
    (correlationId : κ) : Surroundings Buffer V where
  operators := config.operators
  jsonBufferSerializer := config.jsonBufferSerializer
  jobHandlerManager := server.jobHandlerManager
  isDisposed := decide (server.state = .disposed)
  actualDeliveryTag :=
    server.messageRelevancyChecker.getDeliveryTag correlationId

def apply
    (server : JobServer κ Buffer V) : Effect κ Buffer → JobServer κ Buffer V
  | .publish retryDelayMs message =>
      { server with
        messages := message :: server.messages
        published := ⟨retryDelayMs, message⟩ :: server.published }
  | .acknowledge tag => { server with acknowledged := tag :: server.acknowledged }
  | .unlock correlationId =>
      { server with
        messageRelevancyChecker :=
          server.messageRelevancyChecker.unlock correlationId }

/-- `listen` throws unless the server is ready. -/
def listen (server : JobServer κ Buffer V) : JobServer κ Buffer V :=
  if server.state = .ready then
    { server with state := .listening }
  else
    server

def dispose (server : JobServer κ Buffer V) : JobServer κ Buffer V :=
  if server.state = .listening then
    { server with
      state := .disposed
      jobHandlerManager := server.jobHandlerManager.deleteAll }
  else
    server

def setJobHandler
    (config : JobServerConfig Buffer V) (server : JobServer κ Buffer V)
    (job : V) (handler : JobHandler V) : JobServer κ Buffer V :=
  match server.jobHandlerManager.set config.operators job handler with
  | .ok manager => { server with jobHandlerManager := manager }
  | .error _ => server

/-- The handlers of `reconnected` and `channelRecreated`, which are registered
while the server is listening. -/
def unlockAll (server : JobServer κ Buffer V) : JobServer κ Buffer V :=
  if server.state = .listening then
    { server with
      messageRelevancyChecker := server.messageRelevancyChecker.unlockAll }
  else
    server

/-- The run that a delivery starts once it has the lock. -/
def startRun
    (config : JobServerConfig Buffer V) (server : JobServer κ Buffer V)
    (message : Message κ Buffer) : JobRun κ V :=
  match config.jsonBufferSerializer.deserialize message.content with
  | none => .undeserialized message.correlationId
  | some context =>
      .attempt <|
        AttemptRun.start (server.surroundings config message.correlationId)
          message.correlationId context

/-- `handleJobMessage` up to its first await. -/
def handleJobMessage
    (config : JobServerConfig Buffer V) (server : JobServer κ Buffer V)
    (message : Message κ Buffer) (tag : DeliveryTag) : JobServer κ Buffer V :=
  let locked := server.messageRelevancyChecker.lock message.correlationId tag
  { server with
    messageRelevancyChecker := locked.1
    deliveries := ⟨tag, message⟩ :: server.deliveries
    runs :=
      if locked.2 then
        server.runs ++ [server.startRun config message]
      else
        server.runs }

def stepAttempt
    (config : JobServerConfig Buffer V) (server : JobServer κ Buffer V)
    (index : ℕ) (event : AttemptEvent V) : Option (JobServer κ Buffer V) :=
  match server.runs[index]? with
  | some (.attempt run) =>
      match run.step (server.surroundings config run.correlationId) event with
      | some (next, effects) =>
          some <|
            effects.foldl apply
              { server with runs := server.runs.set index (.attempt next) }
      | none => none
  | _ => none

def step
    (config : JobServerConfig Buffer V) (server : JobServer κ Buffer V) :
    JobServerEvent κ Buffer V → Option (JobServer κ Buffer V)
  | .listen => some server.listen
  | .dispose => some server.dispose
  | .setJobHandler job handler => some (server.setJobHandler config job handler)
  | .amqpReconnected => some server.unlockAll
  | .amqpChannelRecreated => some server.unlockAll
  | .messagePublished message =>
      some { server with messages := message :: server.messages }
  | .jobMessage message tag =>
      if server.state = .listening ∧ message ∈ server.messages ∧
          tag ∉ server.deliveries.map Delivery.tag then
        some (server.handleJobMessage config message tag)
      else
        none
  | .attempt index event => server.stepAttempt config index event

/-- The server as a machine. -/
def machine (config : JobServerConfig Buffer V) :
    Machine (JobServer κ Buffer V) (JobServerEvent κ Buffer V) where
  initial := create config
  step := step config

/-! ## Invariants of the runs -/

section

omit [DecidableEq Buffer] [DecidableEq V]

theorem runs_effects
    (server : JobServer κ Buffer V) (effects : List (Effect κ Buffer)) :
    (effects.foldl apply server).runs = server.runs := by
  induction effects generalizing server with
  | nil => rfl
  | cons effect rest inductionHypothesis =>
      rw [List.foldl_cons, inductionHypothesis]
      cases effect <;> rfl

theorem stepAttempt_cases
    {config : JobServerConfig Buffer V} {server next : JobServer κ Buffer V}
    {index : ℕ} {event : AttemptEvent V}
    (stepped : server.stepAttempt config index event = some next) :
    ∃ run following effects,
      server.runs[index]? = some (.attempt run) ∧
      run.Steps (server.surroundings config run.correlationId) event following
        effects ∧
      next =
        effects.foldl apply
          { server with
            runs := server.runs.set index (.attempt following) } := by
  unfold stepAttempt at stepped
  split at stepped
  · rename_i run present
    split at stepped
    · rename_i following effects taken
      exact ⟨run, following, effects, present,
        AttemptRun.steps_of_step taken, (Option.some.inj stepped).symm⟩
    · cases stepped
  · cases stepped

theorem mem_runs_handleJobMessage
    {config : JobServerConfig Buffer V} {server : JobServer κ Buffer V}
    {message : Message κ Buffer} {tag : DeliveryTag} {jobRun : JobRun κ V}
    (member : jobRun ∈ (server.handleJobMessage config message tag).runs) :
    jobRun ∈ server.runs ∨ jobRun = server.startRun config message := by
  unfold handleJobMessage at member
  dsimp only at member
  split at member
  · exact (List.mem_append.mp member).imp_right List.mem_singleton.mp
  · exact Or.inl member

end

omit [DecidableEq κ] [DecidableEq Buffer] [DecidableEq V] in
theorem startRun_attempt
    {config : JobServerConfig Buffer V} {server : JobServer κ Buffer V}
    {message : Message κ Buffer} {run : AttemptRun κ V}
    (started : .attempt run = server.startRun config message) :
    ∃ context,
      run =
        AttemptRun.start (server.surroundings config message.correlationId)
          message.correlationId context := by
  unfold startRun at started
  split at started
  · cases started
  · rename_i context deserialized
    exact ⟨context, JobRun.attempt.inj started⟩

/-- Only deliveries and steps of runs change the runs. -/
theorem runs_eq_of_step
    {config : JobServerConfig Buffer V} {server next : JobServer κ Buffer V}
    {event : JobServerEvent κ Buffer V}
    (stepped : server.step config event = some next)
    (notDelivery : ∀ message tag, event ≠ .jobMessage message tag)
    (notAttempt : ∀ index attemptEvent, event ≠ .attempt index attemptEvent) :
    next.runs = server.runs := by
  cases event with
  | listen =>
      cases stepped
      unfold listen
      split <;> rfl
  | dispose =>
      cases stepped
      unfold dispose
      split <;> rfl
  | setJobHandler job handler =>
      cases stepped
      unfold setJobHandler
      split <;> rfl
  | amqpReconnected =>
      cases stepped
      unfold unlockAll
      split <;> rfl
  | amqpChannelRecreated =>
      cases stepped
      unfold unlockAll
      split <;> rfl
  | messagePublished message =>
      cases stepped
      rfl
  | jobMessage message tag => exact absurd rfl (notDelivery message tag)
  | attempt index attemptEvent => exact absurd rfl (notAttempt index attemptEvent)

/-- What holds when a run starts and is kept by each of its steps holds of every
run of the server, whatever else happens in between. -/
theorem runs_invariant
    {config : JobServerConfig Buffer V} {invariant : AttemptRun κ V → Prop}
    (starts :
      ∀ (server : JobServer κ Buffer V) correlationId context,
        invariant
          (AttemptRun.start (server.surroundings config correlationId)
            correlationId context))
    (steps :
      ∀ (server : JobServer κ Buffer V) run event next
        (effects : List (Effect κ Buffer)),
        invariant run →
          run.Steps (server.surroundings config run.correlationId) event next
              effects →
            invariant next)
    {schedule : List (JobServerEvent κ Buffer V)} {server : JobServer κ Buffer V}
    (execution :
      (machine config).run (machine config).initial schedule = some server) :
    ∀ run, JobRun.attempt run ∈ server.runs → invariant run := by
  have preserved :
      (machine config).Preserved fun current : JobServer κ Buffer V =>
        ∀ run, JobRun.attempt run ∈ current.runs → invariant run := by
    intro current event next holds stepped run member
    by_cases delivered : ∃ message tag, event = .jobMessage message tag
    · obtain ⟨message, tag, rfl⟩ := delivered
      simp only [machine, step] at stepped
      split at stepped
      · cases stepped
        rcases mem_runs_handleJobMessage member with earlier | started
        · exact holds run earlier
        · obtain ⟨context, rfl⟩ := startRun_attempt started
          exact starts _ _ _
      · cases stepped
    · by_cases attempted : ∃ index attemptEvent, event = .attempt index attemptEvent
      · obtain ⟨index, attemptEvent, rfl⟩ := attempted
        obtain ⟨old, following, effects, present, steppedRun, rfl⟩ :=
          stepAttempt_cases stepped
        rw [runs_effects] at member
        rcases List.mem_or_eq_of_mem_set member with earlier | same
        · exact holds run earlier
        · rw [JobRun.attempt.inj same]
          exact steps _ old attemptEvent following effects
            (holds old (List.mem_of_getElem? present)) steppedRun
      · have unchanged : next.runs = current.runs :=
          runs_eq_of_step stepped
            (fun message tag same => delivered ⟨message, tag, same⟩)
            (fun index attemptEvent same => attempted ⟨index, attemptEvent, same⟩)
        rw [unchanged] at member
        exact holds run member
  exact Machine.run_invariant preserved
    (fun run member => absurd member List.not_mem_nil) execution

/-! ## A concrete server

Messages whose fields are integers, under an identity serializer, for the runs
on fixed inputs. -/

def integerOperators : JsOperators ℤ where
  greaterThan value number := some (number.lessThan (.finite value))
  addOne value := some (value + 1)
  one := 1
  orEmptyObject value := value.getD 0
  isObject _ := false
  toText := toString
  numberText _ := "number"

def integerConfig : JobServerConfig (SerializedContext ℤ) ℤ where
  operators := integerOperators
  jsonBufferSerializer := ⟨some, some⟩
  defaultRetryDelayCalculator _ := some (.ofNat 1000)
  defaultMaxAttemptCount := .ofNat 25

/-- The message of a job, named 7, at the given attempt. -/
def integerMessage (attempt : ℤ) : Message ℕ (SerializedContext ℤ) :=
  ⟨1, ⟨7, 0, 0, attempt⟩⟩

/-- A first attempt is delivered to a listening server with a handler. -/
def firstDelivery : List (JobServerEvent ℕ (SerializedContext ℤ) ℤ) :=
  [.listen, .setJobHandler 7 .function, .messagePublished (integerMessage 1),
    .jobMessage (integerMessage 1) ⟨0, 1⟩]

end JobServer

end Amq.Jobs
