import Amq.Jobs.JobHandlerManager
import Amq.Jobs.JobQueueInitializer
import Amq.Transition.Machine

/-!
# The job client and its runs

`performInBackground` waits for the initializer of its queue and then publishes
a non-mandatory message.  A `reconnected` event forgets and disposes every
initializer, also while callers wait for one.  An initializer that is disposed
before it is done resolves all the same, and its callers publish into a queue
nobody may have set up.
-/

namespace Amq.Jobs

open Amq.Transition
open Function

/-- The fixed parts of a client: the language, its serializer and its ids. -/
structure JobClientConfig (κ Buffer V : Type) where
  exchange : String
  serialize : SerializedContext V → Option Buffer
  /-- A string as a message value. -/
  text : String → V
  absent : V
  emptyObject : V
  one : V
  isPlainObject : V → Bool
  toText : V → String
  numberText : JsNumber → String
  /-- The ids which `idGenerator` generates one after another. -/
  generateId : ℕ → κ

structure PerformOptions (V : Type) where
  job : String
  /-- The object as it is when it is serialized, which is after the await. -/
  data : Option V
  expireMs : Option JsNumber
  transient : Bool

/-- The arguments of `AmqpConnection.publishToExchange`. -/
structure Publication (κ Buffer : Type) where
  exchange : String
  content : Buffer
  correlationId : κ
  routingKey : String
  persistent : Bool
  expireMs : Option JsNumber

/-- Where a call of `performInBackground` stands. -/
inductive PerformPhase where
  /-- It waits for the promise of a run of an initializer. -/
  | preparing (initializer run : ℕ)
  | publishing
  | resolved
  | rejected
  /-- A check of the arguments has thrown this error. -/
  | refused (message : String)
  deriving DecidableEq, Repr

structure PerformCall (V : Type) where
  queue : String
  options : PerformOptions V
  phase : PerformPhase

structure JobClient (κ Buffer V : Type) where
  isDisposed : Bool
  /-- The map from queues to initializers, which are kept in `initializers`. -/
  jobQueueInitializers : String → Option ℕ
  initializers : List JobQueueInitializer
  calls : List (PerformCall V)
  /-- Messages passed to `publishToExchange`, the latest first. -/
  published : List (Publication κ Buffer)

inductive JobClientEvent (V : Type) where
  | performInBackground (queue : String) (options : PerformOptions V)
  | amqpReconnected
  | dispose
  | initializerRun (initializer run : ℕ) (event : InitializeEvent)
  /-- The promise that the call waits for has settled. -/
  | prepared (call : ℕ)
  | publishSettled (call : ℕ) (settlement : Settlement)

namespace JobClient

variable {κ Buffer V : Type}

def create : JobClient κ Buffer V where
  isDisposed := false
  jobQueueInitializers := fun _ => none
  initializers := []
  calls := []
  published := []

/-- The first check of `performInBackground` that throws, with its message. -/
def refusal
    (config : JobClientConfig κ Buffer V) (client : JobClient κ Buffer V)
    (queue : String) (options : PerformOptions V) : Option String :=
  if client.isDisposed then
    some "Cannot use disposed JobClient"
  else if queue.length = 0 then
    some
      ("\"queue\" must be a non-empty string (provided: \"" ++ queue ++ "\")")
  else if options.job.length = 0 then
    some
      ("\"context.job\" must be a non-empty string (provided: \"" ++
        options.job ++ "\")")
  else if options.data.any fun data => !config.isPlainObject data then
    some
      ("\"context.data\" must be a plain object (provided: \"" ++
        config.toText (options.data.getD config.absent) ++ "\")")
  else if options.expireMs.any fun expireMs =>
      !expireMs.isInteger || expireMs.lessThan (.ofNat 1) then
    some
      ("\"context.expireMs\" must be a positive integer (provided: \"" ++
        config.numberText (options.expireMs.getD .nan) ++ "\")")
  else
    none

/-- The initializer of a queue, which is created on first use. -/
def getInitializer
    (config : JobClientConfig κ Buffer V) (client : JobClient κ Buffer V)
    (queue : String) : JobClient κ Buffer V × ℕ :=
  match client.jobQueueInitializers queue with
  | some index => (client, index)
  | none =>
      ({ client with
          jobQueueInitializers :=
            update client.jobQueueInitializers queue
              (some client.initializers.length)
          initializers :=
            client.initializers ++
              [JobQueueInitializer.create config.exchange queue] },
        client.initializers.length)

/-- `performInBackground` up to its first await. -/
def performInBackground
    (config : JobClientConfig κ Buffer V) (client : JobClient κ Buffer V)
    (queue : String) (options : PerformOptions V) : JobClient κ Buffer V :=
  match client.refusal config queue options with
  | some message =>
      { client with
        calls := client.calls ++ [⟨queue, options, .refused message⟩] }
  | none =>
      let found := client.getInitializer config queue
      match found.1.initializers[found.2]? with
      | none => found.1
      | some initializer =>
          let started := initializer.initializeQueue
          { found.1 with
            initializers := found.1.initializers.set found.2 started.1
            calls :=
              found.1.calls ++
                [⟨queue, options, .preparing found.2 started.2⟩] }

/-- All initializers of the map are disposed and forgotten. -/
def disposeJobQueueInitializers
    (client : JobClient κ Buffer V) : JobClient κ Buffer V :=
  { client with
    jobQueueInitializers := fun _ => none
    initializers :=
      client.initializers.zipIdx.map fun entry =>
        if client.jobQueueInitializers entry.1.queue = some entry.2 then
          entry.1.dispose
        else
          entry.1 }

/-- The handler of `reconnected`, which is removed by `dispose`. -/
def handleAmqpReconnected (client : JobClient κ Buffer V) : JobClient κ Buffer V :=
  if client.isDisposed then client else client.disposeJobQueueInitializers

def dispose (client : JobClient κ Buffer V) : JobClient κ Buffer V :=
  { client with isDisposed := true }.disposeJobQueueInitializers

def setPhase
    (client : JobClient κ Buffer V) (index : ℕ) (call : PerformCall V)
    (phase : PerformPhase) : JobClient κ Buffer V :=
  { client with calls := client.calls.set index { call with phase := phase } }

def messageContent
    (config : JobClientConfig κ Buffer V) (options : PerformOptions V) :
    SerializedContext V where
  job := config.text options.job
  data := options.data.getD config.absent
  retryContext := config.emptyObject
  attempt := config.one

/-- `performInBackground` after its initializer. -/
def publish
    (config : JobClientConfig κ Buffer V) (client : JobClient κ Buffer V)
    (index : ℕ) (call : PerformCall V) : JobClient κ Buffer V :=
  if client.isDisposed then
    client.setPhase index call .resolved
  else
    match config.serialize (messageContent config call.options) with
    | none => client.setPhase index call .rejected
    | some content =>
        { client.setPhase index call .publishing with
          published :=
            { exchange := config.exchange
              content := content
              correlationId := config.generateId client.published.length
              routingKey := call.queue
              persistent := !call.options.transient
              expireMs := call.options.expireMs } ::
              client.published }

/-- The await on `initialize` is over. -/
def settlePreparation
    (config : JobClientConfig κ Buffer V) (client : JobClient κ Buffer V)
    (index : ℕ) : Option (JobClient κ Buffer V) :=
  match client.calls[index]? with
  | none => none
  | some call =>
      match call.phase with
      | .preparing initializer run =>
          match (client.initializers[initializer]?).bind (·.runs[run]?) with
          | none => none
          | some phase =>
              if phase.isResolved then
                some (client.publish config index call)
              else if phase = .failed then
                some (client.setPhase index call .rejected)
              else
                none
      | _ => none

def settlePublish
    (client : JobClient κ Buffer V) (index : ℕ) (settlement : Settlement) :
    Option (JobClient κ Buffer V) :=
  match client.calls[index]? with
  | none => none
  | some call =>
      match call.phase, settlement with
      | .publishing, .fulfilled => some (client.setPhase index call .resolved)
      | .publishing, .rejected => some (client.setPhase index call .rejected)
      | _, _ => none

def stepInitializer
    (client : JobClient κ Buffer V) (index run : ℕ) (event : InitializeEvent) :
    Option (JobClient κ Buffer V) :=
  match client.initializers[index]? with
  | none => none
  | some initializer =>
      match initializer.step run event with
      | none => none
      | some next =>
          some { client with initializers := client.initializers.set index next }

def step
    (config : JobClientConfig κ Buffer V) (client : JobClient κ Buffer V) :
    JobClientEvent V → Option (JobClient κ Buffer V)
  | .performInBackground queue options =>
      some (client.performInBackground config queue options)
  | .amqpReconnected => some client.handleAmqpReconnected
  | .dispose => some client.dispose
  | .initializerRun initializer run event =>
      client.stepInitializer initializer run event
  | .prepared call => client.settlePreparation config call
  | .publishSettled call settlement => client.settlePublish call settlement

/-- The client as a machine. -/
def machine (config : JobClientConfig κ Buffer V) :
    Machine (JobClient κ Buffer V) (JobClientEvent V) where
  initial := create
  step := step config

/-- Some initialization of the queue by this client has completed all three
commands. -/
def Prepared (client : JobClient κ Buffer V) (queue : String) : Prop :=
  ∃ initializer ∈ client.initializers,
    initializer.queue = queue ∧ initializer.HasCompleted

/-- A run of an initializer does not return early before its queue has been
prepared once, unless the client is disposed anyway. -/
def NotSuperseded (client : JobClient κ Buffer V) : JobClientEvent V → Prop
  | .initializerRun index run event =>
      ∀ initializer, client.initializers[index]? = some initializer →
        ∀ phase, initializer.runs[run]? = some phase →
          phase.next (initializer.initializePromise == some run) event =
              some .superseded →
            client.isDisposed = true ∨ client.Prepared initializer.queue
  | _ => True

/-! ## What the client knows of its initializers -/

/-- Every initializer is kept with its queue and with what it has completed. -/
def Grows (before after : JobClient κ Buffer V) : Prop :=
  ∀ (index : ℕ) (initializer : JobQueueInitializer),
    before.initializers[index]? = some initializer →
    ∃ next, after.initializers[index]? = some next ∧
      next.queue = initializer.queue ∧
      (initializer.HasCompleted → next.HasCompleted)

theorem Grows.of_eq
    {before after : JobClient κ Buffer V}
    (same : after.initializers = before.initializers) :
    Grows before after := by
  intro index initializer present
  exact ⟨initializer, by rw [same, present], rfl, id⟩

theorem Grows.trans
    {first second third : JobClient κ Buffer V}
    (growsFirst : Grows first second) (growsSecond : Grows second third) :
    Grows first third := by
  intro index initializer present
  obtain ⟨middle, middlePresent, middleQueue, middleCompleted⟩ :=
    growsFirst index initializer present
  obtain ⟨last, lastPresent, lastQueue, lastCompleted⟩ :=
    growsSecond index middle middlePresent
  exact ⟨last, lastPresent, lastQueue.trans middleQueue,
    fun completed => lastCompleted (middleCompleted completed)⟩

theorem Grows.set
    {before after : JobClient κ Buffer V} {index : ℕ}
    {old new : JobQueueInitializer}
    (present : before.initializers[index]? = some old)
    (sameQueue : new.queue = old.queue)
    (completed : old.HasCompleted → new.HasCompleted)
    (changed : after.initializers = before.initializers.set index new) :
    Grows before after := by
  intro other initializer found
  by_cases same : index = other
  · subst same
    have itself : initializer = old := Option.some.inj (found.symm.trans present)
    subst itself
    have inside := (List.getElem?_eq_some_iff.mp present).1
    exact ⟨new, by rw [changed, List.getElem?_set_self inside], sameQueue,
      completed⟩
  · exact ⟨initializer, by rw [changed, List.getElem?_set_ne same, found], rfl, id⟩

/-- A place keeps an initializer of the same queue. -/
theorem Grows.atQueue
    {before after : JobClient κ Buffer V} (grows : Grows before after)
    {index : ℕ} {queue : String}
    (placed :
      ∃ initializer, before.initializers[index]? = some initializer ∧
        initializer.queue = queue) :
    ∃ initializer, after.initializers[index]? = some initializer ∧
      initializer.queue = queue := by
  obtain ⟨initializer, place, itsQueue⟩ := placed
  obtain ⟨next, nextPlace, nextQueue, _⟩ := grows index initializer place
  exact ⟨next, nextPlace, nextQueue.trans itsQueue⟩

theorem Prepared.mono
    {before after : JobClient κ Buffer V} {queue : String}
    (prepared : before.Prepared queue) (grows : Grows before after) :
    after.Prepared queue := by
  obtain ⟨initializer, member, itsQueue, completed⟩ := prepared
  obtain ⟨index, present⟩ := List.mem_iff_getElem?.mp member
  obtain ⟨next, nextPresent, nextQueue, nextCompleted⟩ :=
    grows index initializer present
  exact ⟨next, List.mem_of_getElem? nextPresent, nextQueue.trans itsQueue,
    nextCompleted completed⟩

structure ClientRecord (client : JobClient κ Buffer V) : Prop where
  mapped :
    ∀ queue index, client.jobQueueInitializers queue = some index →
      ∃ initializer, client.initializers[index]? = some initializer ∧
        initializer.queue = queue
  promises : ∀ initializer ∈ client.initializers, initializer.PromiseValid
  superseded :
    ∀ initializer ∈ client.initializers, .superseded ∈ initializer.runs →
      client.isDisposed = true ∨ client.Prepared initializer.queue
  preparing :
    ∀ call ∈ client.calls, ∀ index run, call.phase = .preparing index run →
      ∃ initializer, client.initializers[index]? = some initializer ∧
        initializer.queue = call.queue
  published :
    ∀ publication ∈ client.published, client.Prepared publication.routingKey

/-- A step that does not touch the initializers. -/
theorem ClientRecord.of_eq
    {before after : JobClient κ Buffer V} (record : ClientRecord before)
    (sameMap : after.jobQueueInitializers = before.jobQueueInitializers)
    (sameInitializers : after.initializers = before.initializers)
    (sameDisposed : after.isDisposed = before.isDisposed)
    (calls :
      ∀ call ∈ after.calls, ∀ index run, call.phase = .preparing index run →
        call ∈ before.calls)
    (published :
      ∀ publication ∈ after.published, publication ∈ before.published ∨
        before.Prepared publication.routingKey) :
    ClientRecord after := by
  have grows : Grows before after := Grows.of_eq sameInitializers
  refine ⟨?_, ?_, ?_, ?_, ?_⟩
  · rw [sameMap, sameInitializers]
    exact record.mapped
  · rw [sameInitializers]
    exact record.promises
  · rw [sameInitializers, sameDisposed]
    intro initializer member superseded
    exact (record.superseded initializer member superseded).imp_right
      fun prepared => prepared.mono grows
  · rw [sameInitializers]
    intro call member index run preparing
    exact record.preparing call (calls call member index run preparing) index run
      preparing
  · intro publication member
    rcases published publication member with earlier | prepared
    · exact (record.published publication earlier).mono grows
    · exact prepared.mono grows

theorem calls_setPhase
    {client : JobClient κ Buffer V} {index : ℕ} {call : PerformCall V}
    {phase : PerformPhase}
    (waiting : ∀ initializer run, phase ≠ .preparing initializer run) :
    ∀ other ∈ (client.setPhase index call phase).calls, ∀ initializer run,
      other.phase = .preparing initializer run → other ∈ client.calls := by
  intro other member initializer run preparing
  rcases List.mem_or_eq_of_mem_set member with earlier | same
  · exact earlier
  · subst same
    exact absurd preparing (waiting initializer run)

theorem clientRecord_setPhase
    {client : JobClient κ Buffer V} (record : ClientRecord client)
    (index : ℕ) (call : PerformCall V) (phase : PerformPhase)
    (waiting : ∀ initializer run, phase ≠ .preparing initializer run) :
    ClientRecord (client.setPhase index call phase) :=
  record.of_eq rfl rfl rfl (calls_setPhase waiting) (fun _ => Or.inl)

/-- A call publishes into a prepared queue, or its client is disposed. -/
theorem clientRecord_publish
    {config : JobClientConfig κ Buffer V} {client : JobClient κ Buffer V}
    (record : ClientRecord client) (index : ℕ) (call : PerformCall V)
    (prepared : client.isDisposed = true ∨ client.Prepared call.queue) :
    ClientRecord (client.publish config index call) := by
  unfold publish
  split
  · exact clientRecord_setPhase record index call .resolved (by simp)
  · rename_i live
    split
    · exact clientRecord_setPhase record index call .rejected (by simp)
    · refine record.of_eq rfl rfl rfl (calls_setPhase (by simp)) ?_
      intro publication member
      rcases List.mem_cons.mp member with new | earlier
      · rw [new]
        exact Or.inr (prepared.resolve_left live)
      · exact Or.inl earlier

theorem clientRecord_settlePreparation
    {config : JobClientConfig κ Buffer V} {client next : JobClient κ Buffer V}
    {index : ℕ} (record : ClientRecord client)
    (stepped : client.settlePreparation config index = some next) :
    ClientRecord next := by
  unfold settlePreparation at stepped
  split at stepped
  · cases stepped
  · rename_i call present
    split at stepped
    · rename_i initializerIndex run preparing
      split at stepped
      · cases stepped
      · rename_i phase found
        split at stepped
        · rename_i resolved
          cases stepped
          obtain ⟨initializer, itsPlace, itsQueue⟩ :=
            record.preparing call (List.mem_of_getElem? present) _ _ preparing
          rw [itsPlace, Option.bind_some] at found
          have member := List.mem_of_getElem? itsPlace
          have reached := List.mem_of_getElem? found
          refine clientRecord_publish record index call ?_
          rw [← itsQueue]
          cases phase with
          | completed => exact Or.inr ⟨initializer, member, rfl, reached⟩
          | superseded => exact record.superseded initializer member reached
          | _ => cases resolved
        · split at stepped
          · cases stepped
            exact clientRecord_setPhase record index call .rejected (by simp)
          · cases stepped
    · cases stepped

theorem clientRecord_settlePublish
    {client next : JobClient κ Buffer V} {index : ℕ} {settlement : Settlement}
    (record : ClientRecord client)
    (stepped : client.settlePublish index settlement = some next) :
    ClientRecord next := by
  unfold settlePublish at stepped
  split at stepped
  · cases stepped
  · rename_i call present
    split at stepped
    · cases stepped
      exact clientRecord_setPhase record index call .resolved (by simp)
    · cases stepped
      exact clientRecord_setPhase record index call .rejected (by simp)
    · cases stepped

/-- A step of one run keeps the record if the run does not return early, or its
queue was prepared before. -/
theorem clientRecord_stepInitializer
    {client next : JobClient κ Buffer V} {index run : ℕ} {event : InitializeEvent}
    (record : ClientRecord client)
    (notSuperseded : client.NotSuperseded (.initializerRun index run event))
    (stepped : client.stepInitializer index run event = some next) :
    ClientRecord next := by
  unfold stepInitializer at stepped
  split at stepped
  · cases stepped
  · rename_i old present
    split at stepped
    · cases stepped
    · rename_i new moved
      cases stepped
      have oldMember := List.mem_of_getElem? present
      have completed := fun done => JobQueueInitializer.hasCompleted_step moved done
      obtain ⟨oldPhase, newPhase, found, took, rfl⟩ :=
        JobQueueInitializer.step_cases moved
      have grows :
          Grows client
            { client with
              initializers :=
                client.initializers.set index
                  { old with runs := old.runs.set run newPhase } } := by
        refine Grows.set present ?_ completed rfl
        rfl
      refine ⟨?_, ?_, ?_, ?_, ?_⟩
      · intro queue other itsIndex
        exact grows.atQueue (record.mapped queue other itsIndex)
      · intro initializer member
        rcases List.mem_or_eq_of_mem_set member with earlier | same
        · exact record.promises initializer earlier
        · subst same
          intro promise current
          rw [List.length_set]
          exact record.promises old oldMember promise current
      · intro initializer member superseded
        rcases List.mem_or_eq_of_mem_set member with earlier | same
        · exact (record.superseded initializer earlier superseded).imp_right
            fun prepared => prepared.mono grows
        · subst same
          rcases List.mem_or_eq_of_mem_set superseded with before | now
          · exact (record.superseded old oldMember before).imp_right
              fun prepared => prepared.mono grows
          · subst now
            exact (notSuperseded old present oldPhase found took).imp_right
              fun prepared => prepared.mono grows
      · intro call member other otherRun preparing
        exact grows.atQueue (record.preparing call member other otherRun preparing)
      · exact fun publication member =>
          (record.published publication member).mono grows

theorem getElem?_disposed
    (client : JobClient κ Buffer V) (index : ℕ) :
    client.disposeJobQueueInitializers.initializers[index]? =
      (client.initializers[index]?).map fun initializer =>
        if client.jobQueueInitializers initializer.queue = some index then
          initializer.dispose
        else
          initializer := by
  simp only [disposeJobQueueInitializers, List.getElem?_map, List.getElem?_zipIdx,
    Option.map_map, Nat.zero_add]
  rfl

theorem grows_disposeJobQueueInitializers (client : JobClient κ Buffer V) :
    Grows client client.disposeJobQueueInitializers := by
  intro index initializer present
  rw [getElem?_disposed, present, Option.map_some]
  split
  · exact ⟨_, rfl, rfl, id⟩
  · exact ⟨_, rfl, rfl, id⟩

theorem clientRecord_disposeJobQueueInitializers
    {client : JobClient κ Buffer V} (record : ClientRecord client) :
    ClientRecord client.disposeJobQueueInitializers := by
  have grows := grows_disposeJobQueueInitializers client
  have origin :
      ∀ initializer ∈ client.disposeJobQueueInitializers.initializers,
        ∃ earlier ∈ client.initializers,
          initializer = earlier ∨ initializer = earlier.dispose := by
    intro initializer member
    obtain ⟨index, place⟩ := List.mem_iff_getElem?.mp member
    rw [getElem?_disposed, Option.map_eq_some_iff] at place
    obtain ⟨earlier, earlierPlace, rfl⟩ := place
    refine ⟨earlier, List.mem_of_getElem? earlierPlace, ?_⟩
    split
    · exact Or.inr rfl
    · exact Or.inl rfl
  refine ⟨nofun, ?_, ?_, ?_, ?_⟩
  · intro initializer member
    obtain ⟨earlier, earlierMember, rfl | rfl⟩ := origin initializer member
    · exact record.promises _ earlierMember
    · exact nofun
  · intro initializer member superseded
    obtain ⟨earlier, earlierMember, rfl | rfl⟩ := origin initializer member
    · exact (record.superseded _ earlierMember superseded).imp_right
        fun prepared => prepared.mono grows
    · exact (record.superseded earlier earlierMember superseded).imp_right
        fun prepared => prepared.mono grows
  · intro call member index run preparing
    exact grows.atQueue (record.preparing call member index run preparing)
  · exact fun publication member =>
      (record.published publication member).mono grows

theorem clientRecord_getInitializer
    {client : JobClient κ Buffer V} (config : JobClientConfig κ Buffer V)
    (record : ClientRecord client) (queue : String) :
    ClientRecord (client.getInitializer config queue).1 ∧
      ∃ initializer,
        (client.getInitializer config queue).1.initializers[
            (client.getInitializer config queue).2]? = some initializer ∧
          initializer.queue = queue := by
  unfold getInitializer
  split
  · rename_i index found
    exact ⟨record, record.mapped queue index found⟩
  · have created :
        (client.initializers ++
            [JobQueueInitializer.create config.exchange queue])[
              client.initializers.length]? =
          some (JobQueueInitializer.create config.exchange queue) :=
      List.getElem?_concat_length
    have grows :
        Grows client
          { client with
            jobQueueInitializers :=
              update client.jobQueueInitializers queue
                (some client.initializers.length)
            initializers :=
              client.initializers ++
                [JobQueueInitializer.create config.exchange queue] } := by
      intro index initializer present
      have inside := (List.getElem?_eq_some_iff.mp present).1
      refine ⟨initializer, ?_, rfl, id⟩
      rw [← present]
      exact List.getElem?_append_left inside
    refine ⟨⟨?_, ?_, ?_, ?_, ?_⟩, _, created, rfl⟩
    · intro other index itsIndex
      by_cases same : other = queue
      · subst same
        simp only [update_self, Option.some.injEq] at itsIndex
        subst itsIndex
        exact ⟨_, created, rfl⟩
      · simp only [update_of_ne same] at itsIndex
        exact grows.atQueue (record.mapped other index itsIndex)
    · intro initializer member
      rcases List.mem_append.mp member with earlier | new
      · exact record.promises initializer earlier
      · rw [List.mem_singleton.mp new]
        exact nofun
    · intro initializer member superseded
      rcases List.mem_append.mp member with earlier | new
      · exact (record.superseded initializer earlier superseded).imp_right
          fun prepared => prepared.mono grows
      · rw [List.mem_singleton.mp new] at superseded
        cases superseded
    · intro call member index run preparing
      exact grows.atQueue (record.preparing call member index run preparing)
    · exact fun publication member =>
        (record.published publication member).mono grows

theorem clientRecord_performInBackground
    {client : JobClient κ Buffer V} (config : JobClientConfig κ Buffer V)
    (record : ClientRecord client) (queue : String) (options : PerformOptions V) :
    ClientRecord (client.performInBackground config queue options) := by
  unfold performInBackground
  split
  · refine record.of_eq rfl rfl rfl ?_ (fun _ => Or.inl)
    intro call member index run preparing
    rcases List.mem_append.mp member with earlier | new
    · exact earlier
    · rw [List.mem_singleton.mp new] at preparing
      cases preparing
  · obtain ⟨found, initializer, place, itsQueue⟩ :=
      clientRecord_getInitializer config record queue
    generalize client.getInitializer config queue = got at found place
    simp only [place]
    have member := List.mem_of_getElem? place
    obtain ⟨_, valid, runs⟩ :=
      JobQueueInitializer.initializeQueue_runs (found.promises initializer member)
    have sameQueue := JobQueueInitializer.initializeQueue_queue initializer
    have grows :
        Grows got.1
          { got.1 with
            initializers :=
              got.1.initializers.set got.2 initializer.initializeQueue.1
            calls :=
              got.1.calls ++
                [⟨queue, options,
                  .preparing got.2 initializer.initializeQueue.2⟩] } :=
      Grows.set place sameQueue
        (fun completed =>
          JobQueueInitializer.hasCompleted_initializeQueue completed) rfl
    refine ⟨?_, ?_, ?_, ?_, ?_⟩
    · intro other index itsIndex
      exact grows.atQueue (found.mapped other index itsIndex)
    · intro other otherMember
      rcases List.mem_or_eq_of_mem_set otherMember with earlier | same
      · exact found.promises other earlier
      · rw [same]
        exact valid
    · intro other otherMember superseded
      rcases List.mem_or_eq_of_mem_set otherMember with earlier | same
      · exact (found.superseded other earlier superseded).imp_right
          fun prepared => prepared.mono grows
      · subst same
        rw [sameQueue]
        rcases runs _ superseded with earlier | new
        · exact (found.superseded initializer member earlier).imp_right
            fun prepared => prepared.mono grows
        · cases new
    · intro call callMember index run preparing
      rcases List.mem_append.mp callMember with earlier | new
      · exact grows.atQueue (found.preparing call earlier index run preparing)
      · have isNew := List.mem_singleton.mp new
        subst isNew
        cases preparing
        exact grows.atQueue ⟨initializer, place, itsQueue⟩
    · exact fun publication publicationMember =>
        (found.published publication publicationMember).mono grows

theorem clientRecord_preserved (config : JobClientConfig κ Buffer V) :
    (machine config).PreservedUnder NotSuperseded ClientRecord := by
  intro client event next record notSuperseded stepped
  cases event with
  | performInBackground queue options =>
      cases stepped
      exact clientRecord_performInBackground config record queue options
  | amqpReconnected =>
      cases stepped
      unfold handleAmqpReconnected
      split
      · exact record
      · exact clientRecord_disposeJobQueueInitializers record
  | dispose =>
      cases stepped
      have disposed : ClientRecord { client with isDisposed := true } :=
        ⟨record.mapped, record.promises, fun _ _ _ => Or.inl rfl,
          record.preparing, record.published⟩
      exact clientRecord_disposeJobQueueInitializers disposed
  | initializerRun index run event =>
      exact clientRecord_stepInitializer record notSuperseded stepped
  | prepared call => exact clientRecord_settlePreparation record stepped
  | publishSettled call settlement =>
      exact clientRecord_settlePublish record stepped

/-- While no initializer is superseded before its queue has been prepared, every
job is published into a prepared queue. -/
theorem published_prepared
    (config : JobClientConfig κ Buffer V)
    (schedule : List (JobClientEvent V)) (client : JobClient κ Buffer V)
    (notSuperseded :
      (machine config).Throughout NotSuperseded (machine config).initial schedule)
    (execution :
      (machine config).run (machine config).initial schedule = some client) :
    ∀ publication ∈ client.published, client.Prepared publication.routingKey := by
  have initially : ClientRecord (machine config).initial :=
    ⟨nofun, nofun, nofun, nofun, nofun⟩
  exact (Machine.run_invariant_under (clientRecord_preserved config) initially
    notSuperseded execution).published

/-! ## A concrete client -/

/-- Integers as values, with strings read as their lengths. -/
def integerConfig : JobClientConfig ℕ (SerializedContext ℤ) ℤ where
  exchange := "jobs"
  serialize := some
  text value := value.length
  absent := 0
  emptyObject := 0
  one := 1
  isPlainObject _ := true
  toText := toString
  numberText _ := "number"
  generateId := id

def mailOptions : PerformOptions ℤ where
  job := "send"
  data := none
  expireMs := none
  transient := false

/-- A first call of a queue is prepared and publishes. -/
def preparedCall : List (JobClientEvent ℤ) :=
  [.performInBackground "mail" mailOptions, .initializerRun 0 0 .started,
    .initializerRun 0 0 (.commandSettled .fulfilled),
    .initializerRun 0 0 (.commandSettled .fulfilled),
    .initializerRun 0 0 (.commandSettled .fulfilled), .prepared 0]

theorem published_prepared_first :
    ∃ client : JobClient ℕ (SerializedContext ℤ) ℤ,
      (machine integerConfig).run (machine integerConfig).initial preparedCall =
          some client ∧
        client.published.map Publication.routingKey = ["mail"] ∧
        ∀ publication ∈ client.published,
          client.Prepared publication.routingKey := by
  refine ⟨_, rfl, rfl, published_prepared integerConfig preparedCall _ ?_ rfl⟩
  refine Machine.throughout_cons trivial rfl ?_
  refine Machine.throughout_cons ?_ rfl ?_
  · rintro initializer ⟨⟩ phase ⟨⟩ ⟨⟩
  refine Machine.throughout_cons ?_ rfl ?_
  · rintro initializer ⟨⟩ phase ⟨⟩ ⟨⟩
  refine Machine.throughout_cons ?_ rfl ?_
  · rintro initializer ⟨⟩ phase ⟨⟩ ⟨⟩
  refine Machine.throughout_cons ?_ rfl ?_
  · rintro initializer ⟨⟩ phase ⟨⟩ ⟨⟩
  exact Machine.throughout_cons trivial rfl trivial

/-- The connection is replaced while the first call of a queue waits for the
assertion of the exchange. -/
def reconnectedCall : List (JobClientEvent ℤ) :=
  [.performInBackground "mail" mailOptions, .initializerRun 0 0 .started,
    .amqpReconnected, .initializerRun 0 0 (.commandSettled .fulfilled),
    .prepared 0]

theorem reconnectedCall_unprepared :
    ¬ ∀ (schedule : List (JobClientEvent ℤ))
        (client : JobClient ℕ (SerializedContext ℤ) ℤ),
      (machine integerConfig).run (machine integerConfig).initial schedule =
          some client →
        ∀ publication ∈ client.published,
          client.Prepared publication.routingKey := by
  intro prepared
  obtain ⟨initializer, member, _, completed⟩ :=
    prepared reconnectedCall _ rfl _ (.head _)
  rcases member with _ | ⟨_, ⟨⟩⟩
  rcases completed with _ | ⟨_, ⟨⟩⟩

end JobClient

end Amq.Jobs
