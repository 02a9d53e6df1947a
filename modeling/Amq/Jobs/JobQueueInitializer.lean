import Amq.JsNumber
import Mathlib.Data.List.Basic

/-!
# Job queue initialization

`initialize` starts a run in a microtask and hands out its promise; later calls
get the same promise until `reset` or `dispose`.  A run that finds itself
superseded at one of its three checks returns early, and its promise *resolves*.
-/

namespace Amq.Jobs

/-- The commands of an initialization, with their arguments. -/
inductive QueueSetupCommand where
  | assertExchange (exchange type : String) (durable autoDelete : Bool)
  | assertQueue (queue : String) (durable autoDelete exclusive : Bool)
  | bindQueue (exchange queue routingKey : String)
  deriving DecidableEq, Repr

/-- Where a run of `initialize` stands. -/
inductive InitializePhase where
  | scheduled
  | assertingExchange
  | assertingQueue
  | bindingQueue
  | completed
  /-- Returned early because its promise was no longer the current one. -/
  | superseded
  | failed
  deriving DecidableEq, Repr

inductive InitializeEvent where
  | started
  | commandSettled (settlement : Settlement)
  deriving DecidableEq, Repr

structure JobQueueInitializer where
  exchange : String
  queue : String
  /-- The run whose promise is current. -/
  initializePromise : Option ℕ
  runs : List InitializePhase
  deriving DecidableEq, Repr

namespace InitializePhase

/-- The promise of the run has resolved. -/
def isResolved : InitializePhase → Bool
  | .completed => true
  | .superseded => true
  | _ => false

/-- The command that a run in this phase is waiting for. -/
def command (initializer : JobQueueInitializer) :
    InitializePhase → Option QueueSetupCommand
  | .assertingExchange =>
      some (.assertExchange initializer.exchange "direct" true false)
  | .assertingQueue => some (.assertQueue initializer.queue true false false)
  | .bindingQueue =>
      some (.bindQueue initializer.exchange initializer.queue initializer.queue)
  | _ => none

/-- The next phase of a run which is current or superseded. -/
def next (isCurrent : Bool) : InitializePhase → InitializeEvent → Option InitializePhase
  | .scheduled, .started =>
      some (if isCurrent then .assertingExchange else .superseded)
  | .assertingExchange, .commandSettled .fulfilled =>
      some (if isCurrent then .assertingQueue else .superseded)
  | .assertingQueue, .commandSettled .fulfilled =>
      some (if isCurrent then .bindingQueue else .superseded)
  | .bindingQueue, .commandSettled .fulfilled => some .completed
  | .assertingExchange, .commandSettled .rejected => some .failed
  | .assertingQueue, .commandSettled .rejected => some .failed
  | .bindingQueue, .commandSettled .rejected => some .failed
  | _, _ => none

/-- A run that is over stays as it is. -/
theorem next_completed (isCurrent : Bool) (event : InitializeEvent) :
    next isCurrent .completed event = none := by
  cases event <;> rfl

end InitializePhase

namespace JobQueueInitializer

def create (exchange queue : String) : JobQueueInitializer where
  exchange := exchange
  queue := queue
  initializePromise := none
  runs := []

/-- `initialize`: the initializer, and the run whose promise the caller gets. -/
def initializeQueue (initializer : JobQueueInitializer) : JobQueueInitializer × ℕ :=
  match initializer.initializePromise with
  | some promise => (initializer, promise)
  | none =>
      ({ initializer with
          initializePromise := some initializer.runs.length
          runs := initializer.runs ++ [.scheduled] },
        initializer.runs.length)

def reset (initializer : JobQueueInitializer) : JobQueueInitializer :=
  { initializer with initializePromise := none }

def dispose (initializer : JobQueueInitializer) : JobQueueInitializer :=
  { initializer with initializePromise := none }

/-- One run moves on. -/
def step
    (initializer : JobQueueInitializer) (run : ℕ) (event : InitializeEvent) :
    Option JobQueueInitializer :=
  match initializer.runs[run]? with
  | none => none
  | some phase =>
      match phase.next (initializer.initializePromise == some run) event with
      | none => none
      | some next =>
          some { initializer with runs := initializer.runs.set run next }

/-- All three commands of some run have succeeded. -/
def HasCompleted (initializer : JobQueueInitializer) : Prop :=
  .completed ∈ initializer.runs

/-- The current promise belongs to a run of this initializer. -/
def PromiseValid (initializer : JobQueueInitializer) : Prop :=
  ∀ promise ∈ initializer.initializePromise, promise < initializer.runs.length

theorem step_cases
    {initializer next : JobQueueInitializer} {run : ℕ} {event : InitializeEvent}
    (stepped : initializer.step run event = some next) :
    ∃ old new, initializer.runs[run]? = some old ∧
      old.next (initializer.initializePromise == some run) event = some new ∧
      next = { initializer with runs := initializer.runs.set run new } := by
  unfold step at stepped
  split at stepped
  · cases stepped
  · rename_i old present
    split at stepped
    · cases stepped
    · rename_i new moved
      exact ⟨old, new, present, moved, (Option.some.inj stepped).symm⟩

theorem hasCompleted_step
    {initializer next : JobQueueInitializer} {run : ℕ} {event : InitializeEvent}
    (stepped : initializer.step run event = some next)
    (completed : initializer.HasCompleted) :
    next.HasCompleted := by
  obtain ⟨old, new, present, moved, rfl⟩ := step_cases stepped
  obtain ⟨index, found⟩ := List.mem_iff_getElem?.mp completed
  refine List.mem_iff_getElem?.mpr ⟨index, ?_⟩
  by_cases same : run = index
  · subst same
    rw [Option.some.inj (present.symm.trans found),
      InitializePhase.next_completed] at moved
    cases moved
  · rw [List.getElem?_set_ne same]
    exact found

@[simp]
theorem initializeQueue_queue (initializer : JobQueueInitializer) :
    initializer.initializeQueue.1.queue = initializer.queue := by
  unfold initializeQueue
  split <;> rfl

/-- The promise that a caller gets belongs to a run, and the runs before stay. -/
theorem initializeQueue_runs
    {initializer : JobQueueInitializer} (valid : initializer.PromiseValid) :
    initializer.initializeQueue.2 < initializer.initializeQueue.1.runs.length ∧
      initializer.initializeQueue.1.PromiseValid ∧
      ∀ phase ∈ initializer.initializeQueue.1.runs,
        phase ∈ initializer.runs ∨ phase = .scheduled := by
  unfold initializeQueue
  split
  · rename_i promise current
    exact ⟨valid promise current, valid, fun _ => Or.inl⟩
  · refine ⟨by simp, ?_, ?_⟩
    · intro promise current
      cases current
      simp
    · intro phase member
      exact (List.mem_append.mp member).imp_right List.mem_singleton.mp

theorem hasCompleted_initializeQueue
    {initializer : JobQueueInitializer} (completed : initializer.HasCompleted) :
    initializer.initializeQueue.1.HasCompleted := by
  unfold initializeQueue
  split
  · exact completed
  · exact List.mem_append_left _ completed

end JobQueueInitializer

end Amq.Jobs
