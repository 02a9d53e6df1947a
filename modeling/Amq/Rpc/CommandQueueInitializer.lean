import Amq.Jobs.JobQueueInitializer

/-!
# Command queue initialization

The runs of this initializer have the checks of those of `JobQueueInitializer`,
but `initialize` starts a new one every time: the run before it is superseded and
returns early.
-/

namespace Amq.Rpc

open Amq.Jobs

/-- The commands of an initialization, with their arguments. -/
inductive CommandQueueSetup where
  | assertExchange (exchange type : String) (durable autoDelete : Bool)
  | assertQueue (queue : String) (durable autoDelete exclusive : Bool)
  | bindQueue (exchange queue : String)
  deriving DecidableEq, Repr

structure CommandQueueInitializer where
  exchange : String
  queue : String
  isExclusive : Bool
  /-- The run whose promise is current. -/
  initializePromise : Option ℕ
  runs : List InitializePhase
  deriving DecidableEq, Repr

namespace CommandQueueInitializer

def create (exchange queue : String) : CommandQueueInitializer where
  exchange := exchange
  queue := queue
  isExclusive := false
  initializePromise := none
  runs := []

/-- The command that a run in this phase is waiting for. -/
def command (initializer : CommandQueueInitializer) :
    InitializePhase → Option CommandQueueSetup
  | .assertingExchange =>
      some (.assertExchange initializer.exchange "direct" true false)
  | .assertingQueue =>
      some
        (.assertQueue initializer.queue (!initializer.isExclusive) false
          initializer.isExclusive)
  | .bindingQueue =>
      some (.bindQueue initializer.exchange initializer.queue)
  | _ => none

/-- `initialize`: the initializer, and the run whose promise the caller gets. -/
def initializeQueue (initializer : CommandQueueInitializer) :
    CommandQueueInitializer × ℕ :=
  ({ initializer with
      initializePromise := some initializer.runs.length
      runs := initializer.runs ++ [.scheduled] },
    initializer.runs.length)

def dispose (initializer : CommandQueueInitializer) : CommandQueueInitializer :=
  { initializer with initializePromise := none }

def setIsExclusive (initializer : CommandQueueInitializer) (value : Bool) :
    Except String CommandQueueInitializer :=
  match initializer.initializePromise with
  | some _ => .error "Cannot change initialized queue's exclusivity"
  | none => .ok { initializer with isExclusive := value }

/-- One run moves on. -/
def step
    (initializer : CommandQueueInitializer) (run : ℕ) (event : InitializeEvent) :
    Option CommandQueueInitializer :=
  match initializer.runs[run]? with
  | none => none
  | some phase =>
      (phase.next (initializer.initializePromise == some run) event).map
        fun next => { initializer with runs := initializer.runs.set run next }

theorem step_cases
    {initializer next : CommandQueueInitializer} {run : ℕ}
    {event : InitializeEvent}
    (stepped : initializer.step run event = some next) :
    ∃ old new, initializer.runs[run]? = some old ∧
      old.next (initializer.initializePromise == some run) event = some new ∧
      next = { initializer with runs := initializer.runs.set run new } := by
  unfold step at stepped
  split at stepped
  · cases stepped
  · rename_i old present
    obtain ⟨new, moved, rfl⟩ := Option.map_eq_some_iff.mp stepped
    exact ⟨old, new, present, moved, rfl⟩

/-- An exclusivity that is set leaves the runs as they are. -/
theorem setIsExclusive_runs
    {initializer next : CommandQueueInitializer} {value : Bool}
    (changed : initializer.setIsExclusive value = .ok next) :
    next.runs = initializer.runs := by
  unfold setIsExclusive at changed
  split at changed
  · cases changed
  · cases changed
    rfl

end CommandQueueInitializer

end Amq.Rpc
