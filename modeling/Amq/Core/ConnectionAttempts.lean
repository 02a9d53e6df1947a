import Amq.Core.AmqpConnectionInitializer

/-!
# The connection attempts of an initializer

The loop counts its attempts in integers and compares them with a number that
need not be one.  It throws only when the two are equal, and it takes falling
out of the loop for success.  The initializer is a machine here, with all of its
callers and without a cancellation, and each run records what it does with its
connection.
-/


namespace Amq.Core

open Amq.Transition

/-- The check of the constructor of `AmqpConnectionWrapper`, on numbers. -/
def acceptsMaxConnectionAttempts (maxConnectionAttempts : JsNumber) : Bool :=
  !maxConnectionAttempts.lessThan (.ofNat 1)

/-- What a run does with its connection. -/
inductive InitializerObservation where
  | connectionCreated
  | creationFailed
  | connectCalled (attempt : ℕ)
  | connectSettled (attempt : ℕ) (settlement : Settlement)
  | errorEmitted (attempt : ℕ)
  deriving DecidableEq, Repr

/-- A run together with what it has done, the latest first. -/
structure ObservedRun where
  run : InitializerRun
  history : List InitializerObservation

structure AmqpConnectionInitializer where
  /-- The current promise, by its run. -/
  connectionPromise : Option ℕ
  runs : List ObservedRun
  resources : AmqpResources
  /-- The run whose promise each call of `initializeConnection` returned. -/
  callers : List ℕ

inductive AmqpConnectionInitializerEvent where
  | initializeConnection
  | run (index : ℕ) (event : InitializerEvent)
  /-- Whatever else happens to the connection of a run and to its broker. -/
  | connectionChanged
      (index : ℕ) (connection : AmqpConnection) (resources : AmqpResources)

/-- The observation at the head of the loop. -/
def InitializerPhase.callsConnect
    (maxAttempts : JsNumber) (attempt : ℕ) : List InitializerObservation :=
  if (JsNumber.ofNat attempt).atMost maxAttempts then
    [.connectCalled attempt]
  else
    []

/-- What an event of a run makes it do. -/
def InitializerRun.observed
    (maxAttempts : JsNumber) (isCurrent : Bool) (run : InitializerRun)
    (event : InitializerEvent) : List InitializerObservation :=
  match run.phase, event with
  | .scheduled, .started =>
      if isCurrent then
        InitializerPhase.callsConnect maxAttempts 1 ++ [.connectionCreated]
      else
        []
  | .scheduled, .creationFailed => if isCurrent then [.creationFailed] else []
  | .connecting attempt, .connectionSettled .rejected =>
      [.connectSettled attempt .rejected]
  | .creatingChannel attempt _, .channelSettled .fulfilled =>
      if run.connection.isDisposed then
        []
      else
        [.connectSettled attempt .fulfilled]
  | .disposingConnection attempt, .disposed =>
      [.connectSettled attempt .rejected]
  | .disposingChannel attempt, .disposed =>
      [.connectSettled attempt .fulfilled]
  | .refused attempt, .resumed =>
      if isCurrent then [.errorEmitted attempt] else []
  | .delaying attempt, .delayed =>
      if isCurrent then
        InitializerPhase.callsConnect maxAttempts (attempt + 1)
      else
        []
  | _, _ => []

namespace AmqpConnectionInitializer

def create (resources : AmqpResources) : AmqpConnectionInitializer where
  connectionPromise := none
  runs := []
  resources := resources
  callers := []

def initializeConnection
    (initializer : AmqpConnectionInitializer) : AmqpConnectionInitializer :=
  match initializer.connectionPromise with
  | some promise =>
      { initializer with callers := initializer.callers ++ [promise] }
  | none =>
      { initializer with
        connectionPromise := some initializer.runs.length
        runs := initializer.runs ++ [⟨.create, []⟩]
        callers := initializer.callers ++ [initializer.runs.length] }

/-- One event of a run; its `finally` callback clears the promise. -/
def stepRun
    (maxAttempts : JsNumber) (initializer : AmqpConnectionInitializer)
    (index : ℕ) (event : InitializerEvent) :
    Option AmqpConnectionInitializer :=
  match initializer.runs[index]? with
  | none => none
  | some ⟨run, history⟩ =>
      let isCurrent := initializer.connectionPromise == some index
      match run.step maxAttempts isCurrent initializer.resources event with
      | none => none
      | some (next, resources) =>
          some
            { initializer with
              runs :=
                initializer.runs.set index
                  ⟨next, run.observed maxAttempts isCurrent event ++ history⟩
              resources := resources
              connectionPromise :=
                if event = .finished then
                  none
                else
                  initializer.connectionPromise }

def step
    (maxAttempts : JsNumber) (initializer : AmqpConnectionInitializer) :
    AmqpConnectionInitializerEvent → Option AmqpConnectionInitializer
  | .initializeConnection => some initializer.initializeConnection
  | .run index event => initializer.stepRun maxAttempts index event
  | .connectionChanged index connection resources =>
      (initializer.runs[index]?).map fun observed =>
        { initializer with
          runs :=
            initializer.runs.set index
              { observed with run := { observed.run with connection } }
          resources := resources }

/-- The initializer as a machine that nobody cancels. -/
def machine (maxAttempts : JsNumber) (resources : AmqpResources) :
    Machine AmqpConnectionInitializer AmqpConnectionInitializerEvent where
  initial := create resources
  step := step maxAttempts

end AmqpConnectionInitializer

/-! ## What a run should do -/

/-- One connection was made, and so many attempts failed, each with its error. -/
def failedAttempts : ℕ → List InitializerObservation
  | 0 => [.connectionCreated]
  | attempt + 1 =>
      .errorEmitted (attempt + 1) ::
        .connectSettled (attempt + 1) .rejected ::
          .connectCalled (attempt + 1) :: failedAttempts attempt

/-- A run stops at its first success, resolves with its connection then, and is
rejected when another attempt would be one too many.  Without a connection it
makes no attempt and passes the error on. -/
inductive Exact (maxAttempts : JsNumber) :
    List InitializerObservation → InitializerResult → Prop
  | uncreated :
      Exact maxAttempts [.creationFailed] (.rejected .creationFailed)
  | connected (failures : ℕ)
      (within : (JsNumber.ofNat (failures + 1)).atMost maxAttempts = true) :
      Exact maxAttempts
        (.connectSettled (failures + 1) .fulfilled ::
          .connectCalled (failures + 1) :: failedAttempts failures)
        .connection
  | exceeded (failures : ℕ)
      (within : (JsNumber.ofNat failures).atMost maxAttempts = true)
      (exhausted :
        (JsNumber.ofNat (failures + 1)).atMost maxAttempts = false) :
      Exact maxAttempts (failedAttempts failures) (.rejected .attemptsExceeded)

/-- A call of `initializeConnection` during a run returns the promise of the
run. -/
def JoinsRun
    (initializer : AmqpConnectionInitializer) :
    AmqpConnectionInitializerEvent → Prop
  | .initializeConnection =>
      ∀ index observed, initializer.runs[index]? = some observed →
        (∀ result, observed.run.phase ≠ .settled result) →
          initializer.initializeConnection.callers =
              initializer.callers ++ [index] ∧
            initializer.initializeConnection.runs = initializer.runs
  | _ => True

/-- The bound is an integer, or there is none, or one of the attempts within the
bound can connect. -/
def BoundIsHit (maxAttempts : JsNumber) (outcome : ℕ → Settlement) : Prop :=
  maxAttempts.isInteger = true ∨ maxAttempts = .infinity ∨
    ∃ attempt, 1 ≤ attempt ∧
      (JsNumber.ofNat attempt).atMost maxAttempts = true ∧
        outcome attempt = .fulfilled

/-! ## Where a run stands -/

namespace InitializerRun

/-- What a run has done in each phase, as long as nobody cancels it. -/
inductive Recorded (maxAttempts : JsNumber) :
    InitializerPhase → List InitializerObservation → Prop
  | scheduled : Recorded maxAttempts .scheduled []
  | uncreated :
      Recorded maxAttempts (.returned (.rejected .creationFailed))
        [.creationFailed]
  | connecting (failures : ℕ)
      (within : (JsNumber.ofNat (failures + 1)).atMost maxAttempts = true) :
      Recorded maxAttempts (.connecting (failures + 1))
        (.connectCalled (failures + 1) :: failedAttempts failures)
  | creatingChannel (failures amqplibConnection : ℕ)
      (within : (JsNumber.ofNat (failures + 1)).atMost maxAttempts = true) :
      Recorded maxAttempts (.creatingChannel (failures + 1) amqplibConnection)
        (.connectCalled (failures + 1) :: failedAttempts failures)
  | disposingConnection (failures : ℕ)
      (within : (JsNumber.ofNat (failures + 1)).atMost maxAttempts = true) :
      Recorded maxAttempts (.disposingConnection (failures + 1))
        (.connectCalled (failures + 1) :: failedAttempts failures)
  | disposingChannel (failures : ℕ)
      (within : (JsNumber.ofNat (failures + 1)).atMost maxAttempts = true) :
      Recorded maxAttempts (.disposingChannel (failures + 1))
        (.connectCalled (failures + 1) :: failedAttempts failures)
  | connected (failures : ℕ)
      (within : (JsNumber.ofNat (failures + 1)).atMost maxAttempts = true) :
      Recorded maxAttempts (.connected (failures + 1))
        (.connectSettled (failures + 1) .fulfilled ::
          .connectCalled (failures + 1) :: failedAttempts failures)
  | refused (failures : ℕ)
      (within : (JsNumber.ofNat (failures + 1)).atMost maxAttempts = true) :
      Recorded maxAttempts (.refused (failures + 1))
        (.connectSettled (failures + 1) .rejected ::
          .connectCalled (failures + 1) :: failedAttempts failures)
  | delaying (failures : ℕ)
      (within : (JsNumber.ofNat (failures + 1)).atMost maxAttempts = true)
      (further : JsNumber.ofNat (failures + 1) ≠ maxAttempts) :
      Recorded maxAttempts (.delaying (failures + 1))
        (failedAttempts (failures + 1))
  | returnedConnected (failures : ℕ)
      (within : (JsNumber.ofNat (failures + 1)).atMost maxAttempts = true) :
      Recorded maxAttempts (.returned .connection)
        (.connectSettled (failures + 1) .fulfilled ::
          .connectCalled (failures + 1) :: failedAttempts failures)
  /-- The loop has been left at its head. -/
  | fellThrough (failures : ℕ)
      (missed :
        failures = 0 ∨
          (JsNumber.ofNat failures).atMost maxAttempts = true ∧
            JsNumber.ofNat failures ≠ maxAttempts)
      (beyond : (JsNumber.ofNat (failures + 1)).atMost maxAttempts = false) :
      Recorded maxAttempts (.returned .connection) (failedAttempts failures)
  | exceeded (failures : ℕ)
      (last : JsNumber.ofNat (failures + 1) = maxAttempts) :
      Recorded maxAttempts (.returned (.rejected .attemptsExceeded))
        (failedAttempts (failures + 1))
  | settled {result : InitializerResult}
      {history : List InitializerObservation}
      (returned : Recorded maxAttempts (.returned result) history) :
      Recorded maxAttempts (.settled result) history

/-- At the head of the loop the next attempt begins, or the loop is left. -/
theorem recorded_nextAttempt
    {maxAttempts : JsNumber} {failures : ℕ}
    (missed :
      failures = 0 ∨
        (JsNumber.ofNat failures).atMost maxAttempts = true ∧
          JsNumber.ofNat failures ≠ maxAttempts) :
    Recorded maxAttempts (.nextAttempt maxAttempts (failures + 1))
      (InitializerPhase.callsConnect maxAttempts (failures + 1) ++
        failedAttempts failures) := by
  unfold InitializerPhase.nextAttempt InitializerPhase.callsConnect
  by_cases within : (JsNumber.ofNat (failures + 1)).atMost maxAttempts = true
  · rw [if_pos within, if_pos within]
    exact .connecting failures within
  · rw [if_neg within, if_neg within]
    exact .fellThrough failures missed (Bool.eq_false_of_not_eq_true within)

theorem recorded_moves
    {maxAttempts : JsNumber} {run : InitializerRun}
    {event : InitializerEvent} {phase : InitializerPhase}
    {history : List InitializerObservation}
    (recorded : Recorded maxAttempts run.phase history)
    (moves : InitializerPhase.Moves maxAttempts true run.phase event phase) :
    Recorded maxAttempts phase
      (run.observed maxAttempts true event ++ history) := by
  obtain ⟨before, connection⟩ := run
  dsimp only at recorded moves
  cases moves with
  | began current =>
      cases recorded
      have begun : Recorded maxAttempts (.nextAttempt maxAttempts 1)
          (InitializerPhase.callsConnect maxAttempts 1 ++ failedAttempts 0) :=
        recorded_nextAttempt (Or.inl rfl)
      rw [List.append_nil]
      exact begun
  | uncreated current =>
      cases recorded
      exact .uncreated
  | unopened attempt =>
      cases recorded with
      | connecting failures within => exact .refused failures within
  | rolledBack attempt =>
      cases recorded with
      | disposingConnection failures within => exact .refused failures within
  | channelDisposed attempt =>
      cases recorded with
      | disposingChannel failures within => exact .connected failures within
  | handedOut attempt current =>
      cases recorded with
      | connected failures within => exact .returnedConnected failures within
  | exceeded attempt current last =>
      cases recorded with
      | refused failures within => exact .exceeded failures last
  | postponed attempt current further =>
      cases recorded with
      | refused failures within => exact .delaying failures within further
  | retried attempt current =>
      cases recorded with
      | delaying failures within further =>
          exact recorded_nextAttempt (Or.inr ⟨within, further⟩)
  | cancelled _ _ superseded => cases superseded
  | finished result => exact .settled recorded

theorem recorded_steps
    {maxAttempts : JsNumber} {run next : InitializerRun}
    {resources resources' : AmqpResources} {event : InitializerEvent}
    {history : List InitializerObservation}
    (recorded : Recorded maxAttempts run.phase history)
    (steps : Steps maxAttempts true run resources event next resources') :
    Recorded maxAttempts next.phase
      (run.observed maxAttempts true event ++ history) := by
  cases steps with
  | moved moves => exact recorded_moves recorded moves
  | opened before =>
      rw [before] at recorded
      simp only [observed, before, List.nil_append]
      cases recorded with
      | connecting failures within => exact .creatingChannel failures _ within
  | created before active =>
      rw [before] at recorded
      simp only [observed, before, active, Bool.false_eq_true, if_false]
      cases recorded with
      | creatingChannel failures _ within => exact .connected failures within
  | createdDisposed before disposed =>
      rw [before] at recorded
      simp only [observed, before, disposed, if_true, List.nil_append]
      cases recorded with
      | creatingChannel failures _ within =>
          exact .disposingChannel failures within
  | failed before =>
      rw [before] at recorded
      simp only [observed, before, List.nil_append]
      cases recorded with
      | creatingChannel failures _ within =>
          exact .disposingConnection failures within

/-- A run whose promise has settled is over. -/
theorem unsettled_of_step
    {maxAttempts : JsNumber} {isCurrent : Bool} {run next : InitializerRun}
    {resources resources' : AmqpResources} {event : InitializerEvent}
    (stepped :
      run.step maxAttempts isCurrent resources event = some (next, resources'))
    (result : InitializerResult) :
    run.phase ≠ .settled result := by
  intro settled
  simp [step, settled] at stepped

/-- The promise settles in the `finally` callback. -/
theorem settled_iff_finished
    {maxAttempts : JsNumber} {isCurrent : Bool} {run next : InitializerRun}
    {resources resources' : AmqpResources} {event : InitializerEvent}
    (stepped :
      run.step maxAttempts isCurrent resources event = some (next, resources')) :
    (∃ result, next.phase = .settled result) ↔ event = .finished := by
  obtain ⟨before, connection⟩ := run
  cases steps_of_step stepped with
  | moved moves =>
      dsimp only at moves
      cases moves with
      | began current =>
          rcases InitializerPhase.nextAttempt_cases maxAttempts 1 with same | same
          · simp [moveTo, same]
          · simp [moveTo, same]
      | retried attempt current =>
          rcases InitializerPhase.nextAttempt_cases maxAttempts (attempt + 1) with
            same | same
          · simp [moveTo, same]
          · simp [moveTo, same]
      | cancelled phase event superseded place =>
          rcases place with ⟨_, same⟩ | ⟨_, _, same⟩ | ⟨_, _, same⟩ |
            ⟨_, _, same⟩
          all_goals simp [moveTo, same]
      | _ => simp [moveTo]
  | _ => simp

end InitializerRun

/-! ## The initializer -/

namespace AmqpConnectionInitializer

/-- The run whose promise is current is the one that is not over. -/
structure InProgress (maxAttempts : JsNumber)
    (initializer : AmqpConnectionInitializer) : Prop where
  current :
    ∀ index observed, initializer.runs[index]? = some observed →
      (∀ result, observed.run.phase ≠ .settled result) →
        initializer.connectionPromise = some index
  present :
    ∀ index, initializer.connectionPromise = some index →
      ∃ observed, initializer.runs[index]? = some observed ∧
        ∀ result, observed.run.phase ≠ .settled result
  recorded :
    ∀ observed ∈ initializer.runs,
      InitializerRun.Recorded maxAttempts observed.run.phase observed.history

theorem inProgress_create
    (maxAttempts : JsNumber) (resources : AmqpResources) :
    InProgress maxAttempts (create resources) where
  current := by
    intro index observed found
    cases found
  present := by
    intro index same
    cases same
  recorded := by
    intro observed member
    cases member

theorem InProgress.initializeConnection
    {maxAttempts : JsNumber} {initializer : AmqpConnectionInitializer}
    (inProgress : InProgress maxAttempts initializer) :
    InProgress maxAttempts initializer.initializeConnection := by
  unfold AmqpConnectionInitializer.initializeConnection
  split
  · exact ⟨inProgress.current, inProgress.present, inProgress.recorded⟩
  · rename_i unpromised
    refine ⟨?_, ?_, ?_⟩
    · intro index observed found unsettled
      dsimp only at found ⊢
      rcases concat_cases found with earlier | ⟨last, _⟩
      · have impossible := inProgress.current index observed earlier unsettled
        rw [unpromised] at impossible
        cases impossible
      · rw [last]
    · intro index same
      cases same
      exact ⟨_, List.getElem?_concat_length, by simp [InitializerRun.create]⟩
    · intro observed member
      rcases List.mem_append.mp member with earlier | new
      · exact inProgress.recorded observed earlier
      · rw [List.mem_singleton.mp new]
        exact .scheduled

theorem InProgress.stepRun
    {maxAttempts : JsNumber} {initializer next : AmqpConnectionInitializer}
    {index : ℕ} {event : InitializerEvent}
    (inProgress : InProgress maxAttempts initializer)
    (stepped : initializer.stepRun maxAttempts index event = some next) :
    InProgress maxAttempts next := by
  unfold AmqpConnectionInitializer.stepRun at stepped
  split at stepped
  · cases stepped
  · rename_i run history present
    dsimp only at stepped
    split at stepped
    · cases stepped
    · rename_i following resources taken
      cases stepped
      have isCurrent : initializer.connectionPromise = some index :=
        inProgress.current index _ present
          (InitializerRun.unsettled_of_step taken)
      have inside : index < initializer.runs.length :=
        (List.getElem?_eq_some_iff.mp present).1
      have settles := InitializerRun.settled_iff_finished taken
      rw [isCurrent, beq_self_eq_true] at taken ⊢
      have recorded :=
        InitializerRun.recorded_steps
          (inProgress.recorded _ (List.mem_of_getElem? present))
          (InitializerRun.steps_of_step taken)
      refine ⟨?_, ?_, ?_⟩
      · intro place observed found unsettled
        dsimp only at found ⊢
        rcases set_cases found with ⟨own, itself⟩ | ⟨different, earlier⟩
        · subst own itself
          have unfinished : event ≠ .finished := by
            intro finished
            obtain ⟨result, settled⟩ := settles.mpr finished
            exact unsettled result settled
          rw [if_neg unfinished]
        · have impossible := inProgress.current place observed earlier unsettled
          rw [isCurrent] at impossible
          cases impossible
          exact absurd rfl different
      · intro place same
        dsimp only at same ⊢
        by_cases finished : event = .finished
        · rw [if_pos finished] at same
          cases same
        · rw [if_neg finished] at same
          cases same
          refine ⟨_, List.getElem?_set_self inside, ?_⟩
          intro result settled
          exact finished (settles.mp ⟨result, settled⟩)
      · intro observed member
        rcases List.mem_or_eq_of_mem_set member with earlier | same
        · exact inProgress.recorded observed earlier
        · rw [same]
          exact recorded

theorem InProgress.connectionChanged
    {maxAttempts : JsNumber} {initializer : AmqpConnectionInitializer}
    {index : ℕ} {changed : ObservedRun}
    (inProgress : InProgress maxAttempts initializer)
    (present : initializer.runs[index]? = some changed)
    (connection : AmqpConnection) (resources : AmqpResources) :
    InProgress maxAttempts
      { initializer with
        runs :=
          initializer.runs.set index
            { changed with run := { changed.run with connection } }
        resources := resources } := by
  have inside : index < initializer.runs.length :=
    (List.getElem?_eq_some_iff.mp present).1
  refine ⟨?_, ?_, ?_⟩
  · intro place observed found unsettled
    dsimp only at found
    rcases set_cases found with ⟨own, itself⟩ | ⟨_, earlier⟩
    · subst own itself
      exact inProgress.current place changed present unsettled
    · exact inProgress.current place observed earlier unsettled
  · intro place same
    obtain ⟨observed, found, unsettled⟩ := inProgress.present place same
    by_cases own : place = index
    · subst own
      cases Option.some.inj (present.symm.trans found)
      exact ⟨_, List.getElem?_set_self inside, unsettled⟩
    · exact ⟨observed, by rw [List.getElem?_set_ne (Ne.symm own), found], unsettled⟩
  · intro observed member
    rcases List.mem_or_eq_of_mem_set member with earlier | same
    · exact inProgress.recorded observed earlier
    · rw [same]
      exact inProgress.recorded changed (List.mem_of_getElem? present)

theorem inProgress_preserved
    (maxAttempts : JsNumber) (resources : AmqpResources) :
    (machine maxAttempts resources).Preserved (InProgress maxAttempts) := by
  intro initializer event next inProgress stepped
  cases event with
  | initializeConnection =>
      cases stepped
      exact inProgress.initializeConnection
  | run index event => exact inProgress.stepRun stepped
  | connectionChanged index connection resources =>
      obtain ⟨changed, present, same⟩ := Option.map_eq_some_iff.mp stepped
      subst same
      exact inProgress.connectionChanged present connection resources

/-- At any time a call joins the run that is not over. -/
theorem InProgress.joinsRun
    {maxAttempts : JsNumber} {initializer : AmqpConnectionInitializer}
    (inProgress : InProgress maxAttempts initializer)
    (event : AmqpConnectionInitializerEvent) :
    JoinsRun initializer event := by
  cases event with
  | initializeConnection =>
      intro index observed found unsettled
      have current := inProgress.current index observed found unsettled
      simp [AmqpConnectionInitializer.initializeConnection, current]
  | run index event => trivial
  | connectionChanged index connection resources => trivial

theorem joinsRun_throughout
    {maxAttempts : JsNumber} {resources : AmqpResources}
    {initializer target : AmqpConnectionInitializer}
    {schedule : List AmqpConnectionInitializerEvent}
    (inProgress : InProgress maxAttempts initializer)
    (execution :
      (machine maxAttempts resources).run initializer schedule = some target) :
    (machine maxAttempts resources).Throughout JoinsRun initializer schedule := by
  induction schedule generalizing initializer with
  | nil => trivial
  | cons event rest inductionHypothesis =>
      obtain ⟨next, stepped, remaining⟩ := Machine.run_cons_iff.mp execution
      have later : InProgress maxAttempts next :=
        inProgress_preserved maxAttempts resources _ event next inProgress stepped
      exact Machine.throughout_cons (inProgress.joinsRun event) stepped
        (inductionHypothesis later remaining)

end AmqpConnectionInitializer

/-! ## A run comes to an end -/

namespace InitializerPhase

/-- How many steps a run can still take when it makes at most `bound` attempts. -/
def remaining (bound : ℕ) : InitializerPhase → ℕ
  | .scheduled => 6 * bound + 2
  | .connecting attempt => 6 * (bound - attempt) + 6
  | .creatingChannel attempt _ => 6 * (bound - attempt) + 5
  | .disposingConnection attempt => 6 * (bound - attempt) + 4
  | .disposingChannel attempt => 6 * (bound - attempt) + 4
  | .connected attempt => 6 * (bound - attempt) + 3
  | .refused attempt => 6 * (bound - attempt) + 3
  | .delaying attempt => 6 * (bound - attempt) + 2
  | .returned _ => 1
  | .settled _ => 0

theorem remaining_nextAttempt
    {maxAttempts : JsNumber} {bound attempt : ℕ}
    (bounded : (JsNumber.ofNat (attempt + 1)).atMost maxAttempts = true →
      attempt + 1 ≤ bound) :
    (nextAttempt maxAttempts (attempt + 1)).remaining bound <
      6 * (bound - attempt) + 2 := by
  unfold nextAttempt
  split
  · rename_i within
    have further := bounded within
    simp only [remaining]
    omega
  · simp only [remaining]
    omega

theorem Moves.remaining_lt
    {maxAttempts : JsNumber} {isCurrent : Bool} {bound : ℕ}
    {phase phase' : InitializerPhase} {event : InitializerEvent}
    (moves : Moves maxAttempts isCurrent phase event phase')
    (bounded : ∀ attempt, (JsNumber.ofNat attempt).atMost maxAttempts = true →
      attempt ≤ bound) :
    phase'.remaining bound < phase.remaining bound := by
  cases moves with
  | began current => exact remaining_nextAttempt (bounded (0 + 1))
  | retried attempt current => exact remaining_nextAttempt (bounded (attempt + 1))
  | cancelled _ _ superseded place =>
      rcases place with ⟨same, _⟩ | ⟨_, same, _⟩ | ⟨_, same, _⟩ |
        ⟨_, same, _⟩
      all_goals
        rw [same]
        simp only [remaining]
        omega
  | _ =>
      simp only [remaining]
      omega

end InitializerPhase

namespace InitializerRun

theorem Steps.remaining_lt
    {maxAttempts : JsNumber} {isCurrent : Bool} {bound : ℕ}
    {run next : InitializerRun} {resources resources' : AmqpResources}
    {event : InitializerEvent}
    (steps : Steps maxAttempts isCurrent run resources event next resources')
    (bounded : ∀ attempt, (JsNumber.ofNat attempt).atMost maxAttempts = true →
      attempt ≤ bound) :
    next.phase.remaining bound < run.phase.remaining bound := by
  cases steps with
  | moved moves => exact moves.remaining_lt bounded
  | opened before =>
      rw [before]
      exact Nat.lt_succ_self _
  | created before active =>
      rw [before]
      simp only [InitializerPhase.remaining]
      omega
  | createdDisposed before disposed =>
      rw [before]
      exact Nat.lt_succ_self _
  | failed before =>
      rw [before]
      exact Nat.lt_succ_self _

/-- A run that has not settled can go on as soon as what it awaits settles. -/
theorem exists_step
    (maxAttempts : JsNumber) (isCurrent : Bool) (run : InitializerRun)
    (resources : AmqpResources)
    (unsettled : ∀ result, run.phase ≠ .settled result) :
    ∃ event next, run.step maxAttempts isCurrent resources event = some next := by
  obtain ⟨phase, connection⟩ := run
  cases phase with
  | scheduled =>
      refine ⟨.started, ?_⟩
      cases isCurrent <;> exact ⟨_, rfl⟩
  | connecting attempt => exact ⟨.connectionSettled .rejected, _, rfl⟩
  | creatingChannel attempt amqplibConnection =>
      exact ⟨.channelSettled .rejected, _, rfl⟩
  | disposingConnection attempt => exact ⟨.disposed, _, rfl⟩
  | disposingChannel attempt => exact ⟨.disposed, _, rfl⟩
  | connected attempt =>
      refine ⟨.resumed, ?_⟩
      cases isCurrent <;> exact ⟨_, rfl⟩
  | refused attempt =>
      refine ⟨.resumed, ?_⟩
      cases isCurrent with
      | false => exact ⟨_, rfl⟩
      | true =>
          by_cases last : JsNumber.ofNat attempt = maxAttempts
          · exact ⟨_, if_pos last⟩
          · exact ⟨_, if_neg last⟩
  | delaying attempt =>
      refine ⟨.delayed, ?_⟩
      cases isCurrent <;> exact ⟨_, rfl⟩
  | returned result => exact ⟨.finished, _, rfl⟩
  | settled result => exact absurd rfl (unsettled result)

end InitializerRun

namespace AmqpConnectionInitializer

def isStepOf (index : ℕ) : AmqpConnectionInitializerEvent → Bool
  | .run other _ => other == index
  | _ => false

/-- How many steps the run with this number can still take. -/
def remaining
    (bound : ℕ) (initializer : AmqpConnectionInitializer) (index : ℕ) : ℕ :=
  match initializer.runs[index]? with
  | some observed => observed.run.phase.remaining bound
  | none => 6 * bound + 2

theorem runs_initializeConnection (initializer : AmqpConnectionInitializer) :
    initializer.initializeConnection.runs = initializer.runs ∨
      initializer.initializeConnection.runs =
        initializer.runs ++ [⟨.create, []⟩] := by
  unfold initializeConnection
  split
  · exact Or.inl rfl
  · exact Or.inr rfl

theorem remaining_step
    {maxAttempts : JsNumber} {bound : ℕ}
    (bounded : ∀ attempt, (JsNumber.ofNat attempt).atMost maxAttempts = true →
      attempt ≤ bound)
    {initializer next : AmqpConnectionInitializer}
    {event : AmqpConnectionInitializerEvent}
    (stepped : initializer.step maxAttempts event = some next) (index : ℕ) :
    next.remaining bound index + (isStepOf index event).toNat ≤
      initializer.remaining bound index := by
  unfold remaining
  cases event with
  | initializeConnection =>
      cases stepped
      rcases runs_initializeConnection initializer with same | same
      · rw [same]
        exact Nat.le_refl _
      · rw [same]
        rcases Nat.lt_trichotomy index initializer.runs.length with
          inside | last | outside
        · rw [List.getElem?_append_left inside]
          exact Nat.le_refl _
        · rw [last, List.getElem?_concat_length,
            List.getElem?_eq_none (Nat.le_refl _)]
          exact Nat.le_refl _
        · rw [List.getElem?_eq_none (by simp; omega),
            List.getElem?_eq_none (Nat.le_of_lt outside)]
          exact Nat.le_refl _
  | run place event =>
      simp only [step, stepRun] at stepped
      split at stepped
      · cases stepped
      · rename_i run history present
        split at stepped
        · cases stepped
        · rename_i following resources taken
          cases stepped
          dsimp only
          by_cases own : place = index
          · subst own
            have inside : place < initializer.runs.length :=
              (List.getElem?_eq_some_iff.mp present).1
            have fewer :=
              (InitializerRun.steps_of_step taken).remaining_lt bounded
            rw [List.getElem?_set_self inside, present]
            simp only [isStepOf, beq_self_eq_true, Bool.toNat_true]
            exact fewer
          · rw [List.getElem?_set_ne own]
            simp [isStepOf, own]
  | connectionChanged place connection resources =>
      obtain ⟨changed, present, same⟩ := Option.map_eq_some_iff.mp stepped
      subst same
      dsimp only
      by_cases own : place = index
      · subst own
        have inside : place < initializer.runs.length :=
          (List.getElem?_eq_some_iff.mp present).1
        rw [List.getElem?_set_self inside, present]
        exact Nat.le_refl _
      · rw [List.getElem?_set_ne own]
        exact Nat.le_refl _

/-- With a finite bound no run goes on forever. -/
theorem steps_bounded
    {maxAttempts : JsNumber} {bound : ℕ}
    (bounded : ∀ attempt, (JsNumber.ofNat attempt).atMost maxAttempts = true →
      attempt ≤ bound)
    {resources : AmqpResources}
    {initializer target : AmqpConnectionInitializer}
    {schedule : List AmqpConnectionInitializerEvent}
    (execution :
      (machine maxAttempts resources).run initializer schedule = some target)
    (index : ℕ) :
    target.remaining bound index + schedule.countP (isStepOf index) ≤
      initializer.remaining bound index := by
  induction schedule generalizing initializer with
  | nil =>
      simp only [Machine.run_nil, Option.some.injEq] at execution
      rw [execution]
      exact Nat.le_refl _
  | cons event rest inductionHypothesis =>
      obtain ⟨next, stepped, remaining⟩ := Machine.run_cons_iff.mp execution
      have later := inductionHypothesis remaining
      have now := remaining_step bounded stepped index
      rw [List.countP_cons]
      cases own : isStepOf index event with
      | false =>
          rw [own, Bool.toNat_false] at now
          simp only [Bool.false_eq_true, if_false]
          omega
      | true =>
          rw [own, Bool.toNat_true] at now
          simp only [if_true]
          omega

/-- Each run takes a bounded number of steps, and until it has settled it can
take another one. -/
theorem runs_end
    {maxAttempts : JsNumber} {bound : ℕ}
    (bounded : ∀ attempt, (JsNumber.ofNat attempt).atMost maxAttempts = true →
      attempt ≤ bound)
    {resources : AmqpResources} {initializer : AmqpConnectionInitializer}
    {schedule : List AmqpConnectionInitializerEvent}
    (execution :
      (machine maxAttempts resources).run (create resources) schedule =
        some initializer)
    (index : ℕ) :
    schedule.countP (isStepOf index) ≤ 6 * bound + 2 ∧
      ∀ observed, initializer.runs[index]? = some observed →
        (∀ result, observed.run.phase ≠ .settled result) →
          ∃ event next,
            initializer.step maxAttempts (.run index event) = some next := by
  constructor
  · have taken := steps_bounded bounded execution index
    have initially : (create resources).remaining bound index = 6 * bound + 2 :=
      rfl
    omega
  · intro observed present unsettled
    obtain ⟨event, ⟨next, resources⟩, stepped⟩ :=
      InitializerRun.exists_step maxAttempts
        (initializer.connectionPromise == some index) observed.run
        initializer.resources unsettled
    exact ⟨event, _, by simp only [step, stepRun, present, stepped]; rfl⟩

end AmqpConnectionInitializer

/-! ## Where the loop is left -/

section Bound

variable {maxAttempts : JsNumber} {failures : ℕ}

theorem mem_failedAttempts
    {attempt : ℕ} (positive : 1 ≤ attempt) (within : attempt ≤ failures) :
    .connectSettled attempt .rejected ∈ failedAttempts failures := by
  induction failures with
  | zero => omega
  | succ failures inductionHypothesis =>
      unfold failedAttempts
      by_cases last : attempt = failures + 1
      · subst last
        simp
      · have earlier := inductionHypothesis (by omega)
        simp [earlier]

theorem created_failedAttempts : .creationFailed ∉ failedAttempts failures := by
  induction failures with
  | zero => simp [failedAttempts]
  | succ failures inductionHypothesis =>
      simpa [failedAttempts] using inductionHypothesis

/-- A run whose attempts have all failed has not resolved as it should. -/
theorem not_exact_failedAttempts :
    ¬ Exact maxAttempts (failedAttempts failures) .connection := by
  generalize same : failedAttempts failures = history
  intro isExact
  cases isExact with
  | connected earlier within =>
      cases failures with
      | zero => cases same
      | succ failures => cases same

theorem atMost_finite_iff (value : ℚ) (attempt : ℕ) :
    (JsNumber.ofNat attempt).atMost (.finite value) = true ↔
      (attempt : ℚ) ≤ value := by
  simp [JsNumber.ofNat, JsNumber.atMost]

/-- Only `NaN` is accepted and allows no attempt at all. -/
theorem eq_nan_of_no_attempt
    (accepted : acceptsMaxConnectionAttempts maxAttempts = true)
    (beyond : (JsNumber.ofNat 1).atMost maxAttempts = false) :
    maxAttempts = .nan := by
  cases maxAttempts with
  | finite value =>
      have less : ¬ value < 1 := by
        simpa [acceptsMaxConnectionAttempts, JsNumber.ofNat,
          JsNumber.lessThan] using accepted
      have more : ¬ (1 : ℚ) ≤ value := by
        intro within
        have attempted : (JsNumber.ofNat 1).atMost (.finite value) = true :=
          (atMost_finite_iff value 1).mpr (by exact_mod_cast within)
        rw [beyond] at attempted
        cases attempted
      exact absurd (not_lt.mp less) more
  | infinity => cases beyond
  | negativeInfinity => cases accepted
  | nan => rfl

/-- A bound that the loop steps over is a fraction. -/
theorem fraction_of_missed
    (within : (JsNumber.ofNat failures).atMost maxAttempts = true)
    (different : JsNumber.ofNat failures ≠ maxAttempts)
    (beyond : (JsNumber.ofNat (failures + 1)).atMost maxAttempts = false) :
    ∃ value : ℚ, maxAttempts = .finite value ∧ (failures : ℚ) < value ∧
      value < failures + 1 := by
  cases maxAttempts with
  | finite value =>
      refine ⟨value, rfl, ?_, ?_⟩
      · have atMost := (atMost_finite_iff value failures).mp within
        refine lt_of_le_of_ne atMost ?_
        intro same
        exact different (congrArg JsNumber.finite same)
      · by_contra further
        have attempted :
            (JsNumber.ofNat (failures + 1)).atMost (.finite value) = true := by
          refine (atMost_finite_iff value (failures + 1)).mpr ?_
          push_cast
          exact not_lt.mp further
        rw [beyond] at attempted
        cases attempted
  | infinity => cases beyond
  | negativeInfinity => cases within
  | nan => cases within

theorem not_isInteger_between
    {value : ℚ} (above : (failures : ℚ) < value) (below : value < failures + 1) :
    JsNumber.isInteger (.finite value) = false := by
  by_contra integer
  have whole : value.den = 1 := by
    simpa [JsNumber.isInteger] using integer
  have itself : (value.num : ℚ) = value := (Rat.den_eq_one_iff value).mp whole
  rw [← itself] at above below
  have lower : (failures : ℤ) < value.num := by exact_mod_cast above
  have upper : value.num < failures + 1 := by exact_mod_cast below
  omega

/-- The loop falls through exactly when the bound is missed. -/
theorem not_boundIsHit
    (accepted : acceptsMaxConnectionAttempts maxAttempts = true)
    {outcome : ℕ → Settlement}
    (failed : ∀ attempt, 1 ≤ attempt → attempt ≤ failures →
      outcome attempt = .rejected)
    (missed :
      failures = 0 ∨
        (JsNumber.ofNat failures).atMost maxAttempts = true ∧
          JsNumber.ofNat failures ≠ maxAttempts)
    (beyond : (JsNumber.ofNat (failures + 1)).atMost maxAttempts = false) :
    ¬ BoundIsHit maxAttempts outcome := by
  rcases missed with none | ⟨within, different⟩
  · subst none
    have nan := eq_nan_of_no_attempt accepted beyond
    subst nan
    intro hit
    rcases hit with integer | infinite | ⟨attempt, _, attempted, _⟩
    · cases integer
    · cases infinite
    · cases attempted
  · obtain ⟨value, same, above, below⟩ :=
      fraction_of_missed within different beyond
    subst same
    intro hit
    rcases hit with integer | infinite | ⟨attempt, positive, attempted, fulfilled⟩
    · rw [not_isInteger_between above below] at integer
      cases integer
    · cases infinite
    · have atMost := (atMost_finite_iff value attempt).mp attempted
      have fewer : (attempt : ℚ) < failures + 1 := lt_of_le_of_lt atMost below
      have few : attempt < failures + 1 := by exact_mod_cast fewer
      have rejected := failed attempt positive (by omega)
      rw [fulfilled] at rejected
      cases rejected

end Bound

/-- A settled run has done what it should exactly when it had no connection or
its bound is hit. -/
theorem exact_iff_boundIsHit
    {maxAttempts : JsNumber} {outcome : ℕ → Settlement}
    {history : List InitializerObservation} {result : InitializerResult}
    (accepted : acceptsMaxConnectionAttempts maxAttempts = true)
    (recorded :
      InitializerRun.Recorded maxAttempts (.settled result) history)
    (follows :
      ∀ attempt settlement, .connectSettled attempt settlement ∈ history →
        outcome attempt = settlement) :
    Exact maxAttempts history result ↔
      .creationFailed ∈ history ∨ BoundIsHit maxAttempts outcome := by
  cases recorded with
  | settled returned =>
      cases returned with
      | uncreated => exact iff_of_true .uncreated (Or.inl List.mem_cons_self)
      | returnedConnected failures within =>
          refine iff_of_true (.connected failures within) ?_
          have fulfilled : outcome (failures + 1) = .fulfilled :=
            follows _ _ List.mem_cons_self
          exact Or.inr
            (Or.inr (Or.inr ⟨failures + 1, by omega, within, fulfilled⟩))
      | fellThrough failures missed beyond =>
          refine iff_of_false not_exact_failedAttempts ?_
          refine not_or.mpr ⟨created_failedAttempts, ?_⟩
          refine not_boundIsHit accepted ?_ missed beyond
          intro attempt positive within
          exact follows attempt .rejected (mem_failedAttempts positive within)
      | exceeded failures last =>
          subst last
          refine
            iff_of_true (.exceeded (failures + 1) ?_ ?_) (Or.inr (Or.inl ?_))
          · simp
          · simp
          · exact decide_eq_true (Rat.den_natCast (failures + 1))

/-- A run of an initializer that nobody cancels does what it should, and its
callers share its promise, exactly when there is no connection to be attempted,
the bound is an integer or infinite, or one of the attempts within it can
connect. -/
theorem connection_attempts_exact_iff
    (maxAttempts : JsNumber)
    (accepted : acceptsMaxConnectionAttempts maxAttempts = true)
    (resources : AmqpResources)
    (schedule : List AmqpConnectionInitializerEvent)
    (initializer : AmqpConnectionInitializer)
    (execution :
      (AmqpConnectionInitializer.machine maxAttempts resources).run
          (.create resources) schedule = some initializer)
    (index : ℕ) (observed : ObservedRun)
    (present : initializer.runs[index]? = some observed)
    (result : InitializerResult)
    (settled : observed.run.phase = .settled result)
    (outcome : ℕ → Settlement)
    (follows :
      ∀ attempt settlement,
        .connectSettled attempt settlement ∈ observed.history →
          outcome attempt = settlement) :
    (Exact maxAttempts observed.history result ∧
        (AmqpConnectionInitializer.machine maxAttempts resources).Throughout
          JoinsRun (.create resources) schedule) ↔
      .creationFailed ∈ observed.history ∨ BoundIsHit maxAttempts outcome := by
  have initially :=
    AmqpConnectionInitializer.inProgress_create maxAttempts resources
  have inProgress :
      AmqpConnectionInitializer.InProgress maxAttempts initializer :=
    Machine.run_invariant
      (AmqpConnectionInitializer.inProgress_preserved maxAttempts resources)
      initially execution
  have joined :=
    AmqpConnectionInitializer.joinsRun_throughout initially execution
  have recorded :=
    inProgress.recorded observed (List.mem_of_getElem? present)
  rw [settled] at recorded
  rw [and_iff_left joined]
  exact exact_iff_boundIsHit accepted recorded follows

/-- Two callers share a run whose second attempt connects. -/
def sharedRun : List AmqpConnectionInitializerEvent :=
  .initializeConnection :: .run 0 .started :: .initializeConnection ::
    (InitializerRun.secondAttempt.tail).map (.run 0)

theorem connection_attempts_exact_iff_sharedRun :
    ∃ initializer observed,
      (AmqpConnectionInitializer.machine (.ofNat 2)
            InitializerRun.unusedResources).run
          (.create InitializerRun.unusedResources) sharedRun =
        some initializer ∧
      initializer.callers = [0, 0] ∧
      initializer.runs[0]? = some observed ∧
      observed.run.phase = .settled .connection ∧
      Exact (.ofNat 2) observed.history .connection ∧
      (AmqpConnectionInitializer.machine (.ofNat 2)
          InitializerRun.unusedResources).Throughout
        JoinsRun (.create InitializerRun.unusedResources) sharedRun := by
  refine ⟨_, _, rfl, rfl, rfl, rfl,
    (connection_attempts_exact_iff (.ofNat 2) (by decide)
      InitializerRun.unusedResources sharedRun _ rfl 0 _ rfl .connection rfl
      (fun attempt => if attempt = 2 then .fulfilled else .rejected) ?_).mpr
      (Or.inr (Or.inl (by decide)))⟩
  intro attempt settlement member
  have listed :
      InitializerObservation.connectSettled attempt settlement ∈
        [.connectSettled 2 .fulfilled, .connectCalled 2, .errorEmitted 1,
          .connectSettled 1 .rejected, .connectCalled 1,
          .connectionCreated] :=
    member
  simp only [List.mem_cons, List.not_mem_nil, reduceCtorEq,
    InitializerObservation.connectSettled.injEq, false_or, or_false] at listed
  rcases listed with ⟨second, settled⟩ | ⟨first, settled⟩
  · rw [second, settled]
    rfl
  · rw [first, settled]
    rfl

/-- One attempt and a half are allowed, and the first one fails. -/
def failedFirstAttempt : List AmqpConnectionInitializerEvent :=
  [.initializeConnection, .run 0 .started,
    .run 0 (.connectionSettled .rejected), .run 0 .resumed, .run 0 .delayed,
    .run 0 .finished]

/-- One and a half. -/
def fractionalMaxAttempts : JsNumber :=
  .finite ⟨3, 2, by decide, by decide⟩

/-- The run resolves with a connection that has never been established. -/
theorem failedFirstAttempt_resolves :
    ¬ ∀ (maxAttempts : JsNumber) (resources : AmqpResources)
        (schedule : List AmqpConnectionInitializerEvent)
        (initializer : AmqpConnectionInitializer) (index : ℕ)
        (observed : ObservedRun) (result : InitializerResult),
        acceptsMaxConnectionAttempts maxAttempts = true →
        (AmqpConnectionInitializer.machine maxAttempts resources).run
            (.create resources) schedule = some initializer →
        initializer.runs[index]? = some observed →
        observed.run.phase = .settled result →
        Exact maxAttempts observed.history result := by
  intro always
  have isExact : Exact fractionalMaxAttempts (failedAttempts 1) .connection :=
    always fractionalMaxAttempts InitializerRun.unusedResources
      failedFirstAttempt _ 0 _ .connection (by decide) rfl rfl rfl
  exact not_exact_failedAttempts isExact

end Amq.Core
