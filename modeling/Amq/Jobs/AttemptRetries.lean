import Amq.Jobs.JobServer
import Mathlib.Data.List.Range
import Mathlib.Data.List.Nodup

/-!
# How many messages a run publishes

`Scheduler.discard` is guarded by a flag and `Scheduler.retry` reads that flag
once, before it awaits.  So a call of `retry` publishes at most one message and
none after a discard, but two calls publish two messages, and a discard during
the await does not stop the first one.
-/


namespace Amq.Jobs

open Amq.Transition

namespace Observation

variable {V : Type}

def publishedCall? : Observation V → Option ℕ
  | .published call _ => some call
  | _ => none

def isDiscardReport : Observation V → Bool
  | .discardReported _ => true
  | _ => false

def isRetryCall : Observation V → Bool
  | .retryCalled _ _ => true
  | _ => false

/-- The call of `retry` that the run makes itself. -/
def isDefaultCall : Observation V → Bool
  | .retryCalled _ isDefault => isDefault
  | _ => false

def isNeutral (observation : Observation V) : Bool :=
  observation.publishedCall?.isNone && !observation.isDiscardReport &&
    !observation.isRetryCall

end Observation

section Histories

variable {V : Type}

/-- The calls that have published a message, the latest first. -/
def publishedCalls (history : List (Observation V)) : List ℕ :=
  history.filterMap Observation.publishedCall?

/-- The calls made after the job had been reported as discarded. -/
def lateCalls : List (Observation V) → List ℕ
  | [] => []
  | .retryCalled call _ :: earlier =>
      if earlier.any Observation.isDiscardReport then
        call :: lateCalls earlier
      else
        lateCalls earlier
  | _ :: earlier => lateCalls earlier

/-- User code has neither called `retry` nor discarded the job. -/
def Unaided (history : List (Observation V)) : Prop :=
  (∀ call, .retryCalled call false ∉ history) ∧
    .discardReported .givenByUser ∉ history

theorem lateCalls_cons
    {observation : Observation V} (history : List (Observation V))
    (notCall : observation.isRetryCall = false) :
    lateCalls (observation :: history) = lateCalls history := by
  cases observation with
  | retryCalled call isDefault => cases notCall
  | _ => rfl

theorem neutral_singleton
    {observation : Observation V} (neutral : observation.isNeutral = true) :
    ∀ other ∈ [observation], other.isNeutral = true := by
  intro other member
  rw [List.mem_singleton.mp member]
  exact neutral

/-- Neutral observations change none of the counts. -/
theorem neutral_append
    {added : List (Observation V)} (history : List (Observation V))
    (neutral : ∀ observation ∈ added, observation.isNeutral = true) :
    publishedCalls (added ++ history) = publishedCalls history ∧
      lateCalls (added ++ history) = lateCalls history ∧
      (added ++ history).countP Observation.isDiscardReport =
        history.countP Observation.isDiscardReport ∧
      (added ++ history).countP Observation.isRetryCall =
        history.countP Observation.isRetryCall ∧
      (added ++ history).countP Observation.isDefaultCall =
        history.countP Observation.isDefaultCall := by
  induction added with
  | nil => simp
  | cons observation rest inductionHypothesis =>
      have first := neutral observation List.mem_cons_self
      have later :=
        inductionHypothesis fun other member =>
          neutral other (List.mem_cons_of_mem _ member)
      obtain ⟨published, late, reports, calls, defaults⟩ := later
      simp only [Observation.isNeutral, Bool.and_eq_true, Option.isNone_iff_eq_none,
        Bool.not_eq_true'] at first
      obtain ⟨⟨notPublished, notReport⟩, notCall⟩ := first
      have notDefault : observation.isDefaultCall = false := by
        cases observation with
        | retryCalled call isDefault => cases notCall
        | _ => rfl
      refine ⟨?_, ?_, ?_, ?_, ?_⟩
      · rw [← published]
        exact List.filterMap_cons_none notPublished
      · rw [List.cons_append, lateCalls_cons _ notCall, late]
      · rw [List.cons_append, List.countP_cons_of_neg (by simp [notReport]),
          reports]
      · rw [List.cons_append, List.countP_cons_of_neg (by simp [notCall]), calls]
      · rw [List.cons_append, List.countP_cons_of_neg (by simp [notDefault]),
          defaults]

theorem Unaided.of_append
    (added : List (Observation V)) {history : List (Observation V)}
    (unaided : Unaided (added ++ history)) :
    Unaided history :=
  ⟨fun call member => unaided.1 call (List.mem_append_right _ member),
    fun member => unaided.2 (List.mem_append_right _ member)⟩

/-- Without help from user code every call is the default one. -/
theorem Unaided.countP_isRetryCall
    {history : List (Observation V)} (unaided : Unaided history) :
    history.countP Observation.isRetryCall =
      history.countP Observation.isDefaultCall := by
  refine List.countP_congr ?_
  intro observation member
  cases observation with
  | retryCalled call isDefault =>
      cases isDefault with
      | true => simp [Observation.isRetryCall, Observation.isDefaultCall]
      | false => exact absurd member (unaided.1 call)
  | _ => simp [Observation.isRetryCall, Observation.isDefaultCall]

end Histories

namespace AttemptPhase

/-- The run has not called `scheduler.retry()` by default yet. -/
def precedesRetry : AttemptPhase → Bool
  | .handling _ _ => true
  | .handlingError _ => true
  | _ => false

end AttemptPhase

namespace AttemptRun

variable {κ Buffer V : Type}

structure CallRecord (run : AttemptRun κ V) : Prop where
  reports :
    run.history.countP Observation.isDiscardReport =
      if run.scheduler.isDiscarded then 1 else 0
  calls : run.history.countP Observation.isRetryCall = run.retries.length
  defaults : run.history.countP Observation.isDefaultCall ≤ 1
  noDefault :
    run.phase.precedesRetry = true →
      run.history.countP Observation.isDefaultCall = 0
  published_nodup : (publishedCalls run.history).Nodup
  published_lt : ∀ call ∈ publishedCalls run.history, call < run.retries.length
  creating :
    ∀ (call : ℕ) (own : RetryCall V),
      run.retries[call]? = some own → own.isCreating = true →
        call ∉ publishedCalls run.history
  late :
    ∀ call ∈ lateCalls run.history,
      run.retries[call]? = some .resolved ∧ call ∉ publishedCalls run.history
  unaided :
    Unaided run.history → run.scheduler.isDiscarded = true →
      publishedCalls run.history = [] ∧
        ∀ (call : ℕ) (own : RetryCall V),
          run.retries[call]? = some own → own.isCreating = false

theorem CallRecord.any_isDiscardReport
    {run : AttemptRun κ V} (record : CallRecord run) :
    run.history.any Observation.isDiscardReport = run.scheduler.isDiscarded := by
  have reports := record.reports
  cases discarded : run.scheduler.isDiscarded with
  | true =>
      rw [discarded, if_pos rfl] at reports
      have positive : 0 < run.history.countP Observation.isDiscardReport := by
        omega
      obtain ⟨report, member, isReport⟩ := List.countP_pos_iff.mp positive
      exact List.any_eq_true.mpr ⟨report, member, isReport⟩
  | false =>
      rw [discarded] at reports
      have none := List.countP_eq_zero.mp reports
      exact List.any_eq_false.mpr none

/-- A step that adds neutral observations and creates no call. -/
theorem CallRecord.neutral
    {run next : AttemptRun κ V} (record : CallRecord run)
    (added : List (Observation V))
    (history : next.history = added ++ run.history)
    (neutral : ∀ observation ∈ added, observation.isNeutral = true)
    (discarded : next.scheduler.isDiscarded = run.scheduler.isDiscarded)
    (precedes :
      next.phase.precedesRetry = true → run.phase.precedesRetry = true)
    (length : next.retries.length = run.retries.length)
    (creating :
      ∀ (call : ℕ) (own : RetryCall V),
        next.retries[call]? = some own → own.isCreating = true →
          ∃ before : RetryCall V, run.retries[call]? = some before ∧
            before.isCreating = true)
    (resolved :
      ∀ call : ℕ, run.retries[call]? = some .resolved →
        next.retries[call]? = some .resolved) :
    CallRecord next := by
  obtain ⟨published, late, reports, calls, defaults⟩ :=
    neutral_append run.history neutral
  rw [← history] at published late reports calls defaults
  constructor
  · rw [reports, discarded]
    exact record.reports
  · rw [calls, length]
    exact record.calls
  · rw [defaults]
    exact record.defaults
  · rw [defaults]
    exact fun early => record.noDefault (precedes early)
  · rw [published]
    exact record.published_nodup
  · rw [published, length]
    exact record.published_lt
  · rw [published]
    intro call own present waiting
    obtain ⟨before, earlier, waited⟩ := creating call own present waiting
    exact record.creating call before earlier waited
  · rw [published, late]
    exact fun call member =>
      (record.late call member).imp_left (resolved call)
  · rw [published, discarded, history]
    intro unaided isDiscarded
    obtain ⟨none, notCreating⟩ := record.unaided unaided.of_append isDiscarded
    refine ⟨none, ?_⟩
    intro call own present
    apply Bool.eq_false_of_not_eq_true
    intro waiting
    obtain ⟨before, earlier, waited⟩ := creating call own present waiting
    rw [notCreating call before earlier] at waited
    cases waited

/-- A call that waits is moved on. -/
theorem moved_calls
    {run next : AttemptRun κ V} {call : ℕ} {old new : RetryCall V}
    (present : run.retries[call]? = some old)
    (notResolved : old ≠ .resolved)
    (retries : next.retries = run.retries.set call new) :
    next.retries.length = run.retries.length ∧
      (∀ (other : ℕ) (own : RetryCall V),
        next.retries[other]? = some own →
          (other = call ∧ own = new) ∨
            (other ≠ call ∧ run.retries[other]? = some own)) ∧
      ∀ other : ℕ, run.retries[other]? = some .resolved →
        next.retries[other]? = some .resolved := by
  refine ⟨?_, ?_, ?_⟩
  · rw [retries, List.length_set]
  · intro other own found
    rw [retries] at found
    exact set_cases found
  · intro other resolved
    have different : call ≠ other := by
      rintro rfl
      rw [present] at resolved
      exact notResolved (Option.some.inj resolved)
    rw [retries, List.getElem?_set_ne different]
    exact resolved

theorem CallRecord.set
    {run next : AttemptRun κ V} (record : CallRecord run)
    {call : ℕ} {old new : RetryCall V}
    (present : run.retries[call]? = some old)
    (notResolved : old ≠ .resolved)
    (creates : new.isCreating = true → old.isCreating = true)
    (added : List (Observation V))
    (history : next.history = added ++ run.history)
    (neutral : ∀ observation ∈ added, observation.isNeutral = true)
    (discarded : next.scheduler.isDiscarded = run.scheduler.isDiscarded)
    (samePhase : next.phase = run.phase)
    (retries : next.retries = run.retries.set call new) :
    CallRecord next := by
  obtain ⟨length, creating, resolved⟩ :=
    moved_calls present notResolved retries
  refine record.neutral added history neutral discarded ?_ length ?_ resolved
  · rw [samePhase]
    exact id
  · intro other own found waiting
    rcases creating other own found with ⟨same, itself⟩ | ⟨_, kept⟩
    · rw [itself] at waiting
      rw [same]
      exact ⟨old, present, creates waiting⟩
    · exact ⟨own, kept, waiting⟩

/-- A step without an observation about calls, which leaves the calls alone. -/
theorem CallRecord.pass
    {run next : AttemptRun κ V} (record : CallRecord run)
    (added : List (Observation V))
    (history : next.history = added ++ run.history)
    (neutral : ∀ observation ∈ added, observation.isNeutral = true)
    (discarded : next.scheduler.isDiscarded = run.scheduler.isDiscarded)
    (sameRetries : next.retries = run.retries)
    (precedes :
      next.phase.precedesRetry = true → run.phase.precedesRetry = true) :
    CallRecord next := by
  refine record.neutral added history neutral discarded precedes ?_ ?_ ?_
  · rw [sameRetries]
  · rw [sameRetries]
    exact fun call own present waiting => ⟨own, present, waiting⟩
  · rw [sameRetries]
    exact fun _ => id

theorem CallRecord.published
    {run next : AttemptRun κ V} (record : CallRecord run)
    {call : ℕ} {old : RetryCall V} {message : SerializedContext V}
    {retryDelayMs : JsNumber} (present : run.retries[call]? = some old)
    (waiting : old.isCreating = true)
    (history : next.history = .published call message :: run.history)
    (sameScheduler : next.scheduler = run.scheduler)
    (samePhase : next.phase = run.phase)
    (retries :
      next.retries = run.retries.set call (.sending message retryDelayMs)) :
    CallRecord next := by
  have notResolved : old ≠ .resolved := by
    intro same
    rw [same] at waiting
    cases waiting
  obtain ⟨length, creating, resolved⟩ :=
    moved_calls present notResolved retries
  have calls : publishedCalls next.history = call :: publishedCalls run.history := by
    rw [history]
    rfl
  have late : lateCalls next.history = lateCalls run.history := by
    rw [history]
    rfl
  constructor
  · rw [history, List.countP_cons_of_neg (by simp [Observation.isDiscardReport]),
      sameScheduler]
    exact record.reports
  · rw [history, List.countP_cons_of_neg (by simp [Observation.isRetryCall]),
      length]
    exact record.calls
  · rw [history, List.countP_cons_of_neg (by simp [Observation.isDefaultCall])]
    exact record.defaults
  · rw [history, List.countP_cons_of_neg (by simp [Observation.isDefaultCall]),
      samePhase]
    exact record.noDefault
  · rw [calls]
    exact List.nodup_cons.mpr
      ⟨record.creating call old present waiting, record.published_nodup⟩
  · rw [calls, length]
    intro other member
    rcases List.mem_cons.mp member with same | earlier
    · rw [same]
      exact (List.getElem?_eq_some_iff.mp present).1
    · exact record.published_lt other earlier
  · rw [calls]
    intro other own found itsWaiting member
    rcases creating other own found with ⟨_, itself⟩ | ⟨different, kept⟩
    · rw [itself] at itsWaiting
      cases itsWaiting
    · rcases List.mem_cons.mp member with same | earlier
      · exact different same
      · exact record.creating other own kept itsWaiting earlier
  · rw [calls, late]
    intro other member
    obtain ⟨ended, unpublished⟩ := record.late other member
    refine ⟨resolved other ended, ?_⟩
    intro again
    rcases List.mem_cons.mp again with same | earlier
    · rw [same, present] at ended
      exact notResolved (Option.some.inj ended)
    · exact unpublished earlier
  · rw [sameScheduler, history]
    intro unaided discarded
    have before : Unaided run.history :=
      Unaided.of_append [.published call message] unaided
    have notCreating := (record.unaided before discarded).2 call old present
    rw [waiting] at notCreating
    cases notCreating

theorem CallRecord.discard
    {run : AttemptRun κ V} (record : CallRecord run) :
    CallRecord (run.discard .givenByUser) := by
  by_cases discarded : run.scheduler.isDiscarded = true
  · have same : run.discard .givenByUser = run := by
      obtain ⟨_, _, scheduler, _, _, _, _⟩ := run
      cases scheduler
      simp_all [AttemptRun.discard, Scheduler.discard]
    rw [same]
    exact record
  · have reports := record.reports
    rw [if_neg discarded] at reports
    have history :
        (run.discard .givenByUser).history =
          .discardReported .givenByUser :: run.history := by
      rw [discard_history, if_neg discarded]
    have calls :
        publishedCalls (run.discard .givenByUser).history =
          publishedCalls run.history := by
      rw [history]
      rfl
    have late :
        lateCalls (run.discard .givenByUser).history = lateCalls run.history := by
      rw [history]
      rfl
    constructor
    · rw [history, List.countP_cons_of_pos rfl, reports, discard_isDiscarded]
      rfl
    · rw [history, List.countP_cons_of_neg (by simp [Observation.isRetryCall]),
        discard_retries]
      exact record.calls
    · rw [history, List.countP_cons_of_neg (by simp [Observation.isDefaultCall])]
      exact record.defaults
    · rw [history, List.countP_cons_of_neg (by simp [Observation.isDefaultCall]),
        discard_phase]
      exact record.noDefault
    · rw [calls]
      exact record.published_nodup
    · rw [calls, discard_retries]
      exact record.published_lt
    · rw [calls, discard_retries]
      exact record.creating
    · rw [calls, late, discard_retries]
      exact record.late
    · rw [history]
      exact fun unaided => absurd List.mem_cons_self unaided.2

theorem publishedCalls_callRetry
    (surroundings : Surroundings Buffer V) (run : AttemptRun κ V)
    (options : RetryOptions V) (isDefault : Bool) :
    publishedCalls (run.callRetry surroundings options isDefault).history =
      publishedCalls run.history := by
  rcases callRetry_added surroundings run options isDefault with
    history | history
  · rw [history]
    rfl
  · rw [history]
    rfl

theorem countP_callRetry
    (surroundings : Surroundings Buffer V) (run : AttemptRun κ V)
    (options : RetryOptions V) (isDefault : Bool) :
    (run.callRetry surroundings options isDefault).history.countP
          Observation.isRetryCall =
        run.history.countP Observation.isRetryCall + 1 ∧
      (run.callRetry surroundings options isDefault).history.countP
          Observation.isDefaultCall =
        run.history.countP Observation.isDefaultCall +
          if isDefault then 1 else 0 := by
  rcases callRetry_added surroundings run options isDefault with
    history | history
  · rw [history]
    cases isDefault <;>
      simp [List.countP_cons, Observation.isRetryCall, Observation.isDefaultCall]
  · rw [history]
    cases isDefault <;>
      simp [List.countP_cons, Observation.isRetryCall, Observation.isDefaultCall]

/-- Without help from user code the first call is the default one, so nothing
has been published before it. -/
theorem CallRecord.unaided_first
    {run : AttemptRun κ V} (record : CallRecord run)
    (unaided : Unaided run.history)
    (first : run.history.countP Observation.isDefaultCall = 0) :
    run.retries = [] ∧ publishedCalls run.history = [] := by
  have noCalls : run.retries.length = 0 := by
    rw [← record.calls, unaided.countP_isRetryCall, first]
  refine ⟨List.length_eq_zero_iff.mp noCalls, ?_⟩
  refine List.eq_nil_iff_forall_not_mem.mpr ?_
  intro call member
  have inside := record.published_lt call member
  omega

theorem CallRecord.unpublished_next
    {run : AttemptRun κ V} (record : CallRecord run) :
    run.retries.length ∉ publishedCalls run.history :=
  fun member => Nat.lt_irrefl _ (record.published_lt _ member)

/-- A call reports a discard exactly when it discards. -/
theorem CallRecord.reports_callRetry
    {run : AttemptRun κ V} (record : CallRecord run)
    (surroundings : Surroundings Buffer V)
    (options : RetryOptions V) (isDefault : Bool) :
    (run.callRetry surroundings options isDefault).history.countP
        Observation.isDiscardReport =
      if (run.callRetry surroundings options isDefault).scheduler.isDiscarded then
        1
      else
        0 := by
  have reports := record.reports
  obtain ⟨_, _, outcome⟩ := callRetry_cases surroundings run options isDefault
  rcases outcome with
    ⟨discarded, _, scheduler, history⟩ | ⟨kept, _, discards, history⟩ |
    ⟨kept, _, scheduler, history⟩
  · rw [history, scheduler,
      List.countP_cons_of_neg (by simp [Observation.isDiscardReport])]
    exact reports
  · rw [kept] at reports
    rw [history, discards, List.countP_cons_of_pos rfl,
      List.countP_cons_of_neg (by simp [Observation.isDiscardReport]), reports]
    rfl
  · rw [history, scheduler,
      List.countP_cons_of_neg (by simp [Observation.isDiscardReport])]
    exact reports

/-- A call after the discard is resolved and sends nothing. -/
theorem CallRecord.late_callRetry
    {run : AttemptRun κ V} (record : CallRecord run)
    (surroundings : Surroundings Buffer V)
    (options : RetryOptions V) (isDefault : Bool) :
    ∀ call ∈ lateCalls (run.callRetry surroundings options isDefault).history,
      (run.callRetry surroundings options isDefault).retries[call]? =
          some .resolved ∧
        call ∉ publishedCalls run.history := by
  obtain ⟨call, retries, outcome⟩ :=
    callRetry_cases surroundings run options isDefault
  have before :
      ∀ other ∈ lateCalls run.history,
        (run.callRetry surroundings options isDefault).retries[other]? =
            some .resolved ∧
          other ∉ publishedCalls run.history := by
    intro other member
    obtain ⟨resolved, unpublished⟩ := record.late other member
    refine ⟨?_, unpublished⟩
    rw [retries, List.getElem?_append_left
      (List.getElem?_eq_some_iff.mp resolved).1]
    exact resolved
  have reported := record.any_isDiscardReport
  rcases outcome with
    ⟨discarded, ended, _, history⟩ | ⟨kept, _, _, history⟩ |
    ⟨kept, _, _, history⟩
  · rw [discarded] at reported
    rw [history, lateCalls, if_pos reported]
    intro other member
    rcases List.mem_cons.mp member with same | earlier
    · rw [same, retries, ended]
      exact ⟨List.getElem?_concat_length, record.unpublished_next⟩
    · exact before other earlier
  · rw [kept] at reported
    rw [history, lateCalls_cons _ rfl, lateCalls, if_neg (by simp [reported])]
    exact before
  · rw [kept] at reported
    rw [history, lateCalls, if_neg (by simp [reported])]
    exact before

/-- Without help from user code a discarded run sends nothing. -/
theorem CallRecord.unaided_callRetry
    {run : AttemptRun κ V} (record : CallRecord run)
    (surroundings : Surroundings Buffer V)
    (options : RetryOptions V) (isDefault : Bool)
    (first :
      isDefault = true → run.history.countP Observation.isDefaultCall = 0)
    (unaided :
      Unaided (run.callRetry surroundings options isDefault).history)
    (discards :
      (run.callRetry surroundings options isDefault).scheduler.isDiscarded =
        true) :
    publishedCalls run.history = [] ∧
      ∀ (call : ℕ) (own : RetryCall V),
        (run.callRetry surroundings options isDefault).retries[call]? =
            some own →
          own.isCreating = false := by
  obtain ⟨call, retries, outcome⟩ :=
    callRetry_cases surroundings run options isDefault
  have before : Unaided run.history := by
    obtain ⟨added, history, _⟩ :=
      callRetry_history surroundings run options isDefault
    rw [history] at unaided
    exact Unaided.of_append added unaided
  rcases outcome with
    ⟨discarded, ended, _, _⟩ | ⟨_, ended, _, history⟩ | ⟨kept, _, scheduler, _⟩
  · obtain ⟨none, notCreating⟩ := record.unaided before discarded
    refine ⟨none, ?_⟩
    intro other own present
    rw [retries] at present
    rcases concat_cases present with earlier | ⟨_, same⟩
    · exact notCreating other own earlier
    · rw [same, ended]
      rfl
  · have byDefault : isDefault = true := by
      cases isDefault with
      | true => rfl
      | false =>
          rw [history] at unaided
          exact absurd (List.mem_cons_of_mem _ List.mem_cons_self)
            (unaided.1 run.retries.length)
    obtain ⟨noCalls, none⟩ := record.unaided_first before (first byDefault)
    refine ⟨none, ?_⟩
    intro other own present
    rw [retries, noCalls, ended] at present
    have place := List.mem_singleton.mp (List.mem_of_getElem? present)
    rw [place]
    rfl
  · rw [scheduler, kept] at discards
    cases discards

theorem CallRecord.callRetry
    {run : AttemptRun κ V} (record : CallRecord run)
    (surroundings : Surroundings Buffer V)
    (options : RetryOptions V) (isDefault : Bool)
    (first :
      isDefault = true → run.history.countP Observation.isDefaultCall = 0)
    (notEarly : isDefault = true → run.phase.precedesRetry = false) :
    CallRecord (run.callRetry surroundings options isDefault) := by
  have published :=
    publishedCalls_callRetry surroundings run options isDefault
  obtain ⟨calls, defaults⟩ := countP_callRetry surroundings run options isDefault
  obtain ⟨call, retries, _⟩ :=
    callRetry_cases surroundings run options isDefault
  have length :
      (run.callRetry surroundings options isDefault).retries.length =
        run.retries.length + 1 := by
    simp [retries]
  constructor
  · exact record.reports_callRetry surroundings options isDefault
  · rw [calls, length, record.calls]
  · rw [defaults]
    cases isDefault with
    | true =>
        rw [first rfl]
        exact Nat.le_refl 1
    | false => exact record.defaults
  · rw [callRetry_phase, defaults]
    intro early
    cases isDefault with
    | true =>
        rw [notEarly rfl] at early
        cases early
    | false => exact record.noDefault early
  · rw [published]
    exact record.published_nodup
  · rw [published, length]
    exact fun other member =>
      Nat.lt_succ_of_lt (record.published_lt other member)
  · rw [published, retries]
    intro other own present waiting
    rcases concat_cases present with earlier | ⟨same, _⟩
    · exact record.creating other own earlier waiting
    · rw [same]
      exact record.unpublished_next
  · rw [published]
    exact record.late_callRetry surroundings options isDefault
  · rw [published]
    exact record.unaided_callRetry surroundings options isDefault first

theorem callRecord_start
    (surroundings : Surroundings Buffer V)
    (correlationId : κ) (context : SerializedContext V) :
    CallRecord (start surroundings correlationId context) := by
  obtain ⟨_, _, retries, itsStart⟩ :=
    start_cases surroundings correlationId context
  rcases itsStart with ⟨_, _, discarded, history⟩ | ⟨kept, history, _⟩
  · refine ⟨?_, ?_, ?_, ?_, ?_, ?_, ?_, ?_, ?_⟩
    · rw [history, discarded]
      rfl
    · rw [history, retries]
      rfl
    · rw [history]
      exact Nat.zero_le 1
    · rw [history]
      exact fun _ => rfl
    · rw [history]
      exact List.nodup_nil
    · rw [history]
      exact nofun
    · rw [history]
      exact fun _ _ _ _ => nofun
    · rw [history]
      exact nofun
    · rw [history, retries]
      refine fun _ _ => ⟨rfl, ?_⟩
      intro call own present
      cases present
  · constructor <;>
      simp [history, kept, retries, publishedCalls, lateCalls]

theorem precedesRetry_catchError
    {surroundings : Surroundings Buffer V} {run : AttemptRun κ V}
    {hasHandler hasTimer : Bool}
    (handling : run.phase = .handling hasHandler hasTimer)
    (next : AttemptRun κ V) :
    (next.catchError surroundings).phase.precedesRetry = true →
      run.phase.precedesRetry = true := by
  rw [handling]
  exact fun _ => rfl

theorem callRecord_steps
    {surroundings : Surroundings Buffer V} {run next : AttemptRun κ V}
    {event : AttemptEvent V} {effects : List (Effect κ Buffer)}
    (record : CallRecord run)
    (stepped : Steps surroundings run event next effects) :
    CallRecord next := by
  cases stepped with
  | handlerResolved hasTimer handling =>
      exact record.pass [.handlerResolved] rfl (neutral_singleton rfl) rfl rfl nofun
  | handlerRejected hasHandler hasTimer handling =>
      exact record.pass [] (by simp) (by simp) (by simp) (by simp)
        (precedesRetry_catchError handling run)
  | handlerTimedOut hasHandler handling =>
      exact record.pass [.handlerTimedOut] (by simp)
        (neutral_singleton rfl) (by simp) (by simp)
        (precedesRetry_catchError handling _)
  | handleErrorResolved handlingError =>
      exact record.pass [.handleErrorResolved] rfl (neutral_singleton rfl)
        rfl rfl nofun
  | handleErrorDisposed hasHandleError handlingError disposed =>
      exact record.pass [] rfl (by simp) rfl rfl nofun
  | handleErrorRejected hasHandleError handlingError live =>
      have early : run.phase.precedesRetry = true := by
        rw [handlingError]
        rfl
      have emitted :
          CallRecord
            { run with
              phase := .retrying run.retries.length
              history := .jobErrorEmitted :: run.history } :=
        record.pass [.jobErrorEmitted] rfl (neutral_singleton rfl) rfl rfl nofun
      refine emitted.callRetry surroundings defaultRetryOptions true ?_ ?_
      · intro _
        rw [List.countP_cons_of_neg (by simp [Observation.isDefaultCall])]
        exact record.noDefault early
      · exact fun _ => rfl
  | retryCalled options exposed =>
      exact record.callRetry surroundings options false nofun nofun
  | discardCalled exposed => exact record.discard
  | dataChanged data changeable =>
      exact record.pass [.dataChanged data] rfl (neutral_singleton rfl) rfl rfl id
  | retryContextChanged call nextAttempt passed retryContext retryDelayMs creating
      changeable =>
      exact record.set creating nofun (fun _ => rfl) [] rfl (by simp) rfl rfl rfl
  | retryPublished call nextAttempt retryContext retryDelayMs content creating
      serialized =>
      exact record.published creating rfl rfl rfl rfl rfl
  | retryNotPublished call nextAttempt retryContext retryDelayMs settlement
      creating =>
      exact record.set creating nofun (by simp [RetryCall.isCreating]) [] rfl
        (by simp) rfl rfl rfl
  | sendConfirmed call message retryDelayMs sending =>
      exact record.set sending nofun (by simp [RetryCall.isCreating])
        [.publishConfirmed call] rfl (neutral_singleton rfl) rfl rfl rfl
  | sendFailed call message retryDelayMs sending =>
      exact record.set sending nofun (by simp [RetryCall.isCreating]) [] rfl
        (by simp) rfl rfl rfl
  | defaultRetryResolved call retrying resolved =>
      exact record.pass [.defaultRetryResolved call] rfl (neutral_singleton rfl)
        rfl rfl nofun
  | defaultRetryRejected call retrying rejected =>
      exact record.pass [.defaultRetryRejected call] rfl (neutral_singleton rfl)
        rfl rfl nofun
  | proceedDisposed processed disposed =>
      exact record.pass [] rfl (by simp) rfl rfl nofun
  | proceedAcknowledging tag processed live actual =>
      exact record.pass [.acknowledged tag] rfl (neutral_singleton rfl)
        rfl rfl nofun
  | proceedUnlocking processed live actual =>
      exact record.pass [] rfl (by simp) rfl rfl nofun
  | acknowledgeSettled tag settlement acknowledging =>
      exact record.pass [] rfl (by simp) rfl rfl nofun

/-- The messages of a run are at most its calls of `retry`. -/
theorem CallRecord.length_publishedCalls
    {run : AttemptRun κ V} (record : CallRecord run) :
    (publishedCalls run.history).length ≤
      run.history.countP Observation.isRetryCall := by
  have inside : publishedCalls run.history ⊆ List.range run.retries.length :=
    fun call member => List.mem_range.mpr (record.published_lt call member)
  have bounded := List.Nodup.length_le_of_subset record.published_nodup inside
  rw [List.length_range] at bounded
  rw [record.calls]
  exact bounded

end AttemptRun

namespace JobServer

variable {κ Buffer V : Type} [DecidableEq κ] [DecidableEq Buffer] [DecidableEq V]

/-- A run publishes at most one message for each call of `retry`, of which the
run itself makes at most one, publishes none for a call made after a discard,
and reports the discard at most once.  Without help from user code it publishes
at most one message, and none if the job is discarded. -/
theorem retry_messages_bounded
    (config : JobServerConfig Buffer V)
    (schedule : List (JobServerEvent κ Buffer V))
    (server : JobServer κ Buffer V)
    (execution :
      (machine config).run (machine config).initial schedule = some server) :
    ∀ run, JobRun.attempt run ∈ server.runs →
      (publishedCalls run.history).Nodup ∧
        (publishedCalls run.history).length ≤
          run.history.countP Observation.isRetryCall ∧
        run.history.countP Observation.isDefaultCall ≤ 1 ∧
        (∀ call ∈ lateCalls run.history, call ∉ publishedCalls run.history) ∧
        run.history.countP Observation.isDiscardReport ≤ 1 ∧
        (Unaided run.history →
          (publishedCalls run.history).length ≤ 1 ∧
            (run.history.countP Observation.isDiscardReport = 0 ∨
              publishedCalls run.history = [])) := by
  have recorded :
      ∀ run, JobRun.attempt run ∈ server.runs → run.CallRecord :=
    runs_invariant (fun _ _ _ => AttemptRun.callRecord_start _ _ _)
      (fun _ _ _ _ _ record stepped =>
        AttemptRun.callRecord_steps record stepped) execution
  intro run member
  have record := recorded run member
  have reports := record.reports
  refine ⟨record.published_nodup, record.length_publishedCalls, record.defaults,
    fun call late => (record.late call late).2, ?_, ?_⟩
  · rw [reports]
    split
    · exact Nat.le_refl 1
    · exact Nat.zero_le 1
  · intro unaided
    constructor
    · have bounded := record.length_publishedCalls
      rw [unaided.countP_isRetryCall] at bounded
      exact Nat.le_trans bounded record.defaults
    · cases discarded : run.scheduler.isDiscarded with
      | true => exact Or.inr (record.unaided unaided discarded).1
      | false =>
          rw [discarded] at reports
          exact Or.inl reports

/-- The handler rejects, and the default retry has published its message. -/
def defaultRetryPublished : List (JobServerEvent ℕ (SerializedContext ℤ) ℤ) :=
  firstDelivery ++
    [.attempt 0 (.handlerSettled .rejected),
      .attempt 0 (.handleErrorSettled .rejected),
      .attempt 0 (.retryQueueSettled 0 .fulfilled)]

theorem retry_messages_bounded_default :
    ∃ (server : JobServer ℕ (SerializedContext ℤ) ℤ) (run : AttemptRun ℕ ℤ),
      (machine integerConfig).run (machine integerConfig).initial
          defaultRetryPublished = some server ∧
        JobRun.attempt run ∈ server.runs ∧
        publishedCalls run.history = [0] ∧
        (publishedCalls run.history).Nodup :=
  ⟨_, _, rfl, .head _, rfl,
    (retry_messages_bounded integerConfig defaultRetryPublished _ rfl _
      (.head _)).1⟩

/-- The handler calls `scheduler.retry()` twice and then `scheduler.discard()`. -/
def retriedTwice : List (JobServerEvent ℕ (SerializedContext ℤ) ℤ) :=
  firstDelivery ++
    [.attempt 0 (.retryCalled AttemptRun.defaultRetryOptions),
      .attempt 0 (.retryQueueSettled 0 .fulfilled),
      .attempt 0 (.retryCalled AttemptRun.defaultRetryOptions),
      .attempt 0 (.retryQueueSettled 1 .fulfilled),
      .attempt 0 .discardCalled]

theorem retriedTwice_multiplies :
    ∃ (server : JobServer ℕ (SerializedContext ℤ) ℤ) (run : AttemptRun ℕ ℤ),
      (machine integerConfig).run (machine integerConfig).initial
          retriedTwice = some server ∧
        JobRun.attempt run ∈ server.runs ∧
        ¬ (publishedCalls run.history).length ≤ 1 ∧
        ¬ (publishedCalls run.history = [] ∨
          run.history.countP Observation.isDiscardReport = 0) := by
  refine ⟨_, _, rfl, .head _, ?_, ?_⟩
  · exact Nat.not_le.mpr (Nat.lt_succ_self 1)
  · rintro (nothing | unreported)
    · cases nothing
    · cases unreported

end JobServer

end Amq.Jobs
