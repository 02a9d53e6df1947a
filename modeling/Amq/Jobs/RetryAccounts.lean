import Amq.Jobs.AttemptRetries
import Amq.Jobs.JobMessages
import Amq.Transition.Monitor

/-!
# The accounts of retries

The attempt of a message is compared with the maximum when the message is
received and, plus one, when it is retried.  A server keeps a record of the
message of each run and of the calls of `retry` on its scheduler, and the
account of a run tells what each call has sent and reported.
-/


namespace Amq.Jobs

open Amq.Transition

/-- A call of `retry`, and whether the job had been discarded before. -/
structure MadeCall where
  options : RetryOptions JobValue
  wasDiscarded : Bool

/-- The message that a run was started for, and the calls on its scheduler. -/
structure RunRecord (κ Buffer : Type) where
  message : Message κ Buffer
  calls : List MadeCall

/-- The attempt of the message that a retry sends. -/
def nextAttempt (attempt : ℚ) (options : RetryOptions JobValue) : ℚ :=
  (if options.resetAttempts then 1 else attempt) + 1

/-- In `handleJob`. -/
def AttemptPhase.isHandling : AttemptPhase → Bool
  | .handling _ _ => true
  | _ => false

/-! ## Histories -/

namespace Observation

/-- Neither a call of `retry` nor a report for an exceeded maximum nor a
message. -/
def isQuiet {V : Type} : Observation V → Bool
  | .retryCalled _ _ => false
  | .discardReported .maxAttemptCountReached => false
  | .published _ _ => false
  | _ => true

end Observation

section Histories

variable {V : Type} {history : List (Observation V)}

/-- The call has reported that the maximum has been reached. -/
def Reported (history : List (Observation V)) (call : ℕ) : Prop :=
  ∃ isDefault,
    [.discardReported .maxAttemptCountReached, .retryCalled call isDefault] <:+:
      history

theorem reported_cons_iff
    (entry : Observation V)
    (different : entry ≠ .discardReported .maxAttemptCountReached) (call : ℕ) :
    Reported (entry :: history) call ↔ Reported history call := by
  have notFirst :
      ∀ isDefault : Bool,
        ¬ [.discardReported .maxAttemptCountReached,
            .retryCalled call isDefault] <+: entry :: history := by
    intro isDefault first
    exact different (List.cons_prefix_cons.mp first).1.symm
  unfold Reported
  simp only [List.infix_cons_iff, notFirst, false_or]

theorem reported_call_iff (called call : ℕ) (isDefault : Bool) :
    Reported (.retryCalled called isDefault :: history) call ↔
      Reported history call := by
  apply reported_cons_iff
  intro same
  cases same

theorem reported_report_iff (called call : ℕ) (isDefault : Bool) :
    Reported
        (.discardReported .maxAttemptCountReached ::
          .retryCalled called isDefault :: history) call ↔
      call = called ∨ Reported history call := by
  constructor
  · intro ⟨itsDefault, within⟩
    rcases List.infix_cons_iff.mp within with first | later
    · have sameCall := (List.cons_prefix_cons.mp first).2
      cases (List.cons_prefix_cons.mp sameCall).1
      exact Or.inl rfl
    · have earlier :
          Reported (.retryCalled called isDefault :: history) call :=
        ⟨itsDefault, later⟩
      exact Or.inr ((reported_call_iff called call isDefault).mp earlier)
  · intro either
    rcases either with own | earlier
    · subst own
      exact ⟨isDefault, List.infix_cons_iff.mpr (Or.inl ⟨history, rfl⟩)⟩
    · obtain ⟨itsDefault, within⟩ :=
        (reported_call_iff called call isDefault).mpr earlier
      exact ⟨itsDefault, List.infix_cons_iff.mpr (Or.inr within)⟩

theorem reported_append_iff
    {added : List (Observation V)}
    (quiet : ∀ entry ∈ added, entry.isQuiet = true) (call : ℕ) :
    Reported (added ++ history) call ↔ Reported history call := by
  induction added with
  | nil => exact Iff.rfl
  | cons entry rest inductionHypothesis =>
      have different : entry ≠ .discardReported .maxAttemptCountReached := by
        intro same
        have isQuiet := quiet entry List.mem_cons_self
        rw [same] at isQuiet
        cases isQuiet
      rw [List.cons_append, reported_cons_iff entry different]
      exact inductionHypothesis fun other member =>
        quiet other (List.mem_cons_of_mem entry member)

theorem published_of_mem
    {call : ℕ} (member : call ∈ publishedCalls history) :
    ∃ message, .published call message ∈ history := by
  obtain ⟨entry, present, itsCall⟩ := List.mem_filterMap.mp member
  cases entry with
  | published other message =>
      cases itsCall
      exact ⟨message, present⟩
  | _ => cases itsCall

/-- A call that has not been made has reported nothing. -/
theorem not_reported_of_not_called
    {call : ℕ} (notCalled : ∀ isDefault, .retryCalled call isDefault ∉ history) :
    ¬ Reported history call := by
  intro ⟨isDefault, within⟩
  exact notCalled isDefault (within.subset (by simp))

end Histories

/-! ## The account of one run -/

namespace AttemptRun

variable {κ Buffer : Type}

/-- The options of the call of `retry` that an event makes. -/
def calledOptions
    {V : Type} (isDisposed : Bool) : AttemptEvent V → Option (RetryOptions V)
  | .retryCalled options => some options
  | .handleErrorSettled .rejected =>
      if isDisposed then none else some defaultRetryOptions
  | _ => none

end AttemptRun

/-- The record after an event of the run. -/
def RunRecord.observe
    {κ Buffer : Type} (record : RunRecord κ Buffer)
    (run : AttemptRun κ JobValue) (isDisposed : Bool)
    (event : AttemptEvent JobValue) : RunRecord κ Buffer :=
  match AttemptRun.calledOptions isDisposed event with
  | some options =>
      { record with
        calls := record.calls ++ [⟨options, run.scheduler.isDiscarded⟩] }
  | none => record

@[simp]
theorem RunRecord.observe_message
    {κ Buffer : Type} (record : RunRecord κ Buffer)
    (run : AttemptRun κ JobValue) (isDisposed : Bool)
    (event : AttemptEvent JobValue) :
    (record.observe run isDisposed event).message = record.message := by
  unfold observe
  split <;> rfl

namespace AttemptRun

variable {κ Buffer : Type}

/-- The call has options that make this the next attempt, within the maximum. -/
def Makes
    (maximum : ℕ) (calls : List MadeCall) (attempt : ℚ) (call : ℕ)
    (next : JobValue) : Prop :=
  ∃ made, calls[call]? = some made ∧
    next = some (.number (nextAttempt attempt made.options)) ∧
      nextAttempt attempt made.options ≤ maximum

/-- User code may have changed an object in place, and nothing else. -/
def ChangedInPlace (passed holds : Option JobValue) : Prop :=
  holds = passed ∨
    ∃ before after, passed = some before ∧ holds = some after ∧
      JobValue.isObject before = true ∧ JobValue.isObject after = true

/-- The call was passed the object that holds this now. -/
def Holds
    (calls : List MadeCall) (call : ℕ) (retryContext : Option JobValue) : Prop :=
  ∃ made, calls[call]? = some made ∧
    ChangedInPlace made.options.retryContext retryContext

/-- What is known of a run with this attempt, whose job has this maximum. -/
structure Account
    (maximum : ℕ) (calls : List MadeCall) (attempt : ℚ)
    (run : AttemptRun κ JobValue) : Prop where
  itsJob : run.scheduler.job = run.context.job
  itsAttempt : run.scheduler.attempt = some (.number attempt)
  length : calls.length = run.retries.length
  creating :
    ∀ call next retryContext retryDelayMs,
      run.retries[call]? = some (.creating next retryContext retryDelayMs) →
        Makes maximum calls attempt call next ∧ Holds calls call retryContext
  published :
    ∀ call message, .published call message ∈ run.history →
      Makes maximum calls attempt call message.attempt
  called :
    ∀ call isDefault, .retryCalled call isDefault ∈ run.history →
      call < run.retries.length
  reported :
    ∀ call made, calls[call]? = some made → made.wasDiscarded = false →
      (Reported run.history call ↔ maximum < nextAttempt attempt made.options)
  handling : run.phase.isHandling = true → attempt ≤ maximum
  exposed : run.isExposed = true → attempt ≤ maximum

theorem ChangedInPlace.refl (passed : Option JobValue) :
    ChangedInPlace passed passed :=
  Or.inl rfl

theorem ChangedInPlace.trans
    {first second third : Option JobValue}
    (earlier : ChangedInPlace first second)
    (later : ChangedInPlace second third) :
    ChangedInPlace first third := by
  rcases later with same | ⟨before, after, itself, now, wasObject, isObject⟩
  · rw [same]
    exact earlier
  · rcases earlier with same | ⟨original, _, passed, _, originally, _⟩
    · exact Or.inr
        ⟨before, after, same.symm.trans itself, now, wasObject, isObject⟩
    · exact Or.inr ⟨original, after, passed, now, originally, isObject⟩

/-- `|| {}` changes no object, so it tells a changed object from the original. -/
theorem ChangedInPlace.eq_of_orEmptyObject
    {passed holds : Option JobValue} (changed : ChangedInPlace passed holds)
    (same : JobValue.orEmptyObject holds = JobValue.orEmptyObject passed) :
    holds = passed := by
  rcases changed with unchanged | ⟨before, after, itself, now, wasObject, isObject⟩
  · exact unchanged
  · subst itself now
    rw [JobValue.orEmptyObject_of_isObject wasObject,
      JobValue.orEmptyObject_of_isObject isObject] at same
    rw [same]

theorem Holds.trans
    {calls : List MadeCall} {call : ℕ} {before after : Option JobValue}
    (holds : Holds calls call before) (changed : ChangedInPlace before after) :
    Holds calls call after := by
  obtain ⟨made, found, earlier⟩ := holds
  exact ⟨made, found, earlier.trans changed⟩

/-- A step that makes no call. -/
theorem Account.pass
    {maximum : ℕ} {calls : List MadeCall} {attempt : ℚ}
    {run next : AttemptRun κ JobValue}
    (account : Account maximum calls attempt run)
    (added : List (Observation JobValue))
    (history : next.history = added ++ run.history)
    (quiet : ∀ entry ∈ added, entry.isQuiet = true)
    (context : next.context = run.context)
    (scheduler :
      next.scheduler.job = run.scheduler.job ∧
        next.scheduler.attempt = run.scheduler.attempt)
    (length : next.retries.length = run.retries.length)
    (creating :
      ∀ (call : ℕ) (attempt : JobValue) (retryContext : Option JobValue)
        (retryDelayMs : JsNumber),
        next.retries[call]? =
            some (.creating attempt retryContext retryDelayMs) →
          ∃ passed,
            run.retries[call]? =
                some (.creating attempt passed retryDelayMs) ∧
              ChangedInPlace passed retryContext)
    (handling : next.phase.isHandling = true → run.phase.isHandling = true)
    (exposed :
      next.isExposed = true →
        run.isExposed = true ∨ run.phase.isHandling = true) :
    Account maximum calls attempt next where
  itsJob := by rw [scheduler.1, context, account.itsJob]
  itsAttempt := scheduler.2.trans account.itsAttempt
  length := account.length.trans length.symm
  creating := by
    intro call attempt retryContext retryDelayMs waiting
    obtain ⟨passed, waited, changed⟩ :=
      creating call attempt retryContext retryDelayMs waiting
    obtain ⟨makes, holds⟩ :=
      account.creating call attempt passed retryDelayMs waited
    exact ⟨makes, holds.trans changed⟩
  published := by
    intro call message member
    rw [history] at member
    rcases List.mem_append.mp member with new | earlier
    · cases quiet _ new
    · exact account.published call message earlier
  called := by
    intro call isDefault member
    rw [length]
    rw [history] at member
    rcases List.mem_append.mp member with new | earlier
    · cases quiet _ new
    · exact account.called call isDefault earlier
  reported := by
    intro call made found undiscarded
    rw [history, reported_append_iff quiet]
    exact account.reported call made found undiscarded
  handling := fun working => account.handling (handling working)
  exposed := by
    intro isExposed
    rcases exposed isExposed with before | working
    · exact account.exposed before
    · exact account.handling working

/-- A run that is no longer in `handleJob`, as an argument of `Account.pass`. -/
theorem not_handling
    {phase : AttemptPhase} {run : AttemptRun κ JobValue}
    (left : phase.isHandling = false) :
    phase.isHandling = true → run.phase.isHandling = true := by
  intro handling
  rw [left] at handling
  cases handling

/-- What a call of `retry` does on a scheduler that is not discarded. -/
theorem retry_of_number
    (coercions : Coercions) {manager : JobHandlerManager JobValue} {maximum : ℕ}
    {scheduler : Scheduler κ JobValue} {attempt : ℚ}
    (itsAttempt : scheduler.attempt = some (.number attempt))
    (itsMaximum : manager.getMaxAttemptCount scheduler.job = .ofNat maximum)
    (undiscarded : scheduler.isDiscarded = false)
    (options : RetryOptions JobValue) :
    scheduler.retry coercions.operators manager options =
      if maximum < nextAttempt attempt options then
        .exceeding
      else
        match scheduler.retryDelay coercions.operators manager options with
        | .error _ => .threw
        | .ok retryDelayMs =>
            .creating (some (.number (nextAttempt attempt options)))
              retryDelayMs := by
  have current :
      scheduler.currentAttempt coercions.operators options =
        some (.number (if options.resetAttempts then 1 else attempt)) := by
    unfold Scheduler.currentAttempt
    split
    · rfl
    · exact itsAttempt
  have incremented :
      coercions.operators.addOne
          (scheduler.currentAttempt coercions.operators options) =
        some (some (.number (nextAttempt attempt options))) := by
    rw [current]
    rfl
  have compared :
      manager.isExceedingMaxAttemptCount coercions.operators scheduler.job
          (some (.number (nextAttempt attempt options))) =
        some (decide ((maximum : ℚ) < nextAttempt attempt options)) := by
    unfold JobHandlerManager.isExceedingMaxAttemptCount
    rw [itsMaximum]
    rfl
  unfold Scheduler.retry
  simp only [undiscarded, Bool.false_eq_true, if_false, incremented, compared]
  by_cases exceeding : (maximum : ℚ) < nextAttempt attempt options
  · rw [decide_eq_true exceeding]
    exact (if_pos exceeding).symm
  · rw [decide_eq_false exceeding]
    exact (if_neg exceeding).symm

theorem Makes.concat
    {maximum : ℕ} {calls : List MadeCall} {attempt : ℚ} {call : ℕ}
    {next : JobValue} (makes : Makes maximum calls attempt call next)
    (made : MadeCall) :
    Makes maximum (calls ++ [made]) attempt call next := by
  obtain ⟨own, found, itsAttempt, within⟩ := makes
  have inside : call < calls.length := (List.getElem?_eq_some_iff.mp found).1
  refine ⟨own, ?_, itsAttempt, within⟩
  rw [List.getElem?_append_left inside]
  exact found

theorem Holds.concat
    {calls : List MadeCall} {call : ℕ} {retryContext : Option JobValue}
    (holds : Holds calls call retryContext) (made : MadeCall) :
    Holds (calls ++ [made]) call retryContext := by
  obtain ⟨own, found, changed⟩ := holds
  have inside : call < calls.length := (List.getElem?_eq_some_iff.mp found).1
  refine ⟨own, ?_, changed⟩
  rw [List.getElem?_append_left inside]
  exact found

/-- What a call of `retry` leaves behind. -/
structure Called
    (maximum : ℕ) (attempt : ℚ) (options : RetryOptions JobValue)
    (run next : AttemptRun κ JobValue) (isDefault : Bool) : Prop where
  context : next.context = run.context
  scheduler :
    next.scheduler.job = run.scheduler.job ∧
      next.scheduler.attempt = run.scheduler.attempt
  phase : next.phase = run.phase
  isExposed : next.isExposed = run.isExposed
  retries :
    ∃ call, next.retries = run.retries ++ [call] ∧
      ∀ next retryContext retryDelayMs,
        call = .creating next retryContext retryDelayMs →
          (next = some (.number (nextAttempt attempt options)) ∧
              nextAttempt attempt options ≤ maximum) ∧
            retryContext = options.retryContext
  history :
    (next.history =
          .discardReported .maxAttemptCountReached ::
            .retryCalled run.retries.length isDefault :: run.history ∧
        run.scheduler.isDiscarded = false ∧
          maximum < nextAttempt attempt options) ∨
      (next.history = .retryCalled run.retries.length isDefault :: run.history ∧
        (run.scheduler.isDiscarded = false →
          ¬ maximum < nextAttempt attempt options))

theorem called_callRetry
    {coercions : Coercions} {surroundings : Surroundings Buffer JobValue}
    {maximum : ℕ} {run : AttemptRun κ JobValue} {attempt : ℚ}
    (operators : surroundings.operators = coercions.operators)
    (itsJob : run.scheduler.job = run.context.job)
    (itsAttempt : run.scheduler.attempt = some (.number attempt))
    (itsMaximum :
      surroundings.jobHandlerManager.getMaxAttemptCount run.context.job =
        .ofNat maximum)
    (options : RetryOptions JobValue) (isDefault : Bool) :
    Called maximum attempt options run
      (run.callRetry surroundings options isDefault) isDefault := by
  rw [← itsJob] at itsMaximum
  cases discarded : run.scheduler.isDiscarded with
  | true =>
      have ignored :
          run.scheduler.retry surroundings.operators
            surroundings.jobHandlerManager options = .ignored :=
        (run.scheduler.retry_ignored_iff _ _ _).mpr discarded
      simp only [callRetry, ignored]
      refine ⟨rfl, ⟨rfl, rfl⟩, rfl, rfl, ⟨.resolved, rfl, by simp⟩, ?_⟩
      exact Or.inr ⟨rfl, fun live => by rw [discarded] at live; cases live⟩
  | false =>
      have decided :=
        retry_of_number coercions itsAttempt itsMaximum discarded options
      rw [← operators] at decided
      by_cases exceeding : (maximum : ℚ) < nextAttempt attempt options
      · rw [if_pos exceeding] at decided
        simp only [callRetry, decided, AttemptRun.discard, Scheduler.discard,
          discarded, Bool.not_false]
        refine ⟨rfl, ⟨rfl, rfl⟩, rfl, rfl, ⟨.resolved, rfl, by simp⟩, ?_⟩
        exact Or.inl ⟨rfl, discarded, exceeding⟩
      · rw [if_neg exceeding] at decided
        have within : nextAttempt attempt options ≤ maximum := not_lt.mp exceeding
        split at decided
        · simp only [callRetry, decided]
          refine ⟨rfl, ⟨rfl, rfl⟩, rfl, rfl, ⟨.rejected, rfl, by simp⟩, ?_⟩
          exact Or.inr ⟨rfl, fun _ => exceeding⟩
        · rename_i retryDelayMs _
          simp only [callRetry, decided]
          refine ⟨rfl, ⟨rfl, rfl⟩, rfl, rfl, ⟨_, rfl, ?_⟩, ?_⟩
          · intro next retryContext _ same
            cases same
            exact ⟨⟨rfl, within⟩, rfl⟩
          · exact Or.inr ⟨rfl, fun _ => exceeding⟩

/-- A call adds at most its report and itself to the history. -/
theorem Called.mem_history
    {maximum : ℕ} {attempt : ℚ} {options : RetryOptions JobValue}
    {run next : AttemptRun κ JobValue} {isDefault : Bool}
    (called : Called maximum attempt options run next isDefault)
    {entry : Observation JobValue} (member : entry ∈ next.history) :
    entry ∈ run.history ∨
      entry = .discardReported .maxAttemptCountReached ∨
        entry = .retryCalled run.retries.length isDefault := by
  rcases called.history with ⟨history, _⟩ | ⟨history, _⟩
  · rw [history] at member
    rcases List.mem_cons.mp member with report | later
    · exact Or.inr (Or.inl report)
    · rcases List.mem_cons.mp later with new | earlier
      · exact Or.inr (Or.inr new)
      · exact Or.inl earlier
  · rw [history] at member
    rcases List.mem_cons.mp member with new | earlier
    · exact Or.inr (Or.inr new)
    · exact Or.inl earlier

theorem Called.length_retries
    {maximum : ℕ} {attempt : ℚ} {options : RetryOptions JobValue}
    {run next : AttemptRun κ JobValue} {isDefault : Bool}
    (called : Called maximum attempt options run next isDefault) :
    next.retries.length = run.retries.length + 1 := by
  obtain ⟨call, retries, _⟩ := called.retries
  rw [retries, List.length_append, List.length_singleton]

/-- A call makes no report for earlier calls. -/
theorem Called.reported_earlier_iff
    {maximum : ℕ} {attempt : ℚ} {options : RetryOptions JobValue}
    {run next : AttemptRun κ JobValue} {isDefault : Bool}
    (called : Called maximum attempt options run next isDefault)
    {index : ℕ} (earlier : index < run.retries.length) :
    Reported next.history index ↔ Reported run.history index := by
  have different : index ≠ run.retries.length := by omega
  rcases called.history with ⟨history, _⟩ | ⟨history, _⟩
  · rw [history, reported_report_iff]
    exact or_iff_right different
  · rw [history, reported_call_iff]

/-- A call on a scheduler that is not discarded reports an exceeded maximum. -/
theorem Called.reported_itself_iff
    {maximum : ℕ} {attempt : ℚ} {options : RetryOptions JobValue}
    {run next : AttemptRun κ JobValue} {isDefault : Bool}
    (called : Called maximum attempt options run next isDefault)
    (undiscarded : run.scheduler.isDiscarded = false)
    (fresh :
      ∀ isDefault, .retryCalled run.retries.length isDefault ∉ run.history) :
    Reported next.history run.retries.length ↔
      maximum < nextAttempt attempt options := by
  rcases called.history with ⟨history, _, exceeding⟩ | ⟨history, within⟩
  · rw [history, reported_report_iff]
    exact iff_of_true (Or.inl rfl) exceeding
  · rw [history, reported_call_iff]
    exact iff_of_false (not_reported_of_not_called fresh) (within undiscarded)

theorem Called.makes
    {maximum : ℕ} {calls : List MadeCall} {attempt : ℚ}
    {options : RetryOptions JobValue} {run next : AttemptRun κ JobValue}
    {isDefault : Bool}
    (called : Called maximum attempt options run next isDefault)
    (account : Account maximum calls attempt run)
    {index : ℕ} {itsNext : JobValue} {retryContext : Option JobValue}
    {retryDelayMs : JsNumber}
    (waiting :
      next.retries[index]? =
        some (.creating itsNext retryContext retryDelayMs)) :
    Makes maximum (calls ++ [⟨options, run.scheduler.isDiscarded⟩]) attempt
        index itsNext ∧
      Holds (calls ++ [⟨options, run.scheduler.isDiscarded⟩]) index
        retryContext := by
  obtain ⟨call, retries, made⟩ := called.retries
  rw [retries] at waiting
  rcases concat_cases waiting with earlier | ⟨last, same⟩
  · obtain ⟨makes, holds⟩ := account.creating index _ _ _ earlier
    exact ⟨makes.concat _, holds.concat _⟩
  · subst last
    obtain ⟨⟨itself, within⟩, passed⟩ := made _ _ _ same.symm
    have found :
        (calls ++ [(⟨options, run.scheduler.isDiscarded⟩ : MadeCall)])[
            run.retries.length]? =
          some ⟨options, run.scheduler.isDiscarded⟩ := by
      rw [← account.length]
      exact List.getElem?_concat_length
    exact ⟨⟨_, found, itself, within⟩, ⟨_, found, Or.inl passed⟩⟩

/-- A call of `retry` is entered into the account. -/
theorem Account.call
    {maximum : ℕ} {calls : List MadeCall} {attempt : ℚ}
    {options : RetryOptions JobValue} {isDefault : Bool}
    {run next : AttemptRun κ JobValue}
    (account : Account maximum calls attempt run)
    (called : Called maximum attempt options run next isDefault) :
    Account maximum (calls ++ [⟨options, run.scheduler.isDiscarded⟩]) attempt
      next where
  itsJob := by rw [called.scheduler.1, called.context, account.itsJob]
  itsAttempt := called.scheduler.2.trans account.itsAttempt
  length := by
    rw [called.length_retries, List.length_append, List.length_singleton,
      account.length]
  creating := by
    intro index next retryContext retryDelayMs waiting
    exact called.makes account waiting
  published := by
    intro index message member
    rcases called.mem_history member with earlier | report | new
    · exact (account.published index message earlier).concat _
    · cases report
    · cases new
  called := by
    intro index itsDefault member
    rw [called.length_retries]
    rcases called.mem_history member with earlier | report | new
    · exact Nat.lt_succ_of_lt (account.called index itsDefault earlier)
    · cases report
    · cases new
      exact Nat.lt_succ_self _
  reported := by
    intro index itsCall found undiscarded
    rcases concat_cases found with earlier | ⟨last, same⟩
    · have inside := (List.getElem?_eq_some_iff.mp earlier).1
      rw [account.length] at inside
      rw [called.reported_earlier_iff inside]
      exact account.reported index itsCall earlier undiscarded
    · subst same
      have fresh :
          ∀ isDefault, .retryCalled run.retries.length isDefault ∉ run.history :=
        fun isDefault member =>
          Nat.lt_irrefl _ (account.called _ isDefault member)
      rw [last, account.length]
      exact called.reported_itself_iff undiscarded fresh
  handling := by
    rw [called.phase]
    exact account.handling
  exposed := by
    rw [called.isExposed]
    exact account.exposed

/-- The default retry is called in the next phase, with its error emitted. -/
theorem Account.startRetrying
    {maximum : ℕ} {calls : List MadeCall} {attempt : ℚ}
    {run : AttemptRun κ JobValue} (account : Account maximum calls attempt run) :
    Account maximum calls attempt
      { run with
        phase := .retrying run.retries.length
        history := .jobErrorEmitted :: run.history } :=
  account.pass [.jobErrorEmitted] rfl (by simp [Observation.isQuiet]) rfl
    ⟨rfl, rfl⟩ rfl (fun _ _ _ _ waiting => ⟨_, waiting, .refl _⟩)
    (not_handling rfl) Or.inl

theorem catchError_not_handling
    (surroundings : Surroundings Buffer JobValue) (run : AttemptRun κ JobValue) :
    (run.catchError surroundings).phase.isHandling = false := by
  rcases catchError_phase surroundings run with ended | ⟨hasHandleError, failed⟩
  · rw [ended]
    rfl
  · rw [failed]
    rfl

/-- An error is caught in the handler. -/
theorem Account.catchError
    {maximum : ℕ} {calls : List MadeCall} {attempt : ℚ}
    {run : AttemptRun κ JobValue} (account : Account maximum calls attempt run)
    (surroundings : Surroundings Buffer JobValue)
    (working : run.phase.isHandling = true) :
    Account maximum calls attempt (run.catchError surroundings) :=
  account.pass [] (catchError_history surroundings run) (List.forall_mem_nil _)
    (catchError_context surroundings run)
    (by rw [catchError_scheduler]; exact ⟨rfl, rfl⟩)
    (by rw [catchError_retries])
    (by rw [catchError_retries]; exact fun _ _ _ _ waiting => ⟨_, waiting, .refl _⟩)
    (by rw [catchError_not_handling]; exact fun handling => by cases handling)
    (fun _ => Or.inr working)

/-- What `List.set` does to a call that is not waiting for its queue. -/
theorem creating_of_set
    {retries : List (RetryCall JobValue)} {place : ℕ} (new : RetryCall JobValue)
    (settled : new.isCreating = false)
    {call : ℕ} {next : JobValue} {retryContext : Option JobValue}
    {retryDelayMs : JsNumber}
    (waiting :
      (retries.set place new)[call]? =
        some (.creating next retryContext retryDelayMs)) :
    ∃ passed, retries[call]? = some (.creating next passed retryDelayMs) ∧
      ChangedInPlace passed retryContext := by
  rcases set_cases waiting with ⟨_, itself⟩ | ⟨_, earlier⟩
  · rw [← itself] at settled
    cases settled
  · exact ⟨retryContext, earlier, .refl retryContext⟩

/-- A message is sent for a call that has been waiting for its queue. -/
theorem Account.publish
    {maximum : ℕ} {calls : List MadeCall} {attempt : ℚ}
    {run : AttemptRun κ JobValue} {call : ℕ} {retryContext : Option JobValue}
    {message : SerializedContext JobValue} {retryDelayMs : JsNumber}
    (account : Account maximum calls attempt run)
    (waiting :
      run.retries[call]? =
        some (.creating message.attempt retryContext retryDelayMs)) :
    Account maximum calls attempt
      { run with
        retries := run.retries.set call (.sending message retryDelayMs)
        history := .published call message :: run.history } where
  itsJob := account.itsJob
  itsAttempt := account.itsAttempt
  length := by
    rw [List.length_set]
    exact account.length
  creating := by
    intro place other otherContext delay found
    obtain ⟨passed, waited, changed⟩ :=
      creating_of_set (.sending message retryDelayMs) rfl found
    obtain ⟨makes, holds⟩ := account.creating place other passed delay waited
    exact ⟨makes, holds.trans changed⟩
  published := by
    intro place other member
    rcases List.mem_cons.mp member with new | earlier
    · cases new
      exact (account.creating call _ retryContext retryDelayMs waiting).1
    · exact account.published place other earlier
  called := by
    intro place isDefault member
    rw [List.length_set]
    rcases List.mem_cons.mp member with new | earlier
    · cases new
    · exact account.called place isDefault earlier
  reported := by
    intro place made found undiscarded
    have unreported :
        Reported (.published call message :: run.history) place ↔
          Reported run.history place := by
      apply reported_cons_iff
      intro same
      cases same
    exact unreported.trans (account.reported place made found undiscarded)
  handling := account.handling
  exposed := account.exposed

/-- Every step of a run keeps its account, with the call that it makes. -/
theorem account_steps
    {coercions : Coercions} {surroundings : Surroundings Buffer JobValue}
    {maximum : ℕ} {record : RunRecord κ Buffer} {attempt : ℚ}
    {run next : AttemptRun κ JobValue} {event : AttemptEvent JobValue}
    {effects : List (Effect κ Buffer)}
    (operators : surroundings.operators = coercions.operators)
    (itsMaximum :
      (calledOptions surroundings.isDisposed event).isSome = true →
        surroundings.jobHandlerManager.getMaxAttemptCount run.context.job =
          .ofNat maximum)
    (account : Account maximum record.calls attempt run)
    (stepped : Steps surroundings run event next effects) :
    Account maximum
      (record.observe run surroundings.isDisposed event).calls attempt next := by
  cases stepped with
  | handlerResolved hasTimer handling =>
      exact account.pass [.handlerResolved] rfl (by simp [Observation.isQuiet])
        rfl ⟨rfl, rfl⟩ rfl (fun _ _ _ _ waiting => ⟨_, waiting, .refl _⟩)
        (not_handling rfl) Or.inl
  | handlerRejected hasHandler hasTimer handling =>
      exact account.catchError surroundings (by rw [handling]; rfl)
  | handlerTimedOut hasHandler handling =>
      have timedOut :
          Account maximum record.calls attempt
            { run with history := .handlerTimedOut :: run.history } :=
        account.pass [.handlerTimedOut] rfl (by simp [Observation.isQuiet])
          rfl ⟨rfl, rfl⟩ rfl (fun _ _ _ _ waiting => ⟨_, waiting, .refl _⟩) id Or.inl
      exact timedOut.catchError surroundings (by rw [handling]; rfl)
  | handleErrorResolved handlingError =>
      exact account.pass [.handleErrorResolved] rfl
        (by simp [Observation.isQuiet]) rfl ⟨rfl, rfl⟩ rfl
        (fun _ _ _ _ waiting => ⟨_, waiting, .refl _⟩) (not_handling rfl) Or.inl
  | handleErrorDisposed hasHandleError handlingError disposed =>
      simp only [RunRecord.observe, calledOptions, disposed, if_true]
      exact account.pass [] rfl (List.forall_mem_nil _) rfl ⟨rfl, rfl⟩ rfl
        (fun _ _ _ _ waiting => ⟨_, waiting, .refl _⟩) (not_handling rfl) Or.inl
  | handleErrorRejected hasHandleError handlingError live =>
      simp only [RunRecord.observe, calledOptions, live, Bool.false_eq_true,
        if_false]
      have started := account.startRetrying
      refine started.call
        (called_callRetry operators started.itsJob started.itsAttempt
          (itsMaximum ?_) defaultRetryOptions true)
      simp [calledOptions, live]
  | retryCalled options exposed =>
      exact account.call
        (called_callRetry operators account.itsJob account.itsAttempt
          (itsMaximum rfl) options false)
  | discardCalled exposed =>
      have reports :
          ∃ added, (run.discard .givenByUser).history = added ++ run.history ∧
            ∀ entry ∈ added, entry.isQuiet = true := by
        rw [discard_history]
        split
        · exact ⟨[], rfl, List.forall_mem_nil _⟩
        · exact ⟨[.discardReported .givenByUser], rfl,
            by simp [Observation.isQuiet]⟩
      obtain ⟨added, history, quiet⟩ := reports
      refine account.pass added history quiet (discard_context run _) ?_
        (by rw [discard_retries])
        (by rw [discard_retries]; exact fun _ _ _ _ waiting => ⟨_, waiting, .refl _⟩)
        (by rw [discard_phase]; exact id) ?_
      · cases discarded : run.scheduler.isDiscarded <;>
          simp [AttemptRun.discard, Scheduler.discard, discarded]
      · cases discarded : run.scheduler.isDiscarded <;>
          simp [AttemptRun.discard, Scheduler.discard, discarded] <;>
            exact Or.inl
  | dataChanged data changeable =>
      exact account.pass [.dataChanged data] rfl (by simp [Observation.isQuiet])
        rfl ⟨rfl, rfl⟩ rfl (fun _ _ _ _ waiting => ⟨_, waiting, .refl _⟩) id Or.inl
  | retryContextChanged call next passed retryContext retryDelayMs creating
      changeable =>
      rw [operators] at changeable
      have areObjects :
          JobValue.isObject passed = true ∧
            JobValue.isObject retryContext = true := changeable
      refine account.pass [] rfl (List.forall_mem_nil _) rfl ⟨rfl, rfl⟩
        List.length_set ?_ id Or.inl
      intro place itsNext itsContext itsDelay waiting
      rcases set_cases waiting with ⟨same, itself⟩ | ⟨_, earlier⟩
      · cases itself
        rw [same]
        exact ⟨_, creating, Or.inr ⟨_, _, rfl, rfl, areObjects⟩⟩
      · exact ⟨_, earlier, .refl _⟩
  | retryPublished call next retryContext retryDelayMs content creating
      serialized =>
      exact account.publish creating
  | retryNotPublished call next retryContext retryDelayMs settlement creating =>
      exact account.pass [] rfl (List.forall_mem_nil _) rfl ⟨rfl, rfl⟩
        List.length_set (fun _ _ _ _ => creating_of_set .rejected rfl) id Or.inl
  | sendConfirmed call message retryDelayMs sending =>
      exact account.pass [.publishConfirmed call] rfl
        (by simp [Observation.isQuiet]) rfl ⟨rfl, rfl⟩ List.length_set
        (fun _ _ _ _ => creating_of_set .resolved rfl) id Or.inl
  | sendFailed call message retryDelayMs sending =>
      exact account.pass [] rfl (List.forall_mem_nil _) rfl ⟨rfl, rfl⟩
        List.length_set (fun _ _ _ _ => creating_of_set .rejected rfl) id Or.inl
  | defaultRetryResolved call retrying resolved =>
      exact account.pass [.defaultRetryResolved call] rfl
        (by simp [Observation.isQuiet]) rfl ⟨rfl, rfl⟩ rfl
        (fun _ _ _ _ waiting => ⟨_, waiting, .refl _⟩) (not_handling rfl) Or.inl
  | defaultRetryRejected call retrying rejected =>
      exact account.pass [.defaultRetryRejected call] rfl
        (by simp [Observation.isQuiet]) rfl ⟨rfl, rfl⟩ rfl
        (fun _ _ _ _ waiting => ⟨_, waiting, .refl _⟩) (not_handling rfl) Or.inl
  | proceedDisposed processed disposed =>
      exact account.pass [] rfl (List.forall_mem_nil _) rfl ⟨rfl, rfl⟩ rfl
        (fun _ _ _ _ waiting => ⟨_, waiting, .refl _⟩) (not_handling rfl) Or.inl
  | proceedAcknowledging tag processed live actual =>
      exact account.pass [.acknowledged tag] rfl (by simp [Observation.isQuiet])
        rfl ⟨rfl, rfl⟩ rfl (fun _ _ _ _ waiting => ⟨_, waiting, .refl _⟩)
        (not_handling rfl) Or.inl
  | proceedUnlocking processed live actual =>
      exact account.pass [] rfl (List.forall_mem_nil _) rfl ⟨rfl, rfl⟩ rfl
        (fun _ _ _ _ waiting => ⟨_, waiting, .refl _⟩) (not_handling rfl) Or.inl
  | acknowledgeSettled tag settlement acknowledging =>
      exact account.pass [] rfl (List.forall_mem_nil _) rfl ⟨rfl, rfl⟩ rfl
        (fun _ _ _ _ waiting => ⟨_, waiting, .refl _⟩) (not_handling rfl) Or.inl

/-- A run without a call has an empty account. -/
theorem account_of_uncalled
    {maximum : ℕ} {attempt : ℚ} {context : SerializedContext JobValue}
    (itsAttempt : context.attempt = some (.number attempt))
    {run : AttemptRun κ JobValue}
    (uncalled :
      ∀ entry ∈ run.history,
        (∀ call message, entry ≠ .published call message) ∧
          ∀ call isDefault, entry ≠ .retryCalled call isDefault)
    (scheduler :
      run.scheduler.job = context.job ∧
        run.scheduler.attempt = context.attempt)
    (itsContext : run.context = context) (retries : run.retries = [])
    (handling : run.phase.isHandling = true → attempt ≤ maximum)
    (exposed : run.isExposed = true → attempt ≤ maximum) :
    Account maximum [] attempt run where
  itsJob := by rw [itsContext, scheduler.1]
  itsAttempt := scheduler.2.trans itsAttempt
  length := by
    rw [retries]
    rfl
  creating := by
    intro call next retryContext retryDelayMs found
    rw [retries] at found
    cases found
  published := by
    intro call message member
    exact absurd rfl ((uncalled _ member).1 call message)
  called := by
    intro call isDefault member
    exact absurd rfl ((uncalled _ member).2 call isDefault)
  reported := by
    intro call made found
    cases found
  handling := handling
  exposed := exposed

/-- A run begins with an empty account, and gives its scheduler to user code only
within the maximum. -/
theorem account_start
    {coercions : Coercions} {surroundings : Surroundings Buffer JobValue}
    {maximum : ℕ} {attempt : ℚ} (correlationId : κ)
    {context : SerializedContext JobValue}
    (operators : surroundings.operators = coercions.operators)
    (itsMaximum :
      surroundings.jobHandlerManager.getMaxAttemptCount context.job =
        .ofNat maximum)
    (itsAttempt : context.attempt = some (.number attempt)) :
    Account maximum [] attempt (start surroundings correlationId context) := by
  have compared :
      surroundings.jobHandlerManager.isExceedingMaxAttemptCount
          surroundings.operators context.job context.attempt =
        some (decide ((maximum : ℚ) < attempt)) := by
    unfold JobHandlerManager.isExceedingMaxAttemptCount
    rw [itsMaximum, itsAttempt, operators]
    rfl
  unfold start
  simp only [compared]
  by_cases exceeding : (maximum : ℚ) < attempt
  · simp only [decide_eq_true exceeding]
    refine account_of_uncalled itsAttempt ?_ ⟨rfl, rfl⟩ rfl rfl
      (fun handling => absurd handling Bool.false_ne_true)
      (fun isExposed => absurd isExposed Bool.false_ne_true)
    intro entry member
    rcases List.mem_cons.mp member with report | exceeded
    · simp [report]
    · simp [List.mem_singleton.mp exceeded]
  · have within : attempt ≤ maximum := not_lt.mp exceeding
    simp only [decide_eq_false exceeding]
    split
    · exact account_of_uncalled itsAttempt (List.forall_mem_nil _)
        ⟨rfl, rfl⟩ rfl rfl (fun _ => within) (fun _ => within)
    · exact account_of_uncalled itsAttempt (List.forall_mem_nil _)
        ⟨rfl, rfl⟩ rfl rfl (fun _ => within) (fun _ => within)

end AttemptRun

/-! ## The runs of a server -/

namespace JobServer

variable {κ Buffer : Type} [DecidableEq κ] [DecidableEq Buffer]

/-- The records of the runs, one for each. -/
def recordRuns
    (records : List (RunRecord κ Buffer))
    (server : JobServer κ Buffer JobValue) :
    JobServerEvent κ Buffer JobValue → List (RunRecord κ Buffer)
  | .jobMessage message _ =>
      if (server.messageRelevancyChecker.correlationIds
          message.correlationId).isNone then
        records ++ [⟨message, []⟩]
      else
        records
  | .attempt index event =>
      match server.runs[index]? with
      | some (.attempt run) =>
          records.modify index fun record =>
            record.observe run (decide (server.state = .disposed)) event
      | _ => records
  | _ => records

/-- The server and the records of its runs. -/
def recordingMachine (config : JobServerConfig Buffer JobValue) :
    Machine (JobServer κ Buffer JobValue × List (RunRecord κ Buffer))
      (JobServerEvent κ Buffer JobValue) :=
  (machine config).watched recordRuns []

/-- Whenever a run of the job compares an attempt with its maximum, the
registration has this one. -/
def FixedRegistration
    (config : JobServerConfig Buffer JobValue) (job : JobValue) (maximum : ℕ)
    (state : JobServer κ Buffer JobValue × List (RunRecord κ Buffer)) :
    JobServerEvent κ Buffer JobValue → Prop
  | .jobMessage message _ =>
      ∀ context,
        config.jsonBufferSerializer.deserialize message.content = some context →
          context.job = job →
            state.1.jobHandlerManager.getMaxAttemptCount job = .ofNat maximum
  | .attempt index event =>
      ∀ run, state.1.runs[index]? = some (.attempt run) →
        run.context.job = job →
          (AttemptRun.calledOptions (decide (state.1.state = .disposed))
            event).isSome = true →
            state.1.jobHandlerManager.getMaxAttemptCount job = .ofNat maximum
  | _ => True

/-- A run belongs to the message of its record, and its calls are accounted
for. -/
structure RunAccount
    (config : JobServerConfig Buffer JobValue) (job : JobValue) (maximum : ℕ)
    (record : RunRecord κ Buffer) (run : AttemptRun κ JobValue) : Prop where
  correlationId : run.correlationId = record.message.correlationId
  context :
    config.jsonBufferSerializer.deserialize record.message.content =
      some run.context
  account :
    run.context.job = job →
      ∀ attempt, run.context.attempt = some (.number attempt) →
        run.Account maximum record.calls attempt

structure Accounts
    (config : JobServerConfig Buffer JobValue) (job : JobValue) (maximum : ℕ)
    (state : JobServer κ Buffer JobValue × List (RunRecord κ Buffer)) :
    Prop where
  length : state.2.length = state.1.runs.length
  runs :
    ∀ (index : ℕ) (run : AttemptRun κ JobValue) (record : RunRecord κ Buffer),
      state.1.runs[index]? = some (.attempt run) →
        state.2[index]? = some record →
          RunAccount config job maximum record run

theorem accounts_initial
    (config : JobServerConfig Buffer JobValue) (job : JobValue) (maximum : ℕ) :
    Accounts config job maximum (recordingMachine (κ := κ) config).initial where
  length := rfl
  runs := by
    intro index run record present
    have absent : ([] : List (JobRun κ JobValue))[index]? = none :=
      List.getElem?_nil
    cases absent.symm.trans present

section

omit [DecidableEq κ] [DecidableEq Buffer]

theorem RunAccount.start
    {coercions : Coercions} {config : JobServerConfig Buffer JobValue}
    (operators : config.operators = coercions.operators)
    {job : JobValue} {maximum : ℕ} (server : JobServer κ Buffer JobValue)
    (message : Message κ Buffer) {context : SerializedContext JobValue}
    (deserialized :
      config.jsonBufferSerializer.deserialize message.content = some context)
    (itsMaximum :
      context.job = job →
        server.jobHandlerManager.getMaxAttemptCount job = .ofNat maximum) :
    RunAccount config job maximum ⟨message, []⟩
      (AttemptRun.start (server.surroundings config message.correlationId)
        message.correlationId context) where
  correlationId := (AttemptRun.start_cases _ _ _).1
  context := by
    rw [(AttemptRun.start_cases _ _ _).2.1]
    exact deserialized
  account := by
    rw [(AttemptRun.start_cases _ _ _).2.1]
    intro itsJob attempt itsAttempt
    refine AttemptRun.account_start message.correlationId operators ?_ itsAttempt
    rw [itsJob]
    exact itsMaximum itsJob

theorem RunAccount.of_startRun
    {coercions : Coercions} {config : JobServerConfig Buffer JobValue}
    (operators : config.operators = coercions.operators)
    {job : JobValue} {maximum : ℕ} {server : JobServer κ Buffer JobValue}
    {message : Message κ Buffer} {run : AttemptRun κ JobValue}
    (fixed :
      ∀ context,
        config.jsonBufferSerializer.deserialize message.content = some context →
          context.job = job →
            server.jobHandlerManager.getMaxAttemptCount job = .ofNat maximum)
    (started : .attempt run = server.startRun config message) :
    RunAccount config job maximum ⟨message, []⟩ run := by
  unfold startRun at started
  split at started
  · cases started
  · rename_i context deserialized
    rw [JobRun.attempt.inj started]
    exact RunAccount.start operators server message deserialized
      (fixed context deserialized)

theorem RunAccount.steps
    {coercions : Coercions} {config : JobServerConfig Buffer JobValue}
    (operators : config.operators = coercions.operators)
    {job : JobValue} {maximum : ℕ} {server : JobServer κ Buffer JobValue}
    {record : RunRecord κ Buffer} {run next : AttemptRun κ JobValue}
    {event : AttemptEvent JobValue} {effects : List (Effect κ Buffer)}
    (account : RunAccount config job maximum record run)
    (itsMaximum :
      run.context.job = job →
        (AttemptRun.calledOptions (decide (server.state = .disposed))
          event).isSome = true →
          server.jobHandlerManager.getMaxAttemptCount job = .ofNat maximum)
    (stepped :
      run.Steps (server.surroundings config run.correlationId) event next
        effects) :
    RunAccount config job maximum
      (record.observe run (decide (server.state = .disposed)) event) next where
  correlationId := by
    rw [AttemptRun.correlationId_steps stepped, RunRecord.observe_message]
    exact account.correlationId
  context := by
    rw [AttemptRun.context_steps stepped, RunRecord.observe_message]
    exact account.context
  account := by
    rw [AttemptRun.context_steps stepped]
    intro itsJob attempt itsAttempt
    refine AttemptRun.account_steps operators ?_
      (account.account itsJob attempt itsAttempt) stepped
    rw [itsJob]
    exact itsMaximum itsJob

theorem Accounts.unchanged
    {config : JobServerConfig Buffer JobValue} {job : JobValue} {maximum : ℕ}
    {state next : JobServer κ Buffer JobValue × List (RunRecord κ Buffer)}
    (accounts : Accounts config job maximum state)
    (runs : next.1.runs = state.1.runs) (records : next.2 = state.2) :
    Accounts config job maximum next := by
  refine ⟨?_, ?_⟩
  · rw [runs, records]
    exact accounts.length
  · rw [runs, records]
    exact accounts.runs

/-- A run starts, and so does its record. -/
theorem Accounts.concat
    {config : JobServerConfig Buffer JobValue} {job : JobValue} {maximum : ℕ}
    {state next : JobServer κ Buffer JobValue × List (RunRecord κ Buffer)}
    {message : Message κ Buffer} {started : JobRun κ JobValue}
    (accounts : Accounts config job maximum state)
    (runs : next.1.runs = state.1.runs ++ [started])
    (records : next.2 = state.2 ++ [⟨message, []⟩])
    (account :
      ∀ run, .attempt run = started →
        RunAccount config job maximum ⟨message, []⟩ run) :
    Accounts config job maximum next := by
  refine ⟨?_, ?_⟩
  · rw [runs, records, List.length_append, List.length_append, accounts.length]
    rfl
  · intro index run record present found
    rw [runs] at present
    rw [records] at found
    rcases concat_cases present with earlier | ⟨last, itself⟩
    · have inside := (List.getElem?_eq_some_iff.mp earlier).1
      rw [← accounts.length] at inside
      rw [List.getElem?_append_left inside] at found
      exact accounts.runs index run record earlier found
    · rw [last, ← accounts.length, List.getElem?_concat_length] at found
      rw [← Option.some.inj found]
      exact account run itself

/-- A run takes a step, and its record observes it. -/
theorem Accounts.set
    {config : JobServerConfig Buffer JobValue} {job : JobValue} {maximum : ℕ}
    {state next : JobServer κ Buffer JobValue × List (RunRecord κ Buffer)}
    {place : ℕ} {run following : AttemptRun κ JobValue}
    {observe : RunRecord κ Buffer → RunRecord κ Buffer}
    (accounts : Accounts config job maximum state)
    (present : state.1.runs[place]? = some (.attempt run))
    (runs : next.1.runs = state.1.runs.set place (.attempt following))
    (records : next.2 = state.2.modify place observe)
    (account :
      ∀ record, RunAccount config job maximum record run →
        RunAccount config job maximum (observe record) following) :
    Accounts config job maximum next := by
  refine ⟨?_, ?_⟩
  · rw [runs, records, List.length_modify, List.length_set]
    exact accounts.length
  · intro index itsRun record itself found
    rw [runs] at itself
    rw [records, List.getElem?_modify] at found
    obtain ⟨before, earlier, observed⟩ := Option.map_eq_some_iff.mp found
    rw [← observed]
    rcases set_cases itself with ⟨same, new⟩ | ⟨different, kept⟩
    · subst same
      cases new
      rw [if_pos rfl]
      exact account before (accounts.runs index run before present earlier)
    · rw [if_neg (Ne.symm different)]
      exact accounts.runs index itsRun before kept earlier

end

theorem accounts_preserved
    (coercions : Coercions) (config : JobServerConfig Buffer JobValue)
    (operators : config.operators = coercions.operators)
    (job : JobValue) (maximum : ℕ) :
    (recordingMachine (κ := κ) config).PreservedUnder
      (FixedRegistration config job maximum) (Accounts config job maximum) := by
  intro state event next accounts fixed taken
  obtain ⟨acted, records⟩ := Machine.watched_step_iff.mp taken
  have stepped : state.1.step config event = some next.1 := acted
  cases event with
  | jobMessage message tag =>
      simp only [step] at stepped
      split at stepped
      · have moved := Option.some.inj stepped
        by_cases free :
            (state.1.messageRelevancyChecker.correlationIds
              message.correlationId).isNone = true
        · have runs :
              next.1.runs =
                state.1.runs ++ [state.1.startRun config message] := by
            rw [← moved]
            exact if_pos free
          have recorded : next.2 = state.2 ++ [⟨message, []⟩] := by
            rw [records]
            exact if_pos free
          refine accounts.concat runs recorded ?_
          intro run started
          exact RunAccount.of_startRun operators fixed started
        · refine accounts.unchanged ?_ ?_
          · rw [← moved]
            exact if_neg free
          · rw [records]
            exact if_neg free
      · cases stepped
  | attempt place event =>
      obtain ⟨run, following, effects, present, steppedRun, moved⟩ :=
        stepAttempt_cases stepped
      have runs : next.1.runs = state.1.runs.set place (.attempt following) := by
        rw [moved, runs_effects]
      have recorded :
          next.2 =
            state.2.modify place fun record =>
              record.observe run (decide (state.1.state = .disposed)) event := by
        rw [records]
        simp only [recordRuns, present]
      refine accounts.set present runs recorded ?_
      intro record account
      exact account.steps operators (fixed run present) steppedRun
  | _ =>
      refine accounts.unchanged ?_ records
      exact runs_eq_of_step stepped (by simp) (by simp)

end JobServer

end Amq.Jobs
