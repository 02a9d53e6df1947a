import Amq.Core.Executor

/-!
# The callback sets of an executor

An executor keeps the callbacks of its calls in two sets.  `cancelCallbacks` has
an entry for each call that has not been finalized; `resumeCallbacks` has one for
each call that waits for a retry.  `cancelAll` and `resumeAll` reach the calls
through these sets only, so whatever is missing from a set is never called back.
-/

namespace Amq.Core

open Amq.Transition

/-- The callback of a paused call is in `resumeCallbacks`. -/
def CallPhase.isRegistered {ρ : Type} : CallPhase ρ → Bool
  | .paused isRegistered => isRegistered
  | _ => false

/-- An executor with its two sets; a callback is known by the number of its
call. -/
structure ExecutorCallbacks (ρ : Type) where
  executor : Executor ρ
  cancelCallbacks : List ℕ
  resumeCallbacks : List ℕ

namespace ExecutorCallbacks

variable {ρ : Type}

def create (kind : ExecutorKind) (commandTimeoutMs : JsNumber) :
    ExecutorCallbacks ρ where
  executor := .create kind commandTimeoutMs
  cancelCallbacks := []
  resumeCallbacks := []

/-- `execute` adds a callback unless the executor is cancelled. -/
def execute (state : ExecutorCallbacks ρ) (retryOnError : Bool) :
    ExecutorCallbacks ρ :=
  let call := ExecuteCall.execute state.executor.view retryOnError
  { state with
    executor :=
      { state.executor with calls := state.executor.calls ++ [call] }
    cancelCallbacks :=
      match state.executor.cancellation with
      | none => state.executor.calls.length :: state.cancelCallbacks
      | some _ => state.cancelCallbacks }

/-- `resumeAll` clears the set and then calls each callback. -/
def resumeAll (state : ExecutorCallbacks ρ) : ExecutorCallbacks ρ :=
  { state with
    resumeCallbacks := []
    executor :=
      { state.executor with
        calls :=
          state.executor.calls.mapIdx fun index call =>
            if index ∈ state.resumeCallbacks then call.resume else call } }

/-- `cancelAll` clears both sets and then calls each callback. -/
def cancelAll (state : ExecutorCallbacks ρ) (error : CommandError) :
    ExecutorCallbacks ρ :=
  match state.executor.cancellation with
  | some _ => state
  | none =>
      { cancelCallbacks := []
        resumeCallbacks := []
        executor :=
          { state.executor with
            cancellation := some error
            calls :=
              state.executor.calls.mapIdx fun index call =>
                { (if index ∈ state.cancelCallbacks then
                      call.settle (.rejected error)
                    else
                      call) with
                  phase :=
                    if index ∈ state.resumeCallbacks then call.phase.unregister
                    else call.phase } } }

/-- One call goes on.  The `catch` clause adds a callback when the call pauses,
and the `finally` callback deletes both. -/
def stepCall (state : ExecutorCallbacks ρ) (index : ℕ) (event : CallEvent) :
    Option (ExecutorCallbacks ρ) :=
  match state.executor.calls[index]? with
  | none => none
  | some call =>
      (call.step state.executor.view event).map fun call =>
        { executor :=
            { state.executor with
              calls := state.executor.calls.set index call }
          cancelCallbacks :=
            if event = .finalized then
              state.cancelCallbacks.filter (· ≠ index)
            else
              state.cancelCallbacks
          resumeCallbacks :=
            if event = .finalized then
              state.resumeCallbacks.filter (· ≠ index)
            else if event = .caught ∧ call.phase.isRegistered = true then
              index :: state.resumeCallbacks
            else
              state.resumeCallbacks }

def step (state : ExecutorCallbacks ρ) :
    ExecutorEvent ρ → Option (ExecutorCallbacks ρ)
  | .execute retryOnError => some (state.execute retryOnError)
  | .set resource => some { state with executor := state.executor.set resource }
  | .resumeAll => some state.resumeAll
  | .cancelAll error => some (state.cancelAll error)
  | .call index event => state.stepCall index event

def machine (kind : ExecutorKind) (commandTimeoutMs : JsNumber) :
    Machine (ExecutorCallbacks ρ) (ExecutorEvent ρ) where
  initial := create kind commandTimeoutMs
  step := step

/-! ## What a step of a call does to its callbacks -/

theorem isSettled_of_grown
    {call call' : ExecuteCall ρ} (added : List (CallObservation ρ))
    (grown : call'.history = added ++ call.history)
    (settled : call.isSettled = true) :
    call'.isSettled = true := by
  rw [ExecuteCall.isSettled_iff] at settled ⊢
  obtain ⟨result, member⟩ := settled
  rw [grown]
  exact ⟨result, List.mem_append_right _ member⟩

/-- A promise that has settled is not settled again. -/
theorem settle_of_settled
    {call : ExecuteCall ρ} (settled : call.isSettled = true)
    (result : CommandResult) :
    call.settle result = call := by
  unfold ExecuteCall.settle
  rw [if_pos settled]

theorem settle_isFinalized (call : ExecuteCall ρ) (result : CommandResult) :
    (call.settle result).isFinalized = call.isFinalized := by
  unfold ExecuteCall.settle
  split <;> rfl

theorem isRegistered_unregister (phase : CallPhase ρ) :
    phase.unregister.isRegistered = false := by
  cases phase <;> rfl

theorem executeOnce_frame (call : ExecuteCall ρ) (available : Option ρ) :
    (call.executeOnce available).isFinalized = call.isFinalized ∧
      (call.executeOnce available).phase.isRegistered = false ∧
      (call.executeOnce available).history = call.history := by
  cases available with
  | none => exact ⟨rfl, rfl, rfl⟩
  | some resource => exact ⟨rfl, rfl, rfl⟩

/-- The `finally` callback runs once the promise has settled, and only it
finalizes a call. -/
theorem finalized_of_steps
    {view : ExecutorView ρ} {call call' : ExecuteCall ρ} {event : CallEvent}
    (steps : ExecuteCall.Steps view call event call') :
    (event = .finalized → call'.isFinalized = true ∧
        call'.phase.isRegistered = false ∧ call'.isSettled = true) ∧
      (event ≠ .finalized → call'.isFinalized = call.isFinalized) := by
  cases steps with
  | completed before => exact ⟨nofun, fun _ => settle_isFinalized call _⟩
  | @caught error before =>
      refine ⟨nofun, fun _ => ?_⟩
      obtain ⟨phase, history, same, _⟩ :=
        ExecuteCall.catchError_frame view call error
      rw [same]
  | thrown before => exact ⟨nofun, fun _ => settle_isFinalized call _⟩
  | retried before =>
      exact ⟨nofun, fun _ => (executeOnce_frame call view.available).1⟩
  | timedOut pending first => exact ⟨nofun, fun _ => settle_isFinalized call _⟩
  | finalized settled =>
      exact ⟨fun _ => ⟨rfl, isRegistered_unregister call.phase, settled⟩,
        fun other => absurd rfl other⟩
  | withdrawn before cancelled => exact ⟨nofun, fun _ => rfl⟩
  | invoked before active => exact ⟨nofun, fun _ => rfl⟩
  | commandFailed before => exact ⟨nofun, fun _ => rfl⟩
  | intervalStarted before => exact ⟨nofun, fun _ => rfl⟩
  | givenUp before => exact ⟨nofun, fun _ => rfl⟩

/-- Only the `catch` clause lets a call wait for a retry, and not under an
executor that is cancelled. -/
theorem registered_of_steps
    {view : ExecutorView ρ} {call call' : ExecuteCall ρ} {event : CallEvent}
    (steps : ExecuteCall.Steps view call event call')
    (other : event ≠ .finalized) :
    (call'.phase.isRegistered = true →
        call.phase.isRegistered = true ∨
          (event = .caught ∧ view.cancellation = none)) ∧
      (call.phase.isRegistered = true → call'.phase.isRegistered = true) := by
  cases steps with
  | @caught error before =>
      constructor
      · intro registered
        refine Or.inr ⟨rfl, ?_⟩
        unfold ExecuteCall.catchError at registered
        split at registered
        · cases registered
        · assumption
      · rw [before]
        exact nofun
  | retried before =>
      rw [(executeOnce_frame call view.available).2.1, before]
      exact ⟨nofun, nofun⟩
  | timedOut pending first =>
      rw [ExecuteCall.settle_phase]
      exact ⟨Or.inl, id⟩
  | finalized settled => exact absurd rfl other
  | withdrawn before cancelled =>
      rw [before]
      exact ⟨nofun, nofun⟩
  | invoked before active =>
      rw [before]
      exact ⟨nofun, nofun⟩
  | completed before =>
      rw [before]
      exact ⟨nofun, nofun⟩
  | commandFailed before =>
      rw [before]
      exact ⟨nofun, nofun⟩
  | thrown before =>
      rw [before]
      exact ⟨nofun, nofun⟩
  | intervalStarted before =>
      rw [before]
      exact ⟨nofun, nofun⟩
  | givenUp before =>
      rw [before]
      exact ⟨nofun, nofun⟩

/-- Under a cancelled executor, nothing more is observed of a call that has
settled. -/
theorem history_of_cancelled
    {view : ExecutorView ρ} {call call' : ExecuteCall ρ} {event : CallEvent}
    (steps : ExecuteCall.Steps view call event call')
    (cancelled : view.cancellation ≠ none) (settled : call.isSettled = true) :
    call'.history = call.history := by
  cases steps with
  | invoked before active => exact absurd active cancelled
  | completed before =>
      change (call.settle _).history = call.history
      rw [settle_of_settled settled]
  | @caught error before =>
      unfold ExecuteCall.catchError
      split
      · rfl
      · rename_i active
        exact absurd active cancelled
  | thrown before =>
      change (call.settle _).history = call.history
      rw [settle_of_settled settled]
  | retried before => exact (executeOnce_frame call view.available).2.2
  | timedOut pending first =>
      change (call.settle _).history = call.history
      rw [settle_of_settled settled]
  | withdrawn before cancelled => rfl
  | commandFailed before => rfl
  | intervalStarted before => rfl
  | givenUp before => rfl
  | finalized settled => rfl

/-- A promise stays settled. -/
theorem settled_of_steps
    {view : ExecutorView ρ} {call call' : ExecuteCall ρ} {event : CallEvent}
    (steps : ExecuteCall.Steps view call event call')
    (settled : call.isSettled = true) :
    call'.isSettled = true := by
  cases steps with
  | invoked before active => exact isSettled_of_grown [_] rfl settled
  | completed before =>
      rw [settle_of_settled settled]
      exact settled
  | @caught error before =>
      obtain ⟨phase, history, same, grown⟩ :=
        ExecuteCall.catchError_frame view call error
      rw [same]
      exact (ExecuteCall.isSettled_emitted grown).trans settled
  | thrown before =>
      rw [settle_of_settled settled]
      exact settled
  | retried before =>
      exact isSettled_of_grown []
        (executeOnce_frame call view.available).2.2 settled
  | timedOut pending first =>
      rw [settle_of_settled settled]
      exact settled
  | withdrawn before cancelled => exact settled
  | commandFailed before => exact settled
  | intervalStarted before => exact settled
  | givenUp before => exact settled
  | finalized settled => exact settled

/-! ## The sets and the calls -/

/-- What is known of one call: whether its callbacks are in the sets, and that a
cancellation has settled it. -/
structure CallRecord (state : ExecutorCallbacks ρ) (index : ℕ)
    (call : ExecuteCall ρ) : Prop where
  cancel :
    index ∈ state.cancelCallbacks ↔
      state.executor.cancellation = none ∧ call.isFinalized = false
  resume : index ∈ state.resumeCallbacks ↔ call.phase.isRegistered = true
  finalized : call.isFinalized = true → call.isSettled = true
  cancelled :
    state.executor.cancellation ≠ none →
      call.isSettled = true ∧ call.phase.isRegistered = false

/-- The sets hold the callbacks of the calls that can be called back. -/
structure Registered (state : ExecutorCallbacks ρ) : Prop where
  calls :
    ∀ index call, state.executor.calls[index]? = some call →
      state.CallRecord index call
  cancelCallbacks :
    ∀ index ∈ state.cancelCallbacks, index < state.executor.calls.length
  resumeCallbacks :
    ∀ index ∈ state.resumeCallbacks, index < state.executor.calls.length

theorem registered_create (kind : ExecutorKind) (commandTimeoutMs : JsNumber) :
    (create kind commandTimeoutMs : ExecutorCallbacks ρ).Registered :=
  ⟨nofun, nofun, nofun⟩

/-- Once the executor is cancelled, both sets are empty. -/
theorem Registered.empty
    {state : ExecutorCallbacks ρ} (registered : state.Registered)
    (cancelled : state.executor.cancellation ≠ none) :
    state.cancelCallbacks = [] ∧ state.resumeCallbacks = [] := by
  constructor
  · refine List.eq_nil_iff_forall_not_mem.mpr ?_
    intro index member
    have inRange := registered.cancelCallbacks index member
    have record := registered.calls index _ (List.getElem?_eq_getElem inRange)
    exact cancelled (record.cancel.mp member).1
  · refine List.eq_nil_iff_forall_not_mem.mpr ?_
    intro index member
    have inRange := registered.resumeCallbacks index member
    have record := registered.calls index _ (List.getElem?_eq_getElem inRange)
    have waiting := record.resume.mp member
    rw [(record.cancelled cancelled).2] at waiting
    cases waiting

theorem becameAvailable_frame (resource : ρ) (call : ExecuteCall ρ) :
    (call.becameAvailable resource).isFinalized = call.isFinalized ∧
      (call.becameAvailable resource).phase.isRegistered =
        call.phase.isRegistered ∧
      (call.becameAvailable resource).history = call.history := by
  unfold ExecuteCall.becameAvailable
  split
  · rename_i waiting
    rw [waiting]
    exact ⟨rfl, rfl, rfl⟩
  · exact ⟨rfl, rfl, rfl⟩

theorem isSettled_of_history
    {call call' : ExecuteCall ρ} (same : call'.history = call.history) :
    call'.isSettled = call.isSettled :=
  ExecuteCall.isSettled_emitted (Or.inl same)

/-- A record is about the call, the executor's error and the sets at one place. -/
theorem CallRecord.transfer
    {state next : ExecutorCallbacks ρ} {index : ℕ} {call call' : ExecuteCall ρ}
    (record : state.CallRecord index call)
    (cancellation :
      next.executor.cancellation = state.executor.cancellation)
    (cancel : index ∈ next.cancelCallbacks ↔ index ∈ state.cancelCallbacks)
    (resume : index ∈ next.resumeCallbacks ↔ index ∈ state.resumeCallbacks)
    (isFinalized : call'.isFinalized = call.isFinalized)
    (isRegistered : call'.phase.isRegistered = call.phase.isRegistered)
    (isSettled : call'.isSettled = call.isSettled) :
    next.CallRecord index call' := by
  refine ⟨?_, ?_, ?_, ?_⟩
  · rw [cancel, cancellation, isFinalized]
    exact record.cancel
  · rw [resume, isRegistered]
    exact record.resume
  · rw [isFinalized, isSettled]
    exact record.finalized
  · rw [cancellation, isSettled, isRegistered]
    exact record.cancelled

theorem Registered.set
    {state : ExecutorCallbacks ρ} (registered : state.Registered)
    (resource : Option ρ) :
    Registered { state with executor := state.executor.set resource } := by
  cases resource with
  | none =>
      refine ⟨?_, registered.cancelCallbacks, registered.resumeCallbacks⟩
      intro index call found
      exact (registered.calls index call found).transfer rfl Iff.rfl Iff.rfl rfl
        rfl rfl
  | some resource =>
      refine ⟨?_, ?_, ?_⟩
      · intro index call' found
        obtain ⟨call, present, rfl⟩ :=
          Option.map_eq_some_iff.mp (List.getElem?_map.symm.trans found)
        obtain ⟨isFinalized, isRegistered, history⟩ :=
          becameAvailable_frame resource call
        exact (registered.calls index call present).transfer rfl Iff.rfl Iff.rfl
          isFinalized isRegistered (isSettled_of_history history)
      · intro index member
        change index < (state.executor.calls.map _).length
        rw [List.length_map]
        exact registered.cancelCallbacks index member
      · intro index member
        change index < (state.executor.calls.map _).length
        rw [List.length_map]
        exact registered.resumeCallbacks index member

theorem Registered.execute
    {state : ExecutorCallbacks ρ} (registered : state.Registered)
    (retryOnError : Bool) :
    (state.execute retryOnError).Registered := by
  have fresh :
      state.executor.calls.length ∉ state.cancelCallbacks ∧
        state.executor.calls.length ∉ state.resumeCallbacks :=
    ⟨fun member => Nat.lt_irrefl _ (registered.cancelCallbacks _ member),
      fun member => Nat.lt_irrefl _ (registered.resumeCallbacks _ member)⟩
  have callbacks :
      ∀ index, index ∈ (state.execute retryOnError).cancelCallbacks ↔
        index ∈ state.cancelCallbacks ∨
          (index = state.executor.calls.length ∧
            state.executor.cancellation = none) := by
    intro index
    unfold ExecutorCallbacks.execute
    cases state.executor.cancellation with
    | none => simp [or_comm]
    | some error => simp
  refine ⟨?_, ?_, ?_⟩
  · intro index call found
    change (state.executor.calls ++ [_])[index]? = some call at found
    by_cases earlier : index < state.executor.calls.length
    · rw [List.getElem?_append_left earlier] at found
      have different : index ≠ state.executor.calls.length := Nat.ne_of_lt earlier
      refine (registered.calls index call found).transfer rfl ?_ Iff.rfl rfl rfl
        rfl
      rw [callbacks]
      simp [different]
    · have last : index = state.executor.calls.length := by
        have inRange := (List.getElem?_eq_some_iff.mp found).1
        simp only [List.length_append, List.length_singleton] at inRange
        omega
      subst last
      rw [List.getElem?_concat_length] at found
      cases found
      have noResume :
          state.executor.calls.length ∈
              (state.execute retryOnError).resumeCallbacks ↔ False :=
        iff_false_intro fresh.2
      have executed :
          (state.execute retryOnError).executor.cancellation =
            state.executor.cancellation := rfl
      unfold ExecuteCall.execute
      cases active : state.executor.cancellation with
      | some error =>
          simp only [Executor.view, active]
          refine ⟨?_, noResume.trans (by simp [CallPhase.isRegistered]),
            fun _ => rfl, fun _ => ⟨rfl, rfl⟩⟩
          rw [callbacks, executed, active]
          simp [fresh.1]
      | none =>
          simp only [Executor.view, active]
          obtain ⟨isFinalized, isRegistered, _⟩ :=
            executeOnce_frame
              ({ retryOnError := retryOnError
                 phase := .waiting
                 hasTimedOut := false
                 isFinalized := false
                 history := [] } : ExecuteCall ρ) state.executor.available
          refine ⟨?_, ?_, ?_, ?_⟩
          · rw [callbacks, executed, active, isFinalized]
            simp
          · rw [isRegistered]
            exact noResume.trans (by simp)
          · rw [isFinalized]
            exact nofun
          · rw [executed, active]
            exact fun cancelled => absurd rfl cancelled
  · intro index member
    change index < (state.executor.calls ++ [_]).length
    rw [List.length_append, List.length_singleton]
    rcases (callbacks index).mp member with earlier | ⟨last, _⟩
    · exact Nat.lt_succ_of_lt (registered.cancelCallbacks index earlier)
    · exact last ▸ Nat.lt_succ_self _
  · intro index member
    change index < (state.executor.calls ++ [_]).length
    rw [List.length_append, List.length_singleton]
    exact Nat.lt_succ_of_lt (registered.resumeCallbacks index member)

theorem Registered.resumeAll
    {state : ExecutorCallbacks ρ} (registered : state.Registered) :
    state.resumeAll.Registered := by
  refine ⟨?_, ?_, nofun⟩
  · intro index call' found
    change (state.executor.calls.mapIdx _)[index]? = some call' at found
    rw [List.getElem?_mapIdx] at found
    obtain ⟨call, present, rfl⟩ := Option.map_eq_some_iff.mp found
    have record := registered.calls index call present
    by_cases member : index ∈ state.resumeCallbacks
    · have waiting := record.resume.mp member
      rw [if_pos member]
      cases phase : call.phase with
      | paused isRegistered =>
          rw [phase] at waiting
          cases waiting
          have resumed : call.resume = { call with phase := .resumed } := by
            unfold ExecuteCall.resume
            rw [phase]
          rw [resumed]
          refine ⟨record.cancel, ?_, record.finalized, fun cancelled =>
            ⟨(record.cancelled cancelled).1, rfl⟩⟩
          exact ⟨nofun, nofun⟩
      | _ =>
          rw [phase] at waiting
          cases waiting
    · rw [if_neg member]
      refine ⟨record.cancel, ?_, record.finalized, record.cancelled⟩
      exact ⟨nofun, fun waiting => absurd (record.resume.mpr waiting) member⟩
  · intro index member
    change index < (state.executor.calls.mapIdx _).length
    rw [List.length_mapIdx]
    exact registered.cancelCallbacks index member

/-- `cancelAll` reaches every call that has not settled, and settles it. -/
theorem cancelAll_calls
    {state : ExecutorCallbacks ρ} (registered : state.Registered)
    (active : state.executor.cancellation = none)
    (error : CommandError) {index : ℕ} {call : ExecuteCall ρ}
    (present : state.executor.calls[index]? = some call) :
    ∃ call', (state.cancelAll error).executor.calls[index]? = some call' ∧
      call'.isFinalized = call.isFinalized ∧
      call'.phase.isRegistered = false ∧
      call'.history =
        if call.isSettled then call.history
        else .settled (.rejected error) :: call.history := by
  have record := registered.calls index call present
  unfold ExecutorCallbacks.cancelAll
  rw [active]
  dsimp only
  rw [List.getElem?_mapIdx, present]
  refine ⟨_, rfl, ?_, ?_, ?_⟩
  · split
    · exact settle_isFinalized call _
    · rfl
  · by_cases waiting : index ∈ state.resumeCallbacks
    · simp only [if_pos waiting]
      exact isRegistered_unregister call.phase
    · simp only [if_neg waiting]
      rw [← Bool.not_eq_true, ← record.resume]
      exact waiting
  · by_cases pending : index ∈ state.cancelCallbacks
    · simp only [if_pos pending]
      unfold ExecuteCall.settle
      split <;> rfl
    · have finalized : call.isFinalized = true := by
        rw [record.cancel, not_and, Bool.not_eq_false] at pending
        exact pending active
      simp only [if_neg pending]
      rw [if_pos (record.finalized finalized)]

theorem Registered.cancelAll
    {state : ExecutorCallbacks ρ} (registered : state.Registered)
    (error : CommandError) :
    (state.cancelAll error).Registered := by
  cases active : state.executor.cancellation with
  | some earlier =>
      unfold ExecutorCallbacks.cancelAll
      rw [active]
      exact registered
  | none =>
      have empty :
          (state.cancelAll error).cancelCallbacks = [] ∧
            (state.cancelAll error).resumeCallbacks = [] ∧
            (state.cancelAll error).executor.cancellation = some error := by
        unfold ExecutorCallbacks.cancelAll
        rw [active]
        exact ⟨rfl, rfl, rfl⟩
      have length :
          (state.cancelAll error).executor.calls.length =
            state.executor.calls.length := by
        unfold ExecutorCallbacks.cancelAll
        rw [active]
        exact List.length_mapIdx
      refine ⟨?_, ?_, ?_⟩
      · intro index call' found
        have inRange : index < state.executor.calls.length := by
          rw [← length]
          exact (List.getElem?_eq_some_iff.mp found).1
        obtain ⟨again, foundAgain, isFinalized, isRegistered, history⟩ :=
          cancelAll_calls registered active error
            (List.getElem?_eq_getElem inRange)
        cases Option.some.inj (foundAgain.symm.trans found)
        have settled : call'.isSettled = true := by
          by_cases before : state.executor.calls[index].isSettled = true
          · rw [if_pos before] at history
            exact (isSettled_of_history history).trans before
          · rw [if_neg before] at history
            rw [ExecuteCall.isSettled_iff, history]
            exact ⟨_, List.mem_cons_self⟩
        refine ⟨?_, ?_, fun _ => settled, fun _ => ⟨settled, isRegistered⟩⟩
        · rw [empty.1, empty.2.2]
          exact ⟨nofun, nofun⟩
        · rw [empty.2.1, isRegistered]
          exact ⟨nofun, nofun⟩
      · rw [empty.1]
        exact nofun
      · rw [empty.2.1]
        exact nofun

/-- The sets after a step of one call, seen from that call. -/
theorem callRecord_steps
    {state next : ExecutorCallbacks ρ} {index : ℕ} {event : CallEvent}
    {call call' : ExecuteCall ρ}
    (record : state.CallRecord index call)
    (steps : ExecuteCall.Steps state.executor.view call event call')
    (cancellation :
      next.executor.cancellation = state.executor.cancellation)
    (cancel :
      next.cancelCallbacks =
        if event = .finalized then state.cancelCallbacks.filter (· ≠ index)
        else state.cancelCallbacks)
    (resume :
      next.resumeCallbacks =
        if event = .finalized then state.resumeCallbacks.filter (· ≠ index)
        else if event = .caught ∧ call'.phase.isRegistered = true then
          index :: state.resumeCallbacks
        else state.resumeCallbacks) :
    next.CallRecord index call' := by
  obtain ⟨finalizes, keeps⟩ := finalized_of_steps steps
  have stillSettled := settled_of_steps steps
  by_cases finalized : event = .finalized
  · obtain ⟨isFinalized, isRegistered, settled⟩ := finalizes finalized
    rw [if_pos finalized] at cancel resume
    refine ⟨?_, ?_, fun _ => settled, fun _ => ⟨settled, isRegistered⟩⟩
    · rw [cancel, isFinalized]
      simp
    · rw [resume, isRegistered]
      simp
  · have isFinalized := keeps finalized
    obtain ⟨registers, remains⟩ := registered_of_steps steps finalized
    rw [if_neg finalized] at cancel resume
    refine ⟨?_, ?_, ?_, ?_⟩
    · rw [cancel, cancellation, isFinalized]
      exact record.cancel
    · rw [resume]
      by_cases pauses : event = .caught ∧ call'.phase.isRegistered = true
      · rw [if_pos pauses]
        exact ⟨fun _ => pauses.2, fun _ => List.mem_cons_self⟩
      · rw [if_neg pauses, record.resume]
        refine ⟨remains, fun waiting => (registers waiting).resolve_right ?_⟩
        exact fun caught => pauses ⟨caught.1, waiting⟩
    · rw [isFinalized]
      exact fun before => stillSettled (record.finalized before)
    · rw [cancellation]
      intro cancelled
      obtain ⟨settled, idle⟩ := record.cancelled cancelled
      refine ⟨stillSettled settled, ?_⟩
      rw [← Bool.not_eq_true]
      intro waiting
      rcases registers waiting with before | ⟨-, active⟩
      · cases idle.symm.trans before
      · exact cancelled active

theorem Registered.stepCall
    {state next : ExecutorCallbacks ρ} {index : ℕ} {event : CallEvent}
    (registered : state.Registered)
    (stepped : state.stepCall index event = some next) :
    next.Registered := by
  unfold ExecutorCallbacks.stepCall at stepped
  split at stepped
  · cases stepped
  · rename_i call present
    obtain ⟨call', taken, rfl⟩ := Option.map_eq_some_iff.mp stepped
    obtain ⟨inRange, _⟩ := List.getElem?_eq_some_iff.mp present
    have steps := ExecuteCall.steps_of_step taken
    refine ⟨?_, ?_, ?_⟩
    · intro other otherCall found
      change (state.executor.calls.set index call')[other]? = some otherCall
        at found
      rcases set_cases found with ⟨same, itself⟩ | ⟨different, earlier⟩
      · subst same itself
        exact callRecord_steps (registered.calls other call present) steps rfl
          rfl rfl
      · refine (registered.calls other otherCall earlier).transfer rfl ?_ ?_ rfl
          rfl rfl
        · dsimp only
          split
          · simp [different]
          · rfl
        · dsimp only
          split
          · simp [different]
          · split
            · simp [different]
            · rfl
    · intro other member
      change other < (state.executor.calls.set index call').length
      rw [List.length_set]
      dsimp only at member
      split at member
      · exact registered.cancelCallbacks other (List.mem_filter.mp member).1
      · exact registered.cancelCallbacks other member
    · intro other member
      change other < (state.executor.calls.set index call').length
      rw [List.length_set]
      dsimp only at member
      split at member
      · exact registered.resumeCallbacks other (List.mem_filter.mp member).1
      · split at member
        · rcases List.mem_cons.mp member with new | earlier
          · exact new ▸ inRange
          · exact registered.resumeCallbacks other earlier
        · exact registered.resumeCallbacks other member

theorem registered_preserved
    (kind : ExecutorKind) (commandTimeoutMs : JsNumber) :
    (machine kind commandTimeoutMs : Machine (ExecutorCallbacks ρ) _).Preserved
      Registered := by
  intro state event next registered stepped
  change state.step event = some next at stepped
  cases event with
  | execute retryOnError =>
      cases stepped
      exact registered.execute retryOnError
  | set resource =>
      cases stepped
      exact registered.set resource
  | resumeAll =>
      cases stepped
      exact registered.resumeAll
  | cancelAll error =>
      cases stepped
      exact registered.cancelAll error
  | call index event => exact registered.stepCall stepped

/-! ## The sets say what the calls say

The machine with the sets takes the steps of the plain executor: the calls that
its sets lead to are those that have a callback. -/

theorem cancel_eq
    {state : ExecutorCallbacks ρ} {index : ℕ} {call : ExecuteCall ρ}
    (record : state.CallRecord index call)
    (active : state.executor.cancellation = none) (error : CommandError) :
    ({ (if index ∈ state.cancelCallbacks then call.settle (.rejected error)
        else call) with
        phase :=
          if index ∈ state.resumeCallbacks then call.phase.unregister
          else call.phase } : ExecuteCall ρ) =
      call.cancel error := by
  have cancel : index ∈ state.cancelCallbacks ↔ ¬ call.isFinalized = true := by
    rw [record.cancel, Bool.not_eq_true]
    exact and_iff_right active
  have phase :
      (if index ∈ state.resumeCallbacks then call.phase.unregister
        else call.phase) = call.phase.unregister := by
    split
    · rfl
    · rename_i idle
      rw [record.resume, Bool.not_eq_true] at idle
      cases phase : call.phase with
      | paused isRegistered =>
          rw [phase] at idle
          cases idle
          rfl
      | _ => rfl
  unfold ExecuteCall.cancel
  rw [phase]
  by_cases finalized : call.isFinalized = true
  · rw [if_pos finalized, if_neg (fun member => cancel.mp member finalized)]
  · rw [if_neg finalized, if_pos (cancel.mpr finalized)]

theorem resume_eq
    {state : ExecutorCallbacks ρ} {index : ℕ} {call : ExecuteCall ρ}
    (record : state.CallRecord index call) :
    (if index ∈ state.resumeCallbacks then call.resume else call) =
      call.resume := by
  split
  · rfl
  · rename_i idle
    rw [record.resume] at idle
    unfold ExecuteCall.resume
    split
    · rename_i paused
      rw [paused] at idle
      exact absurd rfl idle
    · rfl

theorem executor_step
    {state next : ExecutorCallbacks ρ} {event : ExecutorEvent ρ}
    (registered : state.Registered) (stepped : state.step event = some next) :
    state.executor.step event = some next.executor := by
  cases event with
  | execute retryOnError =>
      cases stepped
      rfl
  | set resource =>
      cases stepped
      rfl
  | resumeAll =>
      cases stepped
      refine congrArg some ?_
      unfold Executor.resumeAll ExecutorCallbacks.resumeAll
      congr 1
      refine List.ext_getElem? fun index => ?_
      rw [List.getElem?_map, List.getElem?_mapIdx]
      cases present : state.executor.calls[index]? with
      | none => rfl
      | some call =>
          exact congrArg some
            (resume_eq (registered.calls index call present)).symm
  | cancelAll error =>
      cases stepped
      refine congrArg some ?_
      unfold Executor.cancelAll ExecutorCallbacks.cancelAll
      cases active : state.executor.cancellation with
      | some earlier => rfl
      | none =>
          dsimp only
          congr 1
          refine List.ext_getElem? fun index => ?_
          rw [List.getElem?_map, List.getElem?_mapIdx]
          cases present : state.executor.calls[index]? with
          | none => rfl
          | some call =>
              exact congrArg some
                (cancel_eq (registered.calls index call present) active error).symm
  | call index event =>
      change state.stepCall index event = some next at stepped
      unfold ExecutorCallbacks.stepCall at stepped
      split at stepped
      · cases stepped
      · rename_i call present
        obtain ⟨call', taken, rfl⟩ := Option.map_eq_some_iff.mp stepped
        simp only [Executor.step, present, taken, Option.map_some]

/-! ## Cancellation is final -/

/-- The executor is cancelled with `error`, and its calls show the given
histories, to which later calls add nothing but their rejection. -/
structure Final
    (error : CommandError) (histories : List (List (CallObservation ρ)))
    (state : ExecutorCallbacks ρ) : Prop where
  registered : state.Registered
  cancellation : state.executor.cancellation = some error
  earlier : histories.length ≤ state.executor.calls.length
  shown :
    ∀ (index : ℕ) (call : ExecuteCall ρ),
      state.executor.calls[index]? = some call →
        call.history =
          histories[index]?.getD [CallObservation.settled (.rejected error)]

theorem Final.mapped
    {error : CommandError} {histories : List (List (CallObservation ρ))}
    {state next : ExecutorCallbacks ρ} (final : Final error histories state)
    {operation : ExecuteCall ρ → ExecuteCall ρ}
    (registered : next.Registered)
    (cancellation :
      next.executor.cancellation = state.executor.cancellation)
    (calls : next.executor.calls = state.executor.calls.map operation)
    (keeps : ∀ call : ExecuteCall ρ, (operation call).history = call.history) :
    Final error histories next := by
  refine ⟨registered, cancellation.trans final.cancellation, ?_, ?_⟩
  · rw [calls, List.length_map]
    exact final.earlier
  · intro index call' found
    rw [calls, List.getElem?_map] at found
    obtain ⟨call, present, rfl⟩ := Option.map_eq_some_iff.mp found
    rw [keeps]
    exact final.shown index call present

/-- The rules of the executor let one call go on. -/
theorem calls_of_stepCall
    {state next : ExecutorCallbacks ρ} {index : ℕ} {event : CallEvent}
    (stepped : state.stepCall index event = some next) :
    ∃ call call' : ExecuteCall ρ,
      state.executor.calls[index]? = some call ∧
        ExecuteCall.Steps state.executor.view call event call' ∧
        next.executor =
          { state.executor with
            calls := state.executor.calls.set index call' } := by
  unfold ExecutorCallbacks.stepCall at stepped
  split at stepped
  · cases stepped
  · rename_i call present
    obtain ⟨call', taken, rfl⟩ := Option.map_eq_some_iff.mp stepped
    exact ⟨call, call', present, ExecuteCall.steps_of_step taken, rfl⟩

theorem final_preserved
    (kind : ExecutorKind) (commandTimeoutMs : JsNumber) (error : CommandError)
    (histories : List (List (CallObservation ρ))) :
    (machine kind commandTimeoutMs).Preserved (Final error histories) := by
  intro state event next final stepped
  have registered :=
    registered_preserved kind commandTimeoutMs state event next final.registered
      stepped
  have executor := executor_step final.registered stepped
  change state.step event = some next at stepped
  have cancelled : state.executor.view.cancellation ≠ none := by
    change state.executor.cancellation ≠ none
    rw [final.cancellation]
    exact nofun
  cases event with
  | execute retryOnError =>
      cases stepped
      refine ⟨registered, final.cancellation, ?_, ?_⟩
      · exact Nat.le_trans final.earlier (by simp [ExecutorCallbacks.execute])
      · intro index call found
        change (state.executor.calls ++ [_])[index]? = some call at found
        by_cases before : index < state.executor.calls.length
        · rw [List.getElem?_append_left before] at found
          exact final.shown index call found
        · have last : index = state.executor.calls.length := by
            have inRange := (List.getElem?_eq_some_iff.mp found).1
            simp only [List.length_append, List.length_singleton] at inRange
            omega
          subst last
          rw [List.getElem?_concat_length] at found
          cases found
          rw [List.getElem?_eq_none final.earlier]
          unfold ExecuteCall.execute
          simp only [Executor.view, final.cancellation]
          rfl
  | set resource =>
      cases stepped
      cases resource with
      | none =>
          exact ⟨registered, final.cancellation, final.earlier, final.shown⟩
      | some resource =>
          exact final.mapped registered rfl rfl
            fun call => (becameAvailable_frame resource call).2.2
  | resumeAll =>
      have resumed := Option.some.inj executor
      exact final.mapped registered (congrArg _ resumed).symm
        (congrArg Executor.calls resumed).symm
        fun call => (Executor.resume_keeps call).1
  | cancelAll later =>
      cases stepped
      have ignored : state.cancelAll later = state := by
        unfold ExecutorCallbacks.cancelAll
        rw [final.cancellation]
      rw [ignored]
      exact final
  | call index event =>
      obtain ⟨call, call', present, steps, same⟩ := calls_of_stepCall stepped
      obtain ⟨inRange, _⟩ := List.getElem?_eq_some_iff.mp present
      have settled :=
        ((final.registered.calls index call present).cancelled cancelled).1
      refine ⟨registered, ?_, ?_, ?_⟩
      · rw [same]
        exact final.cancellation
      · rw [same]
        change _ ≤ (state.executor.calls.set index call').length
        rw [List.length_set]
        exact final.earlier
      · intro other otherCall found
        rw [same] at found
        change (state.executor.calls.set index call')[other]? = some otherCall
          at found
        rcases set_cases found with ⟨here, itself⟩ | ⟨_, earlier⟩
        · subst here itself
          rw [history_of_cancelled steps cancelled settled]
          exact final.shown other call present
        · exact final.shown other otherCall earlier

/-- After `cancelAll` every call shows what it had shown before, followed by its
rejection if it had not settled; calls that are made later are rejected with the
same error; and both sets are empty.  So nothing is invoked or emitted any more. -/
theorem cancelAll_final
    (kind : ExecutorKind) (commandTimeoutMs : JsNumber)
    (before after : List (ExecutorEvent ρ)) (error : CommandError)
    (state final : ExecutorCallbacks ρ)
    (execution :
      (machine kind commandTimeoutMs).run (create kind commandTimeoutMs)
        before = some state)
    (active : state.executor.cancellation = none)
    (continuation :
      (machine kind commandTimeoutMs).run (state.cancelAll error) after =
        some final) :
    (∀ (index : ℕ) (call : ExecuteCall ρ),
        state.executor.calls[index]? = some call →
          ∃ call' : ExecuteCall ρ, final.executor.calls[index]? = some call' ∧
            call'.history =
              if call.isSettled then call.history
              else CallObservation.settled (.rejected error) :: call.history) ∧
      (∀ (index : ℕ) (call' : ExecuteCall ρ),
        state.executor.calls.length ≤ index →
          final.executor.calls[index]? = some call' →
            call'.history = [CallObservation.settled (.rejected error)]) ∧
      final.cancelCallbacks = [] ∧ final.resumeCallbacks = [] := by
  have registered : state.Registered :=
    Machine.run_invariant (registered_preserved kind commandTimeoutMs)
      (registered_create kind commandTimeoutMs) execution
  have cancellation :
      (state.cancelAll error).executor.cancellation = some error := by
    unfold ExecutorCallbacks.cancelAll
    rw [active]
  have length :
      (state.cancelAll error).executor.calls.length =
        state.executor.calls.length := by
    unfold ExecutorCallbacks.cancelAll
    rw [active]
    exact List.length_mapIdx
  have initially :
      Final error
        ((state.cancelAll error).executor.calls.map ExecuteCall.history)
        (state.cancelAll error) := by
    refine ⟨registered.cancelAll error, cancellation, ?_, ?_⟩
    · rw [List.length_map]
    · intro index call found
      rw [List.getElem?_map, found]
      rfl
  have finished :=
    Machine.run_invariant
      (final_preserved kind commandTimeoutMs error _) initially continuation
  refine ⟨?_, ?_, finished.registered.empty ?_⟩
  · intro index call present
    obtain ⟨cancelled, found, _, _, history⟩ :=
      cancelAll_calls registered active error present
    have inRange : index < final.executor.calls.length := by
      refine Nat.lt_of_lt_of_le ?_ finished.earlier
      rw [List.length_map]
      exact (List.getElem?_eq_some_iff.mp found).1
    refine ⟨_, List.getElem?_eq_getElem inRange, ?_⟩
    rw [finished.shown index _ (List.getElem?_eq_getElem inRange),
      List.getElem?_map, found]
    exact history
  · intro index call' later found
    rw [finished.shown index call' found, List.getElem?_eq_none]
    · rfl
    · rw [List.length_map, length]
      exact later
  · rw [finished.cancellation]
    exact nofun

/-- Three calls: one has failed with its connection and is paused, one has been
carried out, one waits for a connection. -/
def callsInProgress : List (ExecutorEvent ℕ) :=
  [.set (some 0), .execute true, .execute true, .call 0 .continued,
    .call 1 .continued, .call 1 (.commandSettled .fulfilled),
    .call 0 (.commandSettled (.rejected .connectionClosed)), .call 0 .caught,
    .set none, .execute false]

/-- A connection arrives after the cancellation, and two more calls are made. -/
def afterCancellation : List (ExecutorEvent ℕ) :=
  [.call 1 .finalized, .execute true, .set (some 1), .call 2 .continued,
    .call 2 .caught, .resumeAll, .cancelAll .noError, .execute false,
    .call 0 .finalized]

theorem cancelAll_final_inProgress :
    ∃ state final : ExecutorCallbacks ℕ,
      (machine .connection (.ofNat 60000)).run
          (create .connection (.ofNat 60000)) callsInProgress = some state ∧
        (machine .connection (.ofNat 60000)).run
          (state.cancelAll .connectionClosed) afterCancellation = some final ∧
        final.cancelCallbacks = [] ∧ final.resumeCallbacks = [] :=
  ⟨_, _, rfl, rfl,
    (cancelAll_final .connection (.ofNat 60000) callsInProgress
      afterCancellation .connectionClosed _ _ rfl rfl rfl).2.2⟩

end ExecutorCallbacks

end Amq.Core
