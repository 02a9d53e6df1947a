import Amq.Core.ExecuteCall

/-!
# What an executor does to its calls

Between its own steps a call is reached by its executor and by the container: the
callbacks of `cancelAll` and of `resumeAll`, and the resource that
`getWhenAvailable` has waited for.
-/

namespace Amq.Core

inductive CallEffect (ρ : Type) where
  /-- `cancelAll(new ConnectionClosedError())`. -/
  | cancelled
  /-- `set(resource)` of the container. -/
  | becameAvailable (resource : ρ)
  /-- `resumeAll()`. -/
  | resumed
  deriving DecidableEq

namespace ExecuteCall

variable {ρ : Type}

def react (call : ExecuteCall ρ) : CallEffect ρ → ExecuteCall ρ
  | .cancelled => call.cancel .connectionClosed
  | .becameAvailable resource => call.becameAvailable resource
  | .resumed => call.resume

/-- The effects of one synchronous piece of code, in their order. -/
def reactAll (call : ExecuteCall ρ) (effects : List (CallEffect ρ)) :
    ExecuteCall ρ :=
  effects.foldl react call

/-! ## Effects -/

/-- How effects move a call. -/
inductive Follows (effects : List (CallEffect ρ)) :
    CallPhase ρ → CallPhase ρ → Prop where
  | kept (phase : CallPhase ρ)
      (waiting :
        phase = .waiting → ∀ resource, .becameAvailable resource ∉ effects)
      (registered :
        phase = .paused true → .resumed ∉ effects ∧ .cancelled ∉ effects) :
      Follows effects phase phase
  | received (resource : ρ) (available : .becameAvailable resource ∈ effects) :
      Follows effects .waiting (.received resource)
  | resumed (resuming : .resumed ∈ effects) :
      Follows effects (.paused true) .resumed
  | unregistered (cancelling : .cancelled ∈ effects) :
      Follows effects (.paused true) (.paused false)

/-- What effects make of a call. -/
structure Reaction (effects : List (CallEffect ρ)) (call call' : ExecuteCall ρ) :
    Prop where
  retryOnError : call'.retryOnError = call.retryOnError
  hasTimedOut : call'.hasTimedOut = call.hasTimedOut
  isFinalized : call'.isFinalized = call.isFinalized
  phase : Follows effects call.phase call'.phase
  grown : ∀ entry ∈ call.history, entry ∈ call'.history
  entries :
    ∀ entry ∈ call'.history, entry ∈ call.history ∨
      (.cancelled ∈ effects ∧ entry = .settled (.rejected .connectionClosed) ∧
        call.isSettled = false)
  settles :
    .cancelled ∈ effects → call.isFinalized = false → call'.isSettled = true

theorem isSettled_of_grown
    {call call' : ExecuteCall ρ}
    (grown : ∀ entry ∈ call.history, entry ∈ call'.history)
    (settled : call.isSettled = true) :
    call'.isSettled = true := by
  obtain ⟨result, member⟩ := (isSettled_iff call).mp settled
  exact (isSettled_iff call').mpr ⟨result, grown _ member⟩

theorem reaction_cancel (call : ExecuteCall ρ) :
    Reaction [.cancelled] call (call.cancel .connectionClosed) := by
  have phase : (call.cancel .connectionClosed).phase = call.phase.unregister := rfl
  have follows : Follows [.cancelled] call.phase call.phase.unregister := by
    cases call.phase with
    | paused isRegistered =>
        cases isRegistered with
        | false => exact .kept _ nofun nofun
        | true => exact .unregistered List.mem_cons_self
    | _ => exact .kept _ (fun _ _ => by simp) nofun
  unfold cancel at phase ⊢
  dsimp only at phase ⊢
  by_cases finalized : call.isFinalized = true
  · rw [if_pos finalized]
    refine ⟨rfl, rfl, rfl, follows, fun _ member => member,
      fun _ member => Or.inl member, ?_⟩
    intro _ pending
    cases finalized.symm.trans pending
  · rw [if_neg finalized]
    have final :
        (call.settle (.rejected .connectionClosed)).isFinalized =
          call.isFinalized := by
      unfold settle
      split <;> rfl
    refine ⟨settle_retryOnError call _, settle_hasTimedOut call _, final, follows,
      ?_, ?_, fun _ _ => settle_isSettled call _⟩
    · intro entry member
      rcases settle_history call (.rejected .connectionClosed) with
        ⟨same, _⟩ | pushed
      · exact same ▸ member
      · exact pushed ▸ List.mem_cons_of_mem _ member
    · intro entry member
      change entry ∈ (call.settle (.rejected .connectionClosed)).history at member
      unfold settle at member
      by_cases settled : call.isSettled = true
      · rw [if_pos settled] at member
        exact Or.inl member
      · rw [if_neg settled] at member
        rcases List.mem_cons.mp member with added | earlier
        · exact Or.inr
            ⟨List.mem_cons_self, added, Bool.eq_false_iff.mpr settled⟩
        · exact Or.inl earlier

/-- An effect that only moves the call. -/
theorem reaction_of_phase
    {effects : List (CallEffect ρ)} {call : ExecuteCall ρ} (phase : CallPhase ρ)
    (quiet : .cancelled ∉ effects) (follows : Follows effects call.phase phase) :
    Reaction effects call { call with phase := phase } :=
  ⟨rfl, rfl, rfl, follows, fun _ member => member, fun _ member => Or.inl member,
    fun cancelling => absurd cancelling quiet⟩

theorem reaction_becameAvailable (call : ExecuteCall ρ) (resource : ρ) :
    Reaction [.becameAvailable resource] call (call.becameAvailable resource) := by
  unfold becameAvailable
  split
  case h_1 waiting =>
    apply reaction_of_phase _ (by simp)
    rw [waiting]
    exact .received resource List.mem_cons_self
  case h_2 other =>
    apply reaction_of_phase call.phase (by simp)
    exact .kept _ (fun waiting => absurd waiting other) (by simp)

theorem reaction_resume (call : ExecuteCall ρ) :
    Reaction [.resumed] call call.resume := by
  unfold resume
  split
  case h_1 paused =>
    apply reaction_of_phase _ (by simp)
    rw [paused]
    exact .resumed List.mem_cons_self
  case h_2 other =>
    apply reaction_of_phase call.phase (by simp)
    exact .kept _ (by simp) (fun paused => absurd paused other)

theorem reaction_react (call : ExecuteCall ρ) (effect : CallEffect ρ) :
    Reaction [effect] call (call.react effect) := by
  cases effect with
  | cancelled => exact reaction_cancel call
  | becameAvailable resource => exact reaction_becameAvailable call resource
  | resumed => exact reaction_resume call

theorem Follows.trans
    {effects later : List (CallEffect ρ)} {first second third : CallPhase ρ}
    (follows : Follows effects first second)
    (further : Follows later second third) :
    Follows (effects ++ later) first third := by
  cases follows with
  | kept _ waiting registered =>
      cases further with
      | kept _ waiting' registered' =>
          refine .kept _ ?_ ?_
          · intro isWaiting resource member
            rcases List.mem_append.mp member with before | after
            · exact waiting isWaiting resource before
            · exact waiting' isWaiting resource after
          · intro isRegistered
            rw [List.mem_append, List.mem_append, not_or, not_or]
            exact
              ⟨⟨(registered isRegistered).1, (registered' isRegistered).1⟩,
                (registered isRegistered).2, (registered' isRegistered).2⟩
      | received resource available =>
          exact .received resource (List.mem_append_right _ available)
      | resumed resuming => exact .resumed (List.mem_append_right _ resuming)
      | unregistered cancelling =>
          exact .unregistered (List.mem_append_right _ cancelling)
  | received resource available =>
      cases further with
      | kept => exact .received resource (List.mem_append_left _ available)
  | resumed resuming =>
      cases further with
      | kept => exact .resumed (List.mem_append_left _ resuming)
  | unregistered cancelling =>
      cases further with
      | kept => exact .unregistered (List.mem_append_left _ cancelling)

theorem Reaction.trans
    {effects later : List (CallEffect ρ)} {first second third : ExecuteCall ρ}
    (reaction : Reaction effects first second)
    (further : Reaction later second third) :
    Reaction (effects ++ later) first third where
  retryOnError := further.retryOnError.trans reaction.retryOnError
  hasTimedOut := further.hasTimedOut.trans reaction.hasTimedOut
  isFinalized := further.isFinalized.trans reaction.isFinalized
  phase := reaction.phase.trans further.phase
  grown := fun entry member =>
    further.grown entry (reaction.grown entry member)
  entries := by
    intro entry member
    rcases further.entries entry member with before | ⟨cancelling, same, pending⟩
    · rcases reaction.entries entry before with earlier | ⟨cancelling, same⟩
      · exact Or.inl earlier
      · exact Or.inr ⟨List.mem_append_left _ cancelling, same⟩
    · refine Or.inr ⟨List.mem_append_right _ cancelling, same, ?_⟩
      apply Bool.eq_false_iff.mpr
      intro settled
      cases pending.symm.trans (isSettled_of_grown reaction.grown settled)
  settles := by
    intro cancelling pending
    rcases List.mem_append.mp cancelling with before | after
    · exact isSettled_of_grown further.grown (reaction.settles before pending)
    · exact further.settles after (reaction.isFinalized.trans pending)

theorem reaction_reactAll (call : ExecuteCall ρ) (effects : List (CallEffect ρ)) :
    Reaction effects call (call.reactAll effects) := by
  induction effects generalizing call with
  | nil => exact reaction_of_phase call.phase (by simp) (.kept _ (by simp) (by simp))
  | cons effect rest inductionHypothesis =>
      exact (reaction_react call effect).trans (inductionHypothesis (call.react effect))

/-! ## The loop of a call -/

/-- How a step of a call moves its loop. -/
inductive PhaseMoves (view : ExecutorView ρ) (retryOnError : Bool)
    (event : CallEvent) : CallPhase ρ → CallPhase ρ → Prop where
  | kept (phase : CallPhase ρ) : PhaseMoves view retryOnError event phase phase
  | unregistered (isRegistered : Bool) :
      PhaseMoves view retryOnError event (.paused isRegistered) (.paused false)
  | withdrawn {resource : ρ} {error : CommandError}
      (cancelled : view.cancellation = some error) :
      PhaseMoves view retryOnError event (.received resource) (.failed error)
  | invoked {resource : ρ} (continued : event = .continued)
      (active : view.cancellation = none) :
      PhaseMoves view retryOnError event (.received resource) (.running resource)
  | completed {resource : ρ} :
      PhaseMoves view retryOnError event (.running resource) .ended
  | commandFailed {resource : ρ} {error : CommandError}
      (rejected : event = .commandSettled (.rejected error)) :
      PhaseMoves view retryOnError event (.running resource)
        (.failed (view.kind.rethrow error))
  | cancelled {error cancellationError : CommandError}
      (cancelled : view.cancellation = some cancellationError) :
      PhaseMoves view retryOnError event (.failed error)
        (.throwing cancellationError)
  | paused (caught : event = .caught) (active : view.cancellation = none)
      (retry : retryOnError = true) :
      PhaseMoves view retryOnError event (.failed view.kind.unavailableError)
        (.paused true)
  | rethrown {error : CommandError}
      (final : ¬ (retryOnError = true ∧ error = view.kind.unavailableError)) :
      PhaseMoves view retryOnError event (.failed error) (.throwing error)
  | thrown {error : CommandError} :
      PhaseMoves view retryOnError event (.throwing error) .ended
  | intervalStarted : PhaseMoves view retryOnError event .resumed .sleeping
  | waited : PhaseMoves view retryOnError event .sleeping .waiting
  | received {resource : ρ} (available : view.available = some resource) :
      PhaseMoves view retryOnError event .sleeping (.received resource)
  | givenUp (error : CommandError) (slept : event = .slept) :
      PhaseMoves view retryOnError event .sleeping (.throwing error)

theorem Steps.phaseMoves
    {view : ExecutorView ρ} {call call' : ExecuteCall ρ} {event : CallEvent}
    (steps : Steps view call event call') :
    PhaseMoves view call.retryOnError event call.phase call'.phase := by
  cases steps with
  | withdrawn before cancelled =>
      rw [before]
      exact .withdrawn cancelled
  | invoked before active =>
      rw [before]
      exact .invoked rfl active
  | completed before =>
      rw [before]
      exact .completed
  | commandFailed before =>
      rw [before]
      exact .commandFailed rfl
  | @caught error before =>
      rw [before]
      unfold catchError
      cases cancellation : view.cancellation with
      | some cancellationError => exact .cancelled cancellation
      | none =>
          dsimp only
          by_cases retried :
            call.retryOnError = true ∧ error = view.kind.unavailableError
          · rw [if_pos retried, retried.2]
            exact .paused rfl cancellation retried.1
          · rw [if_neg retried]
            split
            · exact .rethrown retried
            · exact .rethrown retried
  | thrown before =>
      rw [before]
      exact .thrown
  | intervalStarted before =>
      rw [before]
      exact .intervalStarted
  | retried before =>
      rw [before]
      unfold executeOnce
      split
      case h_1 => exact .waited
      case h_2 resource available => exact .received available
  | givenUp before =>
      rw [before]
      exact .givenUp _ rfl
  | timedOut pending first =>
      change
        PhaseMoves view call.retryOnError .timerFired call.phase
          (call.settle _).phase
      rw [settle_phase]
      exact .kept call.phase
  | finalized settled =>
      change
        PhaseMoves view call.retryOnError .finalized call.phase
          call.phase.unregister
      cases call.phase with
      | paused isRegistered => exact .unregistered isRegistered
      | _ => exact .kept _

/-- What a step of a call adds to its history. -/
inductive Observes (view : ExecutorView ρ) (call : ExecuteCall ρ) :
    CallObservation ρ → Prop where
  | invoked {resource : ρ} (received : call.phase = .received resource)
      (active : view.cancellation = none) :
      Observes view call (.invoked resource)
  | emitted (emission : ExecutorEmission) : Observes view call (.emitted emission)
  | fulfilled {resource : ρ} (running : call.phase = .running resource) :
      Observes view call (.settled .fulfilled)
  | rejected {error : CommandError} (throwing : call.phase = .throwing error)
      (pending : call.isSettled = false) :
      Observes view call (.settled (.rejected error))
  | timedOut :
      Observes view call
        (.settled (.rejected (.commandTimedOut view.commandTimeoutMs)))

/-- A settling adds its result, unless the call has settled before. -/
theorem mem_of_settle
    {call : ExecuteCall ρ} {result : CommandResult} {entry : CallObservation ρ}
    (member : entry ∈ (call.settle result).history) :
    entry ∈ call.history ∨
      (entry = .settled result ∧ call.isSettled = false) := by
  unfold settle at member
  by_cases settled : call.isSettled = true
  · rw [if_pos settled] at member
    exact Or.inl member
  · rw [if_neg settled] at member
    rcases List.mem_cons.mp member with same | before
    · exact Or.inr ⟨same, Bool.eq_false_iff.mpr settled⟩
    · exact Or.inl before

theorem Steps.entries
    {view : ExecutorView ρ} {call call' : ExecuteCall ρ} {event : CallEvent}
    {entry : CallObservation ρ} (steps : Steps view call event call')
    (member : entry ∈ call'.history) :
    entry ∈ call.history ∨ Observes view call entry := by
  cases steps with
  | withdrawn before cancelled => exact Or.inl member
  | invoked before active =>
      rcases List.mem_cons.mp member with rfl | earlier
      · exact Or.inr (.invoked before active)
      · exact Or.inl earlier
  | completed before =>
      rcases mem_of_settle member with earlier | ⟨rfl, _⟩
      · exact Or.inl earlier
      · exact Or.inr (.fulfilled before)
  | commandFailed before => exact Or.inl member
  | @caught error before =>
      obtain ⟨phase, history, same, grown⟩ := catchError_frame view call error
      rw [same] at member
      change entry ∈ history at member
      rcases grown with unchanged | ⟨emission, pushed⟩
      · rw [unchanged] at member
        exact Or.inl member
      · rw [pushed] at member
        rcases List.mem_cons.mp member with rfl | earlier
        · exact Or.inr (.emitted emission)
        · exact Or.inl earlier
  | thrown before =>
      rcases mem_of_settle member with earlier | ⟨rfl, pending⟩
      · exact Or.inl earlier
      · exact Or.inr (.rejected before pending)
  | intervalStarted before => exact Or.inl member
  | retried before =>
      rw [executeOnce_history] at member
      exact Or.inl member
  | givenUp before => exact Or.inl member
  | timedOut pending first =>
      rcases mem_of_settle member with earlier | ⟨rfl, _⟩
      · exact Or.inl earlier
      · exact Or.inr .timedOut
  | finalized settled => exact Or.inl member

/-! ## Settled calls -/

/-- A call that has timed out or is finalized has settled. -/
structure Proper (call : ExecuteCall ρ) : Prop where
  finalized : call.isFinalized = true → call.isSettled = true
  timedOut : call.hasTimedOut = true → call.isSettled = true

theorem execute_retryOnError (view : ExecutorView ρ) (retryOnError : Bool) :
    (execute view retryOnError).retryOnError = retryOnError := by
  have begins := execute_begins view retryOnError
  generalize execute view retryOnError = call at begins ⊢
  cases begins with
  | refused cancelled => rfl
  | waits active unavailable => rfl
  | receives active available => rfl

theorem proper_execute (view : ExecutorView ρ) (retryOnError : Bool) :
    (execute view retryOnError).Proper := by
  have begins := execute_begins view retryOnError
  generalize execute view retryOnError = call at begins ⊢
  cases begins with
  | refused cancelled => exact ⟨fun _ => rfl, nofun⟩
  | waits active unavailable => exact ⟨nofun, nofun⟩
  | receives active available => exact ⟨nofun, nofun⟩

theorem settle_grown (call : ExecuteCall ρ) (result : CommandResult) :
    ∀ entry ∈ call.history, entry ∈ (call.settle result).history := by
  intro entry member
  rcases settle_history call result with ⟨same, _⟩ | pushed
  · exact same ▸ member
  · exact pushed ▸ List.mem_cons_of_mem _ member

theorem settle_isFinalized (call : ExecuteCall ρ) (result : CommandResult) :
    (call.settle result).isFinalized = call.isFinalized := by
  unfold settle
  split <;> rfl

/-- The history only grows. -/
theorem Steps.grown
    {view : ExecutorView ρ} {call call' : ExecuteCall ρ} {event : CallEvent}
    (steps : Steps view call event call') :
    ∀ entry ∈ call.history, entry ∈ call'.history := by
  intro entry member
  cases steps with
  | invoked before active => exact List.mem_cons_of_mem _ member
  | completed before => exact settle_grown call _ entry member
  | caught before =>
      obtain ⟨phase, history, same, grown⟩ := catchError_frame view call _
      rw [same]
      rcases grown with unchanged | ⟨emission, pushed⟩
      · exact unchanged ▸ member
      · exact pushed ▸ List.mem_cons_of_mem _ member
  | thrown before => exact settle_grown call _ entry member
  | retried before =>
      rw [executeOnce_history]
      exact member
  | timedOut pending first => exact settle_grown call _ entry member
  | withdrawn before cancelled => exact member
  | commandFailed before => exact member
  | intervalStarted before => exact member
  | givenUp before => exact member
  | finalized settled => exact member

/-- The options of a call do not change, and its `finally` callback runs once it
has settled. -/
theorem Steps.flags
    {view : ExecutorView ρ} {call call' : ExecuteCall ρ} {event : CallEvent}
    (steps : Steps view call event call') :
    call'.retryOnError = call.retryOnError ∧
      (call'.isFinalized = true →
        call.isFinalized = true ∨ call.isSettled = true) ∧
      (call'.hasTimedOut = true →
        call.hasTimedOut = true ∨ call'.isSettled = true) := by
  cases steps with
  | completed before =>
      exact
        ⟨settle_retryOnError call _,
          fun final => Or.inl ((settle_isFinalized call _).symm.trans final),
          fun late => Or.inl ((settle_hasTimedOut call _).symm.trans late)⟩
  | caught before =>
      obtain ⟨phase, history, same, grown⟩ := catchError_frame view call _
      rw [same]
      exact ⟨rfl, Or.inl, Or.inl⟩
  | thrown before =>
      exact
        ⟨settle_retryOnError call _,
          fun final => Or.inl ((settle_isFinalized call _).symm.trans final),
          fun late => Or.inl ((settle_hasTimedOut call _).symm.trans late)⟩
  | retried before =>
      cases view.available with
      | none => exact ⟨rfl, Or.inl, Or.inl⟩
      | some resource => exact ⟨rfl, Or.inl, Or.inl⟩
  | timedOut pending first =>
      exact
        ⟨settle_retryOnError call _,
          fun final => Or.inl ((settle_isFinalized call _).symm.trans final),
          fun _ => Or.inr (settle_isSettled call _)⟩
  | finalized settled => exact ⟨rfl, fun _ => Or.inr settled, Or.inl⟩
  | withdrawn before cancelled => exact ⟨rfl, Or.inl, Or.inl⟩
  | invoked before active => exact ⟨rfl, Or.inl, Or.inl⟩
  | commandFailed before => exact ⟨rfl, Or.inl, Or.inl⟩
  | intervalStarted before => exact ⟨rfl, Or.inl, Or.inl⟩
  | givenUp before => exact ⟨rfl, Or.inl, Or.inl⟩

theorem Steps.still_timedOut
    {view : ExecutorView ρ} {call call' : ExecuteCall ρ} {event : CallEvent}
    (steps : Steps view call event call') (late : call.hasTimedOut = true) :
    call'.hasTimedOut = true := by
  cases steps with
  | completed before => exact (settle_hasTimedOut call _).trans late
  | caught before =>
      obtain ⟨phase, history, same, _⟩ := catchError_frame view call _
      rw [same]
      exact late
  | thrown before => exact (settle_hasTimedOut call _).trans late
  | retried before =>
      cases view.available with
      | none => exact late
      | some resource => exact late
  | timedOut pending first => rfl
  | _ => exact late

theorem Proper.steps
    {view : ExecutorView ρ} {call call' : ExecuteCall ρ} {event : CallEvent}
    (proper : call.Proper) (steps : Steps view call event call') :
    call'.Proper := by
  obtain ⟨_, finalized, timedOut⟩ := steps.flags
  constructor
  · intro final
    rcases finalized final with before | settled
    · exact isSettled_of_grown steps.grown (proper.finalized before)
    · exact isSettled_of_grown steps.grown settled
  · intro late
    rcases timedOut late with before | settled
    · exact isSettled_of_grown steps.grown (proper.timedOut before)
    · exact settled

theorem Proper.react
    {effects : List (CallEffect ρ)} {call call' : ExecuteCall ρ}
    (proper : call.Proper) (reaction : Reaction effects call call') :
    call'.Proper := by
  constructor
  · intro final
    exact isSettled_of_grown reaction.grown
      (proper.finalized (reaction.isFinalized.symm.trans final))
  · intro late
    exact isSettled_of_grown reaction.grown
      (proper.timedOut (reaction.hasTimedOut.symm.trans late))

/-- A call that is still registered was neither resumed nor cancelled. -/
theorem Reaction.registered
    {effects : List (CallEffect ρ)} {call call' : ExecuteCall ρ}
    (reaction : Reaction effects call call')
    (registered : call'.phase = .paused true) :
    call.phase = .paused true ∧ .resumed ∉ effects ∧ .cancelled ∉ effects := by
  have phase := reaction.phase
  rw [registered] at phase
  generalize earlier : call.phase = previous at phase
  cases phase with
  | kept _ waiting still => exact ⟨rfl, still rfl⟩

/-- After `cancelAll` every call has settled. -/
theorem Proper.settled_of_cancelled
    {effects : List (CallEffect ρ)} {call call' : ExecuteCall ρ}
    (proper : call.Proper) (reaction : Reaction effects call call')
    (cancelling : .cancelled ∈ effects) :
    call'.isSettled = true := by
  by_cases final : call.isFinalized = true
  · exact isSettled_of_grown reaction.grown (proper.finalized final)
  · exact reaction.settles cancelling (Bool.eq_false_iff.mpr final)

/-- A call of an executor, which is cancelled or not. -/
structure Tidy (cancelled : Prop) (call : ExecuteCall ρ) : Prop where
  proper : call.Proper
  settled : cancelled → call.isSettled = true
  unregistered : cancelled → call.phase ≠ .paused true

theorem tidy_execute
    {cancelled : Prop} (view : ExecutorView ρ) (retryOnError : Bool)
    (seen : cancelled → view.cancellation ≠ none) :
    (execute view retryOnError).Tidy cancelled := by
  have proper := proper_execute view retryOnError
  have begins := execute_begins view retryOnError
  generalize execute view retryOnError = call at proper begins ⊢
  cases begins with
  | refused cancelled => exact ⟨proper, fun _ => rfl, nofun⟩
  | waits active unavailable =>
      exact ⟨proper, fun now => absurd active (seen now), nofun⟩
  | receives active available =>
      exact ⟨proper, fun now => absurd active (seen now), nofun⟩

/-- A call registers its callback in the `catch` clause only. -/
theorem Steps.registered
    {view : ExecutorView ρ} {call call' : ExecuteCall ρ} {event : CallEvent}
    (steps : Steps view call event call') (registered : call'.phase = .paused true) :
    call.phase = .paused true ∨
      (event = .caught ∧ view.cancellation = none ∧ call.retryOnError = true ∧
        call.phase = .failed view.kind.unavailableError) := by
  have phase := steps.phaseMoves
  rw [registered] at phase
  generalize call.phase = earlier at phase ⊢
  cases phase with
  | kept => exact Or.inl rfl
  | paused caught active retry => exact Or.inr ⟨caught, active, retry, rfl⟩

theorem Tidy.steps
    {cancelled : Prop} {view : ExecutorView ρ} {call call' : ExecuteCall ρ}
    {event : CallEvent} (tidy : call.Tidy cancelled)
    (steps : Steps view call event call')
    (seen : cancelled → view.cancellation ≠ none) :
    call'.Tidy cancelled := by
  refine ⟨tidy.proper.steps steps, ?_, ?_⟩
  · intro now
    exact isSettled_of_grown steps.grown (tidy.settled now)
  · intro now registered
    rcases steps.registered registered with before | ⟨_, active, _⟩
    · exact tidy.unregistered now before
    · exact seen now active

theorem Tidy.react
    {before after : Prop} {effects : List (CallEffect ρ)}
    {call call' : ExecuteCall ρ} (tidy : call.Tidy before)
    (reaction : Reaction effects call call')
    (cancelling : after → before ∨ .cancelled ∈ effects) :
    call'.Tidy after := by
  refine ⟨tidy.proper.react reaction, ?_, ?_⟩
  · intro now
    rcases cancelling now with earlier | member
    · exact isSettled_of_grown reaction.grown (tidy.settled earlier)
    · exact tidy.proper.settled_of_cancelled reaction member
  · intro now registered
    obtain ⟨before, _, uncancelled⟩ := reaction.registered registered
    rcases cancelling now with earlier | member
    · exact tidy.unregistered earlier before
    · exact uncancelled member

/-! ## Invocations -/

/-- A call only begins to run when it goes on with its resource. -/
theorem Steps.running
    {view : ExecutorView ρ} {call call' : ExecuteCall ρ} {event : CallEvent}
    {resource : ρ} (steps : Steps view call event call')
    (running : call'.phase = .running resource) :
    call.phase = .running resource ∨
      (event = .continued ∧ call.phase = .received resource ∧
        view.cancellation = none) := by
  have phase := steps.phaseMoves
  rw [running] at phase
  generalize call.phase = earlier at phase ⊢
  cases phase with
  | kept => exact Or.inl rfl
  | invoked continued active => exact Or.inr ⟨continued, rfl, active⟩

/-- How `executeOnce` comes to be rejected. -/
theorem Steps.failed
    {view : ExecutorView ρ} {call call' : ExecuteCall ρ} {event : CallEvent}
    {error : CommandError} (steps : Steps view call event call')
    (failed : call'.phase = .failed error) :
    call.phase = .failed error ∨ view.cancellation = some error ∨
      ∃ resource thrown, event = .commandSettled (.rejected thrown) ∧
        call.phase = .running resource ∧ error = view.kind.rethrow thrown := by
  have phase := steps.phaseMoves
  rw [failed] at phase
  generalize call.phase = earlier at phase ⊢
  cases phase with
  | kept => exact Or.inl rfl
  | withdrawn cancelled => exact Or.inr (Or.inl cancelled)
  | @commandFailed resource thrown rejected =>
      exact Or.inr (Or.inr ⟨resource, thrown, rejected, rfl, rfl⟩)

/-- How the loop comes to throw an error. -/
theorem Steps.throwing
    {view : ExecutorView ρ} {call call' : ExecuteCall ρ} {event : CallEvent}
    {error : CommandError} (steps : Steps view call event call')
    (throwing : call'.phase = .throwing error) :
    call.phase = .throwing error ∨ view.cancellation = some error ∨
      (call.phase = .failed error ∧
          ¬ (call.retryOnError = true ∧ error = view.kind.unavailableError)) ∨
        (event = .slept ∧ call.phase = .sleeping) := by
  have phase := steps.phaseMoves
  rw [throwing] at phase
  generalize call.phase = earlier at phase ⊢
  cases phase with
  | kept => exact Or.inl rfl
  | cancelled cancelled => exact Or.inr (Or.inl cancelled)
  | rethrown final => exact Or.inr (Or.inr (Or.inl ⟨rfl, final⟩))
  | givenUp _ slept => exact Or.inr (Or.inr (Or.inr ⟨slept, rfl⟩))

theorem Reaction.running
    {effects : List (CallEffect ρ)} {call call' : ExecuteCall ρ} {resource : ρ}
    (reaction : Reaction effects call call')
    (running : call'.phase = .running resource) :
    call.phase = .running resource := by
  have phase := reaction.phase
  rw [running] at phase
  generalize earlier : call.phase = previous at phase
  cases phase with
  | kept => rfl

/-- Effects neither reject an attempt nor let the loop throw. -/
theorem Reaction.raised
    {effects : List (CallEffect ρ)} {call call' : ExecuteCall ρ}
    {error : CommandError} (reaction : Reaction effects call call')
    (raised : call'.phase = .failed error ∨ call'.phase = .throwing error) :
    call.phase = call'.phase := by
  have phase := reaction.phase
  generalize call.phase = earlier at phase ⊢
  generalize call'.phase = later at phase raised ⊢
  cases phase with
  | kept => rfl
  | received resource available =>
      rcases raised with impossible | impossible
      · cases impossible
      · cases impossible
  | resumed resuming =>
      rcases raised with impossible | impossible
      · cases impossible
      · cases impossible
  | unregistered cancelling =>
      rcases raised with impossible | impossible
      · cases impossible
      · cases impossible

/-! ## Resources -/

/-- Between its attempts a call asks the container for its content. -/
theorem Steps.received
    {view : ExecutorView ρ} {call call' : ExecuteCall ρ} {event : CallEvent}
    {resource : ρ} (steps : Steps view call event call')
    (received : call'.phase = .received resource) :
    call.phase = .received resource ∨
      (call.phase = .sleeping ∧ view.available = some resource) := by
  have phase := steps.phaseMoves
  rw [received] at phase
  generalize call.phase = earlier at phase ⊢
  cases phase with
  | kept => exact Or.inl rfl
  | received available => exact Or.inr ⟨rfl, available⟩

theorem Reaction.received
    {effects : List (CallEffect ρ)} {call call' : ExecuteCall ρ} {resource : ρ}
    (reaction : Reaction effects call call')
    (received : call'.phase = .received resource) :
    call.phase = .received resource ∨
      (call.phase = .waiting ∧ .becameAvailable resource ∈ effects) := by
  have phase := reaction.phase
  rw [received] at phase
  generalize earlier : call.phase = previous at phase
  cases phase with
  | kept => exact Or.inl rfl
  | received _ available => exact Or.inr ⟨rfl, available⟩

/-- A call that waits for its resource, or whose loop has ended, does not move by
itself. -/
theorem Steps.parked
    {view : ExecutorView ρ} {call call' : ExecuteCall ρ} {event : CallEvent}
    (steps : Steps view call event call')
    (parked : call.phase = .waiting ∨ call.phase = .ended) :
    call'.phase = call.phase := by
  have phase := steps.phaseMoves
  generalize call'.phase = later at phase ⊢
  rcases parked with now | now
  · rw [now] at phase ⊢
    cases phase with
    | kept => rfl
  · rw [now] at phase ⊢
    cases phase with
    | kept => rfl

theorem Reaction.parked
    {effects : List (CallEffect ρ)} {call call' : ExecuteCall ρ}
    (reaction : Reaction effects call call')
    (parked : call.phase = .waiting ∨ call.phase = .ended) :
    call'.phase = call.phase ∨ ∃ resource, .becameAvailable resource ∈ effects := by
  have phase := reaction.phase
  generalize call'.phase = later at phase ⊢
  generalize call.phase = previous at phase parked ⊢
  cases phase with
  | kept => exact Or.inl rfl
  | received resource available => exact Or.inr ⟨resource, available⟩
  | resumed resuming =>
      rcases parked with now | now
      · cases now
      · cases now
  | unregistered cancelling =>
      rcases parked with now | now
      · cases now
      · cases now

end ExecuteCall

end Amq.Core
