import Amq.Core.CallEffects
import Mathlib.Data.List.Count

/-!
# How often a call invokes its command

A call invokes its command again only after it has announced that its resource
became unavailable, and a call without `retryOnError` never announces this.
-/

namespace Amq.Core

namespace CallObservation

variable {ρ : Type}

def isInvocation : CallObservation ρ → Bool
  | .invoked _ => true
  | _ => false

/-- The announcement after which the call tries again. -/
def isLoss : CallObservation ρ → Bool
  | .emitted .channelBecameUnavailable => true
  | .emitted .connectionBecameUnavailable => true
  | _ => false

end CallObservation

/-- The loop may go on to an invocation. -/
def CallPhase.isAhead {ρ : Type} : CallPhase ρ → Bool
  | .waiting => true
  | .received _ => true
  | .paused _ => true
  | .resumed => true
  | .sleeping => true
  | .running _ => false
  | .failed _ => false
  | .throwing _ => false
  | .ended => false

namespace ExecuteCall

variable {ρ : Type} {view : ExecutorView ρ} {call call' : ExecuteCall ρ}
variable {event : CallEvent}

def invocations (call : ExecuteCall ρ) : ℕ :=
  call.history.countP CallObservation.isInvocation

def losses (call : ExecuteCall ρ) : ℕ :=
  call.history.countP CallObservation.isLoss

/-- What a call knows of its invocations. -/
structure Repeats (call : ExecuteCall ρ) : Prop where
  bound :
    call.invocations + (if call.phase.isAhead then 1 else 0) ≤ call.losses + 1
  once : call.retryOnError = false → call.losses = 0
  running :
    ∀ resource, call.phase = .running resource →
      .invoked resource ∈ call.history
  fulfilled :
    .settled .fulfilled ∈ call.history →
      ∃ resource, .invoked resource ∈ call.history

theorem Repeats.invocations_le (repeats : call.Repeats) :
    call.invocations ≤ call.losses + 1 := by
  have bound := repeats.bound
  omega

@[simp]
theorem settle_invocations (call : ExecuteCall ρ) (result : CommandResult) :
    (call.settle result).invocations = call.invocations := by
  unfold invocations
  rcases settle_history call result with ⟨same, _⟩ | pushed
  · rw [same]
  · rw [pushed, List.countP_cons_of_neg (by simp [CallObservation.isInvocation])]

@[simp]
theorem settle_losses (call : ExecuteCall ρ) (result : CommandResult) :
    (call.settle result).losses = call.losses := by
  unfold losses
  rcases settle_history call result with ⟨same, _⟩ | pushed
  · rw [same]
  · rw [pushed, List.countP_cons_of_neg (by simp [CallObservation.isLoss])]

/-- A change that neither invokes nor announces anything. -/
structure Quiet (call call' : ExecuteCall ρ) : Prop where
  retryOnError : call'.retryOnError = call.retryOnError
  invocations : call'.invocations = call.invocations
  losses : call'.losses = call.losses
  ahead : call'.phase.isAhead = true → call.phase.isAhead = true
  running :
    ∀ resource, call'.phase = .running resource → call.phase = .running resource
  grown : ∀ entry ∈ call.history, entry ∈ call'.history

theorem Repeats.quiet
    (repeats : call.Repeats) (quiet : Quiet call call')
    (fulfilled :
      .settled .fulfilled ∈ call'.history →
        .settled .fulfilled ∈ call.history ∨
          ∃ resource, call.phase = .running resource) :
    call'.Repeats := by
  refine ⟨?_, ?_, ?_, ?_⟩
  · have bound := repeats.bound
    rw [quiet.invocations, quiet.losses]
    by_cases ahead : call'.phase.isAhead = true
    · rw [if_pos ahead]
      rw [if_pos (quiet.ahead ahead)] at bound
      exact bound
    · rw [if_neg ahead]
      omega
  · intro single
    rw [quiet.losses]
    exact repeats.once (quiet.retryOnError.symm.trans single)
  · intro resource running
    exact quiet.grown _ (repeats.running resource (quiet.running resource running))
  · intro itsEnd
    rcases fulfilled itsEnd with earlier | ⟨resource, running⟩
    · obtain ⟨resource, member⟩ := repeats.fulfilled earlier
      exact ⟨resource, quiet.grown _ member⟩
    · exact ⟨resource, quiet.grown _ (repeats.running resource running)⟩

/-- A settling which is followed by a phase in which the command is not run. -/
theorem quiet_settle
    (call : ExecuteCall ρ) (result : CommandResult) (phase : CallPhase ρ)
    (behind : phase.isAhead = true → call.phase.isAhead = true)
    (idle :
      ∀ resource, phase = .running resource → call.phase = .running resource) :
    Quiet call { call.settle result with phase := phase } where
  retryOnError := settle_retryOnError call result
  invocations := settle_invocations call result
  losses := settle_losses call result
  ahead := behind
  running := idle
  grown := settle_grown call result

theorem quiet_phase
    (call : ExecuteCall ρ) (phase : CallPhase ρ)
    (behind : phase.isAhead = true → call.phase.isAhead = true)
    (idle :
      ∀ resource, phase = .running resource → call.phase = .running resource) :
    Quiet call { call with phase := phase } :=
  ⟨rfl, rfl, rfl, behind, idle, fun _ member => member⟩

theorem isAhead_unregister (phase : CallPhase ρ) :
    phase.unregister.isAhead = phase.isAhead := by
  cases phase <;> rfl

theorem running_unregister
    {phase : CallPhase ρ} {resource : ρ}
    (running : phase.unregister = .running resource) :
    phase = .running resource := by
  cases phase with
  | paused isRegistered => cases running
  | _ => exact running

theorem repeats_execute (view : ExecutorView ρ) (retryOnError : Bool) :
    (execute view retryOnError).Repeats ∧
      (execute view retryOnError).invocations = 0 := by
  have begins := execute_begins view retryOnError
  generalize execute view retryOnError = call at begins
  cases begins with
  | refused cancelled =>
      constructor
      · constructor <;>
          simp [invocations, losses, CallPhase.isAhead,
            CallObservation.isInvocation, CallObservation.isLoss]
      · simp [invocations, CallObservation.isInvocation]
  | waits active unavailable =>
      constructor
      · constructor <;> simp [invocations, losses, CallPhase.isAhead]
      · rfl
  | receives active available =>
      constructor
      · constructor <;> simp [invocations, losses, CallPhase.isAhead]
      · rfl

/-- A step is quiet, or it invokes the command, or it announces a loss. -/
inductive Accounts (call : ExecuteCall ρ) :
    CallEvent → ExecuteCall ρ → Prop where
  | quiet {event : CallEvent} {call' : ExecuteCall ρ} (quiet : Quiet call call')
      (fulfilled :
        .settled .fulfilled ∈ call'.history →
          .settled .fulfilled ∈ call.history ∨
            (event = .commandSettled .fulfilled ∧
              ∃ resource, call.phase = .running resource)) :
      Accounts call event call'
  | invokes {resource : ρ} (received : call.phase = .received resource) :
      Accounts call .continued
        { call with
          phase := .running resource
          history := .invoked resource :: call.history }
  | pauses {error : CommandError} (kind : ExecutorKind)
      (failed : call.phase = .failed error) (retry : call.retryOnError = true) :
      Accounts call .caught
        { call with
          phase := .paused true
          history := .emitted kind.unavailableEmission :: call.history }

theorem accounts_caught
    {error : CommandError} (failed : call.phase = .failed error) :
    Accounts call .caught (call.catchError view error) := by
  have idle : ∀ (error : CommandError) (resource : ρ),
      CallPhase.throwing error = .running resource →
        call.phase = .running resource := by
    intro error resource impossible
    cases impossible
  unfold catchError
  cases cancellation : view.cancellation with
  | some cancellationError =>
      exact .quiet (quiet_phase call (.throwing cancellationError) nofun (idle _))
        Or.inl
  | none =>
      dsimp only
      by_cases retried :
        call.retryOnError = true ∧ error = view.kind.unavailableError
      · rw [if_pos retried]
        exact .pauses view.kind failed retried.1
      · rw [if_neg retried]
        by_cases closing : view.kind = .channel ∧ error = .connectionClosing
        · rw [if_pos closing]
          refine .quiet ⟨rfl, ?_, ?_, by simp [CallPhase.isAhead], idle _, ?_⟩ ?_
          · simp [invocations, CallObservation.isInvocation]
          · simp [losses, CallObservation.isLoss]
          · exact fun _ member => List.mem_cons_of_mem _ member
          · intro member
            exact Or.inl (by simpa using member)
        · rw [if_neg closing]
          exact .quiet (quiet_phase call (.throwing error) nofun (idle _)) Or.inl

theorem Steps.accounts (steps : Steps view call event call') :
    Accounts call event call' := by
  have rejects : ∀ (error : CommandError) (phase : CallPhase ρ),
      .settled .fulfilled ∈
          ({ call.settle (.rejected error) with phase := phase }
            : ExecuteCall ρ).history →
        .settled .fulfilled ∈ call.history := by
    intro error phase member
    rcases mem_of_settle member with earlier | ⟨impossible, _⟩
    · exact earlier
    · cases impossible
  cases steps with
  | withdrawn before cancelled =>
      exact .quiet (quiet_phase call _ nofun nofun) Or.inl
  | invoked before active => exact .invokes before
  | completed before =>
      refine .quiet (quiet_settle call .fulfilled .ended nofun nofun) ?_
      intro _
      exact Or.inr ⟨rfl, _, before⟩
  | commandFailed before =>
      exact .quiet (quiet_phase call _ nofun nofun) Or.inl
  | caught before => exact accounts_caught before
  | thrown before =>
      exact .quiet (quiet_settle call _ .ended nofun nofun)
        fun member => Or.inl (rejects _ _ member)
  | intervalStarted before =>
      refine .quiet (quiet_phase call .sleeping ?_ (by simp)) Or.inl
      intro _
      rw [before]
      rfl
  | retried before =>
      have ahead : call.phase.isAhead = true := by
        rw [before]
        rfl
      cases view.available with
      | none =>
          exact .quiet (quiet_phase call .waiting (fun _ => ahead) nofun) Or.inl
      | some resource =>
          exact .quiet
            (quiet_phase call (.received resource) (fun _ => ahead) nofun) Or.inl
  | givenUp before =>
      exact .quiet (quiet_phase call _ nofun nofun) Or.inl
  | timedOut pending first =>
      refine .quiet ⟨settle_retryOnError call _, settle_invocations call _,
        settle_losses call _, ?_, ?_, settle_grown call _⟩ ?_
      · intro ahead
        exact (settle_phase call _) ▸ ahead
      · intro resource running
        exact (settle_phase call _).symm.trans running
      · intro member
        rcases mem_of_settle member with earlier | ⟨impossible, _⟩
        · exact Or.inl earlier
        · cases impossible
  | finalized settled =>
      refine .quiet ⟨rfl, rfl, rfl, ?_, ?_, fun _ member => member⟩ Or.inl
      · intro ahead
        exact (isAhead_unregister call.phase).symm.trans ahead
      · intro resource running
        exact running_unregister running

theorem Repeats.accounts
    (repeats : call.Repeats) (accounts : Accounts call event call') :
    call'.Repeats := by
  cases accounts with
  | quiet quiet fulfilled =>
      exact repeats.quiet quiet fun member => (fulfilled member).imp_right And.right
  | @invokes resource received =>
      have ahead : call.phase.isAhead = true := by
        rw [received]
        rfl
      have bound := repeats.bound
      rw [if_pos ahead] at bound
      refine ⟨?_, repeats.once, ?_, ?_⟩
      · simp only [invocations, losses, CallPhase.isAhead] at bound ⊢
        rw [List.countP_cons_of_pos rfl,
          List.countP_cons_of_neg (by simp [CallObservation.isLoss])]
        simpa using bound
      · intro other running
        cases running
        exact List.mem_cons_self
      · intro _
        exact ⟨resource, List.mem_cons_self⟩
  | pauses kind failed retry =>
      have behind : ¬ call.phase.isAhead = true := by
        rw [failed]
        simp [CallPhase.isAhead]
      have bound := repeats.bound
      rw [if_neg behind] at bound
      have announced :
          (.emitted kind.unavailableEmission : CallObservation ρ).isLoss =
            true := by
        cases kind <;> rfl
      refine ⟨?_, ?_, ?_, ?_⟩
      · simp only [invocations, losses, CallPhase.isAhead] at bound ⊢
        rw [List.countP_cons_of_pos announced,
          List.countP_cons_of_neg (by simp [CallObservation.isInvocation])]
        simpa using bound
      · intro single
        rw [retry] at single
        cases single
      · intro resource running
        cases running
      · intro member
        obtain ⟨resource, invoked⟩ :=
          repeats.fulfilled (by simpa using member)
        exact ⟨resource, List.mem_cons_of_mem _ invoked⟩

/-! ## What an executor does -/

theorem quiet_react (call : ExecuteCall ρ) (effect : CallEffect ρ) :
    Quiet call (call.react effect) ∧
      (.settled .fulfilled ∈ (call.react effect).history →
        .settled .fulfilled ∈ call.history) := by
  cases effect with
  | cancelled =>
      simp only [react, cancel]
      by_cases finalized : call.isFinalized = true
      · rw [if_pos finalized]
        refine ⟨⟨rfl, rfl, rfl, ?_, ?_, fun _ member => member⟩, id⟩
        · intro ahead
          exact (isAhead_unregister call.phase).symm.trans ahead
        · intro resource running
          exact running_unregister running
      · rw [if_neg finalized]
        refine ⟨quiet_settle call _ _ ?_ ?_, ?_⟩
        · intro ahead
          exact (isAhead_unregister call.phase).symm.trans ahead
        · intro resource running
          exact running_unregister running
        · intro member
          rcases mem_of_settle member with earlier | ⟨impossible, _⟩
          · exact earlier
          · cases impossible
  | becameAvailable resource =>
      simp only [react, becameAvailable]
      split
      · rename_i waiting
        refine ⟨quiet_phase call _ ?_ (by simp), id⟩
        intro _
        rw [waiting]
        rfl
      · exact ⟨quiet_phase call call.phase id (fun _ => id), id⟩
  | resumed =>
      simp only [react, resume]
      split
      · rename_i paused
        refine ⟨quiet_phase call _ ?_ (by simp), id⟩
        intro _
        rw [paused]
        rfl
      · exact ⟨quiet_phase call call.phase id (fun _ => id), id⟩

theorem Quiet.trans {middle last : ExecuteCall ρ}
    (first : Quiet call middle) (second : Quiet middle last) : Quiet call last where
  retryOnError := second.retryOnError.trans first.retryOnError
  invocations := second.invocations.trans first.invocations
  losses := second.losses.trans first.losses
  ahead := first.ahead ∘ second.ahead
  running resource running := first.running resource (second.running resource running)
  grown entry member := second.grown entry (first.grown entry member)

theorem quiet_reactAll (call : ExecuteCall ρ) (effects : List (CallEffect ρ)) :
    Quiet call (call.reactAll effects) ∧
      (.settled .fulfilled ∈ (call.reactAll effects).history →
        .settled .fulfilled ∈ call.history) := by
  induction effects generalizing call with
  | nil => exact ⟨quiet_phase call call.phase id (fun _ => id), id⟩
  | cons effect rest inductionHypothesis =>
      obtain ⟨quiet, fulfilled⟩ := quiet_react call effect
      obtain ⟨quietly, fulfilledBefore⟩ := inductionHypothesis (call.react effect)
      exact ⟨quiet.trans quietly, fulfilled ∘ fulfilledBefore⟩

end ExecuteCall

end Amq.Core
