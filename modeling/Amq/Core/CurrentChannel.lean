import Amq.Core.ChannelScopedCalls

/-!
# Operations stay on their channel

An operation is issued on the channel that was current when its method was
called, as long as nobody gives the waiting call another connection or another
channel.  The executors do hand those out: they wait for the next connection and
the next channel without asking whether the command may be retried.
-/

namespace Amq.Core

open Amq.Transition

namespace ChannelScopedCall

/-- The event gives the call a connection or a channel that may not be the one it
was made for.  A call of a disposed executor does not use what it gets. -/
def migrates (scope : ChannelScope) (call : ChannelScopedCall) :
    ScopeEvent → Bool
  | .connectionSet (some _) =>
      match call.outer.phase with
      | .waiting => !scope.isDisposed
      | _ => false
  | .channelCreated _ =>
      (match call.outer.phase with
        | .received connection =>
            !scope.isDisposed && connection ∉ scope.disposedConnections
        | _ => false) ||
      (match call.inner with
        | some (connection, ⟨_, .waiting, _, _, _⟩) =>
            decide (connection ∉ scope.disposedConnections)
        | some (connection, ⟨_, .received _, _, _, _⟩) =>
            decide (connection ∉ scope.disposedConnections)
        | _ => false)
  | _ => false

/-- What holds of a call at every await. -/
structure Steadfast (scope : ChannelScope) (call : ChannelScopedCall) : Prop where
  outerOnce : call.outer.Once
  innerOnce :
    ∀ connection inner, call.inner = some (connection, inner) → inner.Once
  /-- With a connection in hand, the channel is still the current one. -/
  received :
    ∀ connection, call.outer.phase = .received connection →
      scope.isDisposed = false → connection ∉ scope.disposedConnections →
        scope.channel = none ∨ scope.channel = call.currentChannel
  /-- With a channel in hand, it is the current one and still open, or closed. -/
  given :
    ∀ connection inner channel, call.inner = some (connection, inner) →
      inner.phase = .received channel →
      connection ∉ scope.disposedConnections →
        call.currentChannel = some channel ∧
          (scope.channel = some channel ∨ channel ∈ scope.closedChannels)
  issued :
    ∀ operation ∈ call.issued,
      call.currentChannel = some operation.channel ∧
        operation.current = some operation.channel
  innerFulfilled :
    ∀ connection inner, call.inner = some (connection, inner) →
      .settled .fulfilled ∈ inner.history → call.issued ≠ []
  outerFulfilled : .settled .fulfilled ∈ call.outer.history → call.issued ≠ []

/-! ## Fresh calls -/

theorem execute_history_not_fulfilled
    {ρ : Type} (view : ExecutorView ρ) (retryOnError : Bool) :
    .settled .fulfilled ∉ (ExecuteCall.execute view retryOnError).history := by
  have begins := ExecuteCall.execute_begins view retryOnError
  generalize ExecuteCall.execute view retryOnError = call at begins ⊢
  cases begins with
  | refused cancelled =>
      intro member
      cases List.mem_singleton.mp member
  | waits active unavailable => exact nofun
  | receives active available => exact nofun

theorem steadfast_start (scope : ChannelScope) (command : ChannelScopedCommand) :
    Steadfast scope (start scope command) where
  outerOnce := ExecuteCall.once_execute scope.outerView
  innerOnce := nofun
  received := by
    intro connection received _ _
    have available : scope.connection = some connection :=
      ExecuteCall.available_of_execute received
    right
    change scope.channel = scope.currentChannel
    unfold ChannelScope.currentChannel
    rw [available]
  given := nofun
  issued := nofun
  innerFulfilled := nofun
  outerFulfilled := fun fulfilled =>
    absurd fulfilled (execute_history_not_fulfilled scope.outerView false)

/-! ## Steps of the call -/

theorem result_mem
    {ρ : Type} {call : ExecuteCall ρ} {result : CommandResult}
    (settled : call.result = some result) : .settled result ∈ call.history := by
  unfold ExecuteCall.result at settled
  obtain ⟨entry, member, found⟩ := List.exists_of_findSome?_eq_some settled
  cases entry with
  | settled other =>
      cases found
      exact member
  | invoked resource => cases found
  | emitted emission => cases found

/-- The outer call goes on, and nothing else changes. -/
theorem Steadfast.outer
    {scope : ChannelScope} {call : ChannelScopedCall} {event : CallEvent}
    {outer : ExecuteCall ℕ}
    (steadfast : Steadfast scope call)
    (stepped : call.outer.step scope.outerView event = some outer)
    (settled :
      event = .commandSettled .fulfilled → call.issued ≠ []) :
    Steadfast scope { call with outer := outer } := by
  have steps := ExecuteCall.steps_of_step stepped
  have phases := steadfast.outerOnce.phase_of_steps steps
  refine
    { outerOnce := steadfast.outerOnce.steps steps
      innerOnce := steadfast.innerOnce
      received := ?_
      given := steadfast.given
      issued := steadfast.issued
      innerFulfilled := steadfast.innerFulfilled
      outerFulfilled := ?_ }
  · intro connection received
    exact steadfast.received connection (phases.2.1 connection received)
  · intro fulfilled
    rcases steps.fulfilled fulfilled with earlier | now
    · exact steadfast.outerFulfilled earlier
    · exact settled now

/-- The outer call invokes the method of the connection it has received, and
only while the wrapper is in use. -/
theorem received_of_invoked
    {scope : ChannelScope} {outer outer' : ExecuteCall ℕ} {connection : ℕ}
    (taken : outer.step scope.outerView .continued = some outer')
    (running : outer'.phase = .running connection) :
    outer.phase = .received connection ∧ scope.isDisposed = false := by
  cases ExecuteCall.steps_of_step taken with
  | withdrawn before cancelled => cases running
  | invoked before active =>
      cases running
      refine ⟨before, ?_⟩
      cases disposed : scope.isDisposed with
      | false => rfl
      | true =>
          simp only [ChannelScope.outerView, disposed] at active
          cases active

/-- The inner call invokes its command on the channel it has received, and only
while the connection is in use. -/
theorem received_of_innerInvoked
    {scope : ChannelScope} {connection : ℕ}
    {inner inner' : ExecuteCall ConfirmChannel} {channel : ConfirmChannel}
    (taken : inner.step (scope.innerView connection) .continued = some inner')
    (running : inner'.phase = .running channel) :
    inner.phase = .received channel ∧
      connection ∉ scope.disposedConnections := by
  cases ExecuteCall.steps_of_step taken with
  | withdrawn before cancelled => cases running
  | invoked before active =>
      cases running
      refine ⟨before, ?_⟩
      intro disposed
      simp only [ChannelScope.innerView, if_pos disposed] at active
      cases active

theorem Steadfast.outerStep
    {scope : ChannelScope} {call next : ChannelScopedCall} {event : CallEvent}
    (steadfast : Steadfast scope call)
    (stepped : call.outerStep scope event = some next) :
    Steadfast scope next := by
  unfold ChannelScopedCall.outerStep at stepped
  split at stepped
  case h_1 => cases stepped
  case h_2 =>
    obtain ⟨outer, taken, rfl⟩ := Option.map_eq_some_iff.mp stepped
    have advanced := steadfast.outer taken nofun
    split
    case h_1 connection running =>
      refine
        { outerOnce := advanced.outerOnce
          innerOnce := ?_
          received := advanced.received
          given := ?_
          issued := advanced.issued
          innerFulfilled := ?_
          outerFulfilled := advanced.outerFulfilled }
      · intro other inner same
        cases same
        exact ExecuteCall.once_execute (scope.innerView connection)
      · intro other inner channel same received active
        cases same
        have available : scope.channel = some channel :=
          ExecuteCall.available_of_execute received
        obtain ⟨before, inUse⟩ := received_of_invoked taken running
        rcases steadfast.received connection before inUse active with none | same
        · cases none.symm.trans available
        · exact ⟨same.symm.trans available, Or.inl available⟩
      · intro other inner same fulfilled
        cases same
        exact absurd fulfilled
          (execute_history_not_fulfilled (scope.innerView connection) false)
    case h_2 => exact advanced
  case h_3 notSettled notContinued =>
    obtain ⟨outer, taken, rfl⟩ := Option.map_eq_some_iff.mp stepped
    exact steadfast.outer taken fun same => absurd same (notSettled .fulfilled)

/-- The inner call goes on, and may have issued its operation. -/
theorem Steadfast.inner
    {scope : ChannelScope} {call : ChannelScopedCall} {event : CallEvent}
    {connection : ℕ} {inner inner' : ExecuteCall ConfirmChannel}
    {issued : List IssuedOperation}
    (steadfast : Steadfast scope call)
    (made : call.inner = some (connection, inner))
    (stepped : inner.step (scope.innerView connection) event = some inner')
    (settled : event = .commandSettled .fulfilled → call.issued ≠ [])
    (grown :
      issued = call.issued ∨
        ∃ operation, issued = operation :: call.issued ∧
          call.currentChannel = some operation.channel ∧
            operation.current = some operation.channel) :
    Steadfast scope
      { call with inner := some (connection, inner'), issued := issued } := by
  have steps := ExecuteCall.steps_of_step stepped
  have once := steadfast.innerOnce connection inner made
  have phases := once.phase_of_steps steps
  have nonempty : call.issued ≠ [] → issued ≠ [] := by
    intro before
    rcases grown with same | ⟨operation, pushed, _⟩
    · rw [same]
      exact before
    · rw [pushed]
      exact List.cons_ne_nil _ _
  refine
    { outerOnce := steadfast.outerOnce
      innerOnce := ?_
      received := steadfast.received
      given := ?_
      issued := ?_
      innerFulfilled := ?_
      outerFulfilled := fun fulfilled =>
        nonempty (steadfast.outerFulfilled fulfilled) }
  · intro _ _ same
    cases same
    exact once.steps steps
  · intro _ _ channel same received active
    cases same
    exact steadfast.given connection inner channel made
      (phases.2.1 channel received) active
  · intro operation member
    rcases grown with same | ⟨latest, pushed, current⟩
    · exact steadfast.issued operation (same ▸ member)
    · change operation ∈ issued at member
      rw [pushed] at member
      rcases List.mem_cons.mp member with now | earlier
      · rw [now]
        exact current
      · exact steadfast.issued operation earlier
  · intro _ _ same fulfilled
    cases same
    rcases steps.fulfilled fulfilled with earlier | now
    · exact nonempty (steadfast.innerFulfilled connection inner made earlier)
    · exact nonempty (settled now)

theorem Steadfast.innerStep
    {scope : ChannelScope} {call next : ChannelScopedCall} {event : CallEvent}
    (steadfast : Steadfast scope call)
    (stepped : call.innerStep scope event = some next) :
    Steadfast scope next := by
  unfold ChannelScopedCall.innerStep at stepped
  split at stepped
  case h_1 => cases stepped
  case h_2 connection inner made =>
    split at stepped
    case h_1 =>
      obtain ⟨inner', taken, rfl⟩ := Option.map_eq_some_iff.mp stepped
      refine steadfast.inner made taken nofun ?_
      split
      case h_1 channel running =>
        obtain ⟨before, inUse⟩ := received_of_innerInvoked taken running
        obtain ⟨current, place⟩ :=
          steadfast.given connection inner channel made before inUse
        by_cases closed : channel ∈ scope.closedChannels
        · rw [if_pos closed]
          exact Or.inl rfl
        · rw [if_neg closed]
          exact Or.inr ⟨_, rfl, current, place.resolve_right closed⟩
      case h_2 => exact Or.inl rfl
    case h_2 =>
      by_cases nothing : call.issued = []
      · rw [if_pos nothing] at stepped
        cases stepped
      · rw [if_neg nothing] at stepped
        obtain ⟨inner', taken, rfl⟩ := Option.map_eq_some_iff.mp stepped
        exact steadfast.inner made taken (fun _ => nothing) (Or.inl rfl)
    case h_3 notContinued notFulfilled =>
      obtain ⟨inner', taken, rfl⟩ := Option.map_eq_some_iff.mp stepped
      exact steadfast.inner made taken
        (fun same => absurd same notFulfilled) (Or.inl rfl)

theorem Steadfast.innerSettled
    {scope : ChannelScope} {call next : ChannelScopedCall}
    (steadfast : Steadfast scope call)
    (stepped : call.innerSettled scope = some next) :
    Steadfast scope next := by
  unfold ChannelScopedCall.innerSettled at stepped
  split at stepped
  case h_1 => cases stepped
  case h_2 connection inner made =>
    obtain ⟨result, settled, rest⟩ := Option.bind_eq_some_iff.mp stepped
    obtain ⟨outer, taken, rfl⟩ := Option.map_eq_some_iff.mp rest
    refine steadfast.outer taken ?_
    intro fulfilled
    cases fulfilled
    exact steadfast.innerFulfilled connection inner made (result_mem settled)

/-! ## Changes of the scope -/

/-- The scope loses resources and gets none. -/
structure Fades (scope scope' : ChannelScope) : Prop where
  inUse : scope'.isDisposed = false → scope.isDisposed = false
  disposed :
    ∀ connection ∈ scope.disposedConnections,
      connection ∈ scope'.disposedConnections
  channel : scope'.channel = scope.channel ∨ scope'.channel = none
  closed :
    ∀ channel, scope.channel = some channel ∨ channel ∈ scope.closedChannels →
      scope'.channel = some channel ∨ channel ∈ scope'.closedChannels

theorem fades_dropChannel (scope : ChannelScope) : Fades scope scope.dropChannel := by
  unfold ChannelScope.dropChannel
  split
  case h_1 => exact ⟨id, fun _ => id, Or.inl rfl, fun _ => id⟩
  case h_2 channel content =>
    refine ⟨id, fun _ => id, Or.inr rfl, ?_⟩
    rintro other (current | closed)
    · cases content.symm.trans current
      exact Or.inr List.mem_cons_self
    · exact Or.inr (List.mem_cons_of_mem _ closed)

/-- The callbacks of a loss do not move a call towards its operation. -/
theorem Steadfast.fade
    {scope scope' : ChannelScope} {call call' : ChannelScopedCall}
    (steadfast : Steadfast scope call)
    (fades : Fades scope scope')
    (sameChannel : call'.currentChannel = call.currentChannel)
    (sameIssued : call'.issued = call.issued)
    (outerOnce : call'.outer.Once)
    (outerPhase :
      ∀ connection, call'.outer.phase = .received connection →
        call.outer.phase = .received connection)
    (outerHistory :
      .settled .fulfilled ∈ call'.outer.history →
        .settled .fulfilled ∈ call.outer.history)
    (inner :
      ∀ connection inner', call'.inner = some (connection, inner') →
        ∃ inner, call.inner = some (connection, inner) ∧ inner'.Once ∧
          (∀ channel, inner'.phase = .received channel →
            inner.phase = .received channel) ∧
          (.settled .fulfilled ∈ inner'.history →
            .settled .fulfilled ∈ inner.history)) :
    Steadfast scope' call' := by
  have stillDisposed :
      ∀ connection, connection ∉ scope'.disposedConnections →
        connection ∉ scope.disposedConnections :=
    fun connection absent present => absent (fades.disposed connection present)
  refine
    { outerOnce := outerOnce
      innerOnce := ?_
      received := ?_
      given := ?_
      issued := ?_
      innerFulfilled := ?_
      outerFulfilled := ?_ }
  · intro connection inner' made
    obtain ⟨_, _, once, _⟩ := inner connection inner' made
    exact once
  · intro connection received inUse active
    rw [sameChannel]
    rcases fades.channel with same | gone
    · rw [same]
      exact steadfast.received connection (outerPhase connection received)
        (fades.inUse inUse) (stillDisposed connection active)
    · exact Or.inl gone
  · intro connection inner' channel made received active
    obtain ⟨before, made', _, phase, _⟩ := inner connection inner' made
    obtain ⟨current, place⟩ :=
      steadfast.given connection before channel made' (phase channel received)
        (stillDisposed connection active)
    rw [sameChannel]
    exact ⟨current, fades.closed channel place⟩
  · intro operation member
    rw [sameIssued] at member
    rw [sameChannel]
    exact steadfast.issued operation member
  · intro connection inner' made fulfilled
    obtain ⟨before, made', _, _, history⟩ := inner connection inner' made
    rw [sameIssued]
    exact steadfast.innerFulfilled connection before made' (history fulfilled)
  · intro fulfilled
    rw [sameIssued]
    exact steadfast.outerFulfilled (outerHistory fulfilled)

/-- A loss that calls nothing back. -/
theorem Steadfast.fade_same
    {scope scope' : ChannelScope} {call : ChannelScopedCall}
    (steadfast : Steadfast scope call) (fades : Fades scope scope') :
    Steadfast scope' call :=
  steadfast.fade fades rfl rfl steadfast.outerOnce (fun _ => id) id
    fun connection inner made =>
      ⟨inner, made, steadfast.innerOnce connection inner made, fun _ => id, id⟩

theorem Steadfast.connectionSet
    {scope : ChannelScope} {call : ChannelScopedCall} {connection : ℕ}
    (steadfast : Steadfast scope call)
    (stays : call.migrates scope (.connectionSet (some connection)) = false) :
    Steadfast (scope.after (.connectionSet (some connection)))
      (call.after (.connectionSet (some connection))) := by
  obtain ⟨once, history⟩ := steadfast.outerOnce.becameAvailable connection
  refine
    { outerOnce := once
      innerOnce := steadfast.innerOnce
      received := ?_
      given := steadfast.given
      issued := steadfast.issued
      innerFulfilled := steadfast.innerFulfilled
      outerFulfilled := ?_ }
  · intro other received inUse active
    by_cases waiting : call.outer.phase = .waiting
    · unfold migrates at stays
      dsimp only at stays
      rw [waiting] at stays
      change scope.isDisposed = false at inUse
      rw [inUse] at stays
      cases stays
    · change (call.outer.becameAvailable connection).phase = _ at received
      rw [ExecuteCall.becameAvailable_of_not_waiting connection waiting]
        at received
      exact steadfast.received other received inUse active
  · intro fulfilled
    change _ ∈ (call.outer.becameAvailable connection).history at fulfilled
    rw [history] at fulfilled
    exact steadfast.outerFulfilled fulfilled

theorem Steadfast.channelCreated
    {scope : ChannelScope} {call : ChannelScopedCall} {channel : ConfirmChannel}
    (steadfast : Steadfast scope call)
    (stays : call.migrates scope (.channelCreated channel) = false) :
    Steadfast (scope.after (.channelCreated channel))
      (call.after (.channelCreated channel)) := by
  unfold migrates at stays
  obtain ⟨outerStays, innerStays⟩ := Bool.or_eq_false_iff.mp stays
  have made_of_after :
      ∀ connection inner',
        (call.after (.channelCreated channel)).inner = some (connection, inner') →
          ∃ inner, call.inner = some (connection, inner) ∧
            inner' = inner.becameAvailable channel := by
    intro connection inner' made
    obtain ⟨⟨_, inner⟩, before, same⟩ := Option.map_eq_some_iff.mp made
    cases same
    exact ⟨inner, before, rfl⟩
  refine
    { outerOnce := steadfast.outerOnce
      innerOnce := ?_
      received := ?_
      given := ?_
      issued := steadfast.issued
      innerFulfilled := ?_
      outerFulfilled := steadfast.outerFulfilled }
  · intro connection inner' made
    obtain ⟨inner, before, rfl⟩ := made_of_after connection inner' made
    exact ((steadfast.innerOnce connection inner before).becameAvailable
      channel).1
  · intro connection received inUse active
    change call.outer.phase = .received connection at received
    rw [received] at outerStays
    change scope.isDisposed = false at inUse
    change connection ∉ scope.disposedConnections at active
    simp [inUse, active] at outerStays
  · intro connection inner' given made received active
    obtain ⟨inner, before, rfl⟩ := made_of_after connection inner' made
    change connection ∉ scope.disposedConnections at active
    rw [before] at innerStays
    obtain ⟨_, phase, _, _, _⟩ := inner
    cases phase with
    | waiting => simp [active] at innerStays
    | received resource => simp [active] at innerStays
    | _ => cases received
  · intro connection inner' made fulfilled
    obtain ⟨inner, before, rfl⟩ := made_of_after connection inner' made
    rw [((steadfast.innerOnce connection inner before).becameAvailable
      channel).2] at fulfilled
    exact steadfast.innerFulfilled connection inner before fulfilled

theorem Steadfast.connectionDisposed
    {scope : ChannelScope} {call : ChannelScopedCall} (disposed : ℕ)
    (steadfast : Steadfast scope call) :
    Steadfast (scope.after (.connectionDisposed disposed))
      (call.after (.connectionDisposed disposed)) := by
  have fades : Fades scope (scope.after (.connectionDisposed disposed)) := by
    have drops := fades_dropChannel scope
    unfold ChannelScope.after
    dsimp only
    split
    · exact ⟨id, fun _ => id, Or.inl rfl, fun _ => id⟩
    · exact
        ⟨drops.inUse,
          fun _ member => List.mem_cons_of_mem _ member,
          drops.channel, drops.closed⟩
  refine
    steadfast.fade fades rfl rfl steadfast.outerOnce (fun _ => id) id ?_
  intro connection inner' made
  obtain ⟨⟨_, inner⟩, before, same⟩ := Option.map_eq_some_iff.mp made
  cases same
  have once := steadfast.innerOnce connection inner before
  obtain ⟨phase, cancelledOnce, history⟩ := once.cancel .connectionClosed
  refine ⟨inner, before, ?_⟩
  by_cases own : connection = disposed
  · simp only [if_pos own]
    exact ⟨cancelledOnce, fun _ received => phase.symm.trans received, history⟩
  · simp only [if_neg own]
    exact ⟨once, fun _ => id, id⟩

theorem Steadfast.disposed
    {scope : ChannelScope} {call : ChannelScopedCall}
    (steadfast : Steadfast scope call) :
    Steadfast (scope.after .disposed) (call.after .disposed) := by
  obtain ⟨phase, once, history⟩ :=
    steadfast.outerOnce.cancel .connectionClosed
  refine
    steadfast.fade ⟨nofun, fun _ => id, Or.inl rfl, fun _ => id⟩ rfl rfl once
      (fun _ received => phase.symm.trans received) history ?_
  intro connection inner made
  exact
    ⟨inner, made, steadfast.innerOnce connection inner made, fun _ => id, id⟩

theorem Steadfast.after
    {scope : ChannelScope} {call : ChannelScopedCall} {event : ScopeEvent}
    (steadfast : Steadfast scope call)
    (stays : call.migrates scope event = false) :
    Steadfast (scope.after event) (call.after event) := by
  cases event with
  | connectionSet connection =>
      cases connection with
      | none =>
          exact steadfast.fade_same ⟨id, fun _ => id, Or.inl rfl, fun _ => id⟩
      | some connection => exact steadfast.connectionSet stays
  | channelCreated channel => exact steadfast.channelCreated stays
  | channelLost => exact steadfast.fade_same (fades_dropChannel scope)
  | connectionDisposed disposed => exact steadfast.connectionDisposed disposed
  | disposed => exact steadfast.disposed

end ChannelScopedCall

/-! ## Whole runs -/

namespace ChannelScopedCalls

/-- The event gives some call another connection or channel. -/
def migrates (state : ChannelScopedCalls) : ChannelScopedEvent → Bool
  | .scope event => state.calls.any fun call => call.migrates state.scope event
  | _ => false

/-- Nobody gives a waiting call another connection or channel. -/
def KeepsChannel (state : ChannelScopedCalls) (event : ChannelScopedEvent) :
    Prop :=
  state.migrates event = false

instance (state : ChannelScopedCalls) (event : ChannelScopedEvent) :
    Decidable (state.KeepsChannel event) :=
  inferInstanceAs (Decidable (_ = _))

def AllSteadfast (state : ChannelScopedCalls) : Prop :=
  ∀ call ∈ state.calls, call.Steadfast state.scope

theorem AllSteadfast.updateCall
    {state next : ChannelScopedCalls} {index : ℕ}
    {operation : ChannelScopedCall → Option ChannelScopedCall}
    (steadfast : state.AllSteadfast)
    (stepped : state.updateCall index operation = some next)
    (keeps :
      ∀ call call', call.Steadfast state.scope → operation call = some call' →
        call'.Steadfast state.scope) :
    next.AllSteadfast := by
  unfold ChannelScopedCalls.updateCall at stepped
  split at stepped
  case h_1 => cases stepped
  case h_2 call found =>
    obtain ⟨call', taken, rfl⟩ := Option.map_eq_some_iff.mp stepped
    have present : call ∈ state.calls := List.mem_of_getElem? found
    intro other member
    rcases List.mem_or_eq_of_mem_set member with earlier | same
    · exact steadfast other earlier
    · rw [same]
      exact keeps call call' (steadfast call present) taken

theorem allSteadfast_preserved (commandTimeoutMs : JsNumber) :
    (machine commandTimeoutMs).PreservedUnder KeepsChannel AllSteadfast := by
  intro state event next steadfast keeps stepped
  change state.step event = some next at stepped
  cases event with
  | called command =>
      cases stepped
      intro call member
      rcases List.mem_append.mp member with earlier | added
      · exact steadfast call earlier
      · rw [List.mem_singleton.mp added]
        exact ChannelScopedCall.steadfast_start state.scope command
  | outer index event =>
      exact steadfast.updateCall stepped fun _ _ holds taken =>
        holds.outerStep taken
  | inner index event =>
      exact steadfast.updateCall stepped fun _ _ holds taken =>
        holds.innerStep taken
  | innerSettled index =>
      exact steadfast.updateCall stepped fun _ _ holds taken =>
        holds.innerSettled taken
  | scope event =>
      cases stepped
      intro call member
      obtain ⟨before, earlier, rfl⟩ := List.mem_map.mp member
      have stays : before.migrates state.scope event = false := by
        have none := List.any_eq_false.mp keeps before earlier
        exact Bool.eq_false_iff.mpr none
      exact (steadfast before earlier).after stays

/-- In every run in which no waiting call is given another connection or
channel, an operation is issued only on the channel that was current when its
method was called, while that channel is in the container, and a call that has
issued nothing is not fulfilled. -/
theorem issued_on_currentChannel
    (commandTimeoutMs : JsNumber) (schedule : List ChannelScopedEvent)
    (state : ChannelScopedCalls)
    (keeps :
      (machine commandTimeoutMs).Throughout KeepsChannel
        (create commandTimeoutMs) schedule)
    (execution :
      (machine commandTimeoutMs).run (create commandTimeoutMs) schedule =
        some state) :
    ∀ call ∈ state.calls,
      (∀ operation ∈ call.issued,
        call.currentChannel = some operation.channel ∧
          operation.current = some operation.channel) ∧
      (call.issued = [] → .settled .fulfilled ∉ call.outer.history) := by
  have initially : (create commandTimeoutMs).AllSteadfast := by
    intro call member
    cases member
  intro call member
  have steadfast : call.Steadfast state.scope :=
    Machine.run_invariant_under (allSteadfast_preserved commandTimeoutMs)
      initially keeps execution call member
  exact
    ⟨steadfast.issued,
      fun nothing fulfilled => steadfast.outerFulfilled fulfilled nothing⟩

/-- A message is acknowledged; a second call is overtaken by the loss of the
connection. -/
def acknowledgedBeforeLoss : List ChannelScopedEvent :=
  [.scope (.channelCreated ⟨0, 0⟩), .scope (.connectionSet (some 0)),
    .called (.acknowledge 1), .outer 0 .continued, .inner 0 .continued,
    .inner 0 (.commandSettled .fulfilled), .innerSettled 0,
    .called (.acknowledge 2), .outer 1 .continued,
    .scope (.connectionSet none), .scope (.connectionDisposed 0),
    .inner 1 .continued, .inner 1 .caught, .inner 1 .thrown, .innerSettled 1,
    .scope (.channelCreated ⟨1, 1⟩), .scope (.connectionSet (some 1)),
    .outer 1 .caught, .outer 1 .thrown]

theorem issued_on_currentChannel_beforeLoss :
    ∃ state,
      (machine (.ofNat 60000)).run (create (.ofNat 60000))
          acknowledgedBeforeLoss = some state ∧
        ∀ call ∈ state.calls,
          (∀ operation ∈ call.issued,
            call.currentChannel = some operation.channel ∧
              operation.current = some operation.channel) ∧
          (call.issued = [] → .settled .fulfilled ∉ call.outer.history) :=
  ⟨_, rfl,
    issued_on_currentChannel (.ofNat 60000) acknowledgedBeforeLoss _ (by decide)
      rfl⟩

/-- A message is acknowledged while its channel is being created anew. -/
def acknowledgedWhileRecreating : List ChannelScopedEvent :=
  [.scope (.channelCreated ⟨0, 0⟩), .scope (.connectionSet (some 0)),
    .scope .channelLost, .called (.acknowledge 1), .outer 0 .continued,
    .scope (.channelCreated ⟨0, 1⟩), .inner 0 .continued]

theorem acknowledgedWhileRecreating_migrates :
    ¬ ∀ (commandTimeoutMs : JsNumber) (schedule : List ChannelScopedEvent)
        (state : ChannelScopedCalls),
        (machine commandTimeoutMs).run (create commandTimeoutMs) schedule =
          some state →
        ∀ call ∈ state.calls, ∀ operation ∈ call.issued,
          call.currentChannel = some operation.channel := by
  intro always
  have current :=
    always (.ofNat 60000) acknowledgedWhileRecreating _ rfl _
      List.mem_cons_self _ List.mem_cons_self
  cases current

end ChannelScopedCalls

end Amq.Core
