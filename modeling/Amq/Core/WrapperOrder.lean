import Amq.Core.WrapperMoves

/-!
# The order of a wrapper's connections

Every step of a wrapper leads from one of its modes to another, and keeps the
custody of the shared channel.  What the calls of the executors need to know about
a step is stated for the wrapper's own fields and for a single run.
-/

namespace Amq.Core

open Amq.Transition

namespace AmqpConnectionWrapper

/-! ## Modes are kept -/

section Preservation

variable {wrapper next : AmqpConnectionWrapper}

/-- A step changes one run, which neither goes on nor is revived. -/
structure Touches
    (wrapper next : AmqpConnectionWrapper) (run : ℕ)
    (before after : InitializerRun) : Prop where
  found : wrapper.runs[run]? = some before
  runs : next.runs = wrapper.runs.set run after
  phase : after.phase = before.phase
  disposed :
    before.connection.isDisposed = true → after.connection.isDisposed = true

/-- Only the runs and the resources of two wrappers differ. -/
structure SameControl (wrapper next : AmqpConnectionWrapper) : Prop where
  state : next.state = wrapper.state
  container : next.container = wrapper.container
  listens : next.listens = wrapper.listens
  isCancelled : next.isCancelled = wrapper.isCancelled
  connecting : next.connecting = wrapper.connecting
  reconnecting : next.reconnecting = wrapper.reconnecting

theorem Touches.isLast_iff
    {run other : ℕ} {before after : InitializerRun}
    (touches : Touches wrapper next run before after) :
    next.IsLast other ↔ wrapper.IsLast other := by
  unfold IsLast
  rw [touches.runs, List.length_set]

/-- What is at a place has the phase that was there. -/
theorem Touches.now
    {run other : ℕ} {before after current : InitializerRun}
    (touches : Touches wrapper next run before after)
    (found : wrapper.runs[other]? = some current) :
    ∃ later, next.runs[other]? = some later ∧ later.phase = current.phase ∧
      (current.connection.isDisposed = true →
        later.connection.isDisposed = true) := by
  rw [touches.runs]
  by_cases same : other = run
  · subst same
    have inRange := (List.getElem?_eq_some_iff.mp found).1
    cases touches.found.symm.trans found
    exact
      ⟨after, List.getElem?_set_self inRange, touches.phase, touches.disposed⟩
  · rw [List.getElem?_set_ne (Ne.symm same)]
    exact ⟨current, found, rfl, id⟩

theorem Touches.awaited
    {run awaited : ℕ} {before after : InitializerRun}
    (touches : Touches wrapper next run before after)
    (promise : next.connectionPromise = wrapper.connectionPromise)
    (waiting : wrapper.Awaited awaited) : next.Awaited awaited := by
  cases waiting with
  | pending current found last pending unsettled wanted =>
      obtain ⟨later, there, phase, _⟩ := touches.now found
      rw [← phase] at unsettled wanted
      exact .pending later there (touches.isLast_iff.mpr last)
        (promise.trans pending) unsettled wanted
  | settled current result found last none settled wanted =>
      obtain ⟨later, there, phase, _⟩ := touches.now found
      exact .settled later result there (touches.isLast_iff.mpr last)
        (promise.trans none) (phase.trans settled) wanted

theorem Touches.retired
    {run : ℕ} {before after : InitializerRun}
    (touches : Touches wrapper next run before after)
    (promise : next.connectionPromise = wrapper.connectionPromise)
    (retired : wrapper.Retired) : next.Retired := by
  refine ⟨promise.trans retired.promise, ?_⟩
  intro other current found last
  have inRange := (List.getElem?_eq_some_iff.mp found).1
  rw [touches.runs, List.length_set] at inRange
  obtain ⟨later, there, phase, disposed⟩ :=
    touches.now (List.getElem?_eq_getElem inRange)
  rw [found] at there
  cases there
  obtain ⟨⟨result, settled⟩, spent⟩ :=
    retired.ended other _ (List.getElem?_eq_getElem inRange)
      (touches.isLast_iff.mp last)
  exact ⟨⟨result, phase.trans settled⟩, disposed spent⟩

theorem Touches.handedOut
    {run other : ℕ} {before after : InitializerRun}
    (touches : Touches wrapper next run before after)
    (handedOut : wrapper.HandedOut other) : next.HandedOut other := by
  obtain ⟨current, found, settled⟩ := handedOut
  obtain ⟨later, there, phase, _⟩ := touches.now found
  exact ⟨later, there, phase.trans settled⟩

theorem Touches.pending
    {run : ℕ} {before after : InitializerRun}
    (touches : Touches wrapper next run before after)
    (same : SameControl wrapper next)
    (promise : next.connectionPromise = wrapper.connectionPromise)
    (pending : wrapper.Pending) : next.Pending := by
  cases pending with
  | idle idle awaiting replacing =>
      rw [← same.connecting] at idle
      rw [← same.reconnecting] at awaiting replacing
      exact .idle idle awaiting replacing
  | connecting other connecting reconnecting last =>
      exact .connecting other (same.connecting.trans connecting)
        (same.reconnecting.trans reconnecting) (touches.isLast_iff.mpr last)
  | reconnecting other connecting reconnecting last =>
      exact .reconnecting other (same.connecting.trans connecting)
        (same.reconnecting.trans reconnecting) (touches.isLast_iff.mpr last)
  | replacing connecting reconnecting retired =>
      exact .replacing (same.connecting.trans connecting)
        (same.reconnecting.trans reconnecting) (touches.retired promise retired)

theorem Touches.mode
    {run : ℕ} {before after : InitializerRun}
    (touches : Touches wrapper next run before after)
    (same : SameControl wrapper next)
    (promise : next.connectionPromise = wrapper.connectionPromise)
    (mode : wrapper.Mode) : next.Mode := by
  obtain ⟨state, container, listens, isCancelled, connecting, reconnecting⟩ := same
  cases mode with
  | unused unused =>
      have found := touches.found
      rw [unused.runs] at found
      cases found
  | connecting other waiting =>
      exact .connecting other
        ⟨state.trans waiting.state, container.trans waiting.container,
          listens.trans waiting.listens, isCancelled.trans waiting.isCancelled,
          connecting.trans waiting.connecting,
          reconnecting.trans waiting.reconnecting,
          touches.awaited promise waiting.awaited⟩
  | refused refused =>
      exact .refused
        ⟨state.trans refused.state, container.trans refused.container,
          listens.trans refused.listens, isCancelled.trans refused.isCancelled,
          connecting.trans refused.connecting,
          reconnecting.trans refused.reconnecting⟩
  | online other online =>
      exact .online other
        ⟨state.trans online.state, container.trans online.container,
          listens.trans online.listens, isCancelled.trans online.isCancelled,
          connecting.trans online.connecting,
          reconnecting.trans online.reconnecting, promise.trans online.promise,
          touches.handedOut online.handedOut,
          touches.isLast_iff.mpr online.last⟩
  | replacing replacing =>
      exact .replacing
        ⟨state.trans replacing.state, container.trans replacing.container,
          listens.trans replacing.listens,
          isCancelled.trans replacing.isCancelled,
          connecting.trans replacing.connecting,
          reconnecting.trans replacing.reconnecting,
          touches.retired promise replacing.retired⟩
  | reconnecting other waiting =>
      exact .reconnecting other
        ⟨state.trans waiting.state, container.trans waiting.container,
          listens.trans waiting.listens, isCancelled.trans waiting.isCancelled,
          connecting.trans waiting.connecting,
          reconnecting.trans waiting.reconnecting,
          touches.awaited promise waiting.awaited⟩
  | disposed disposed =>
      exact .disposed
        ⟨state.trans disposed.state, container.trans disposed.container,
          isCancelled.trans disposed.isCancelled,
          touches.pending ⟨state, container, listens, isCancelled, connecting,
            reconnecting⟩ promise disposed.pending⟩

/-- A disposal changes nothing, or the connection of its run. -/
theorem Disposal.cases
    {run : ℕ} {effects : List WrapperEffect}
    (disposal : wrapper.Disposal run effects next) :
    SameControl wrapper next ∧
      next.connectionPromise = wrapper.connectionPromise ∧
      (next = wrapper ∨
        ∃ before after, Touches wrapper next run before after ∧
          after.connection.isDisposed = true) := by
  cases disposal with
  | ignored inactive => exact ⟨⟨rfl, rfl, rfl, rfl, rfl, rfl⟩, rfl, Or.inl rfl⟩
  | disposed current connection found last active ended =>
      have disposed := AmqpConnection.dispose_isDisposed connection wrapper.resources
      exact
        ⟨⟨rfl, rfl, rfl, rfl, rfl, rfl⟩, rfl,
          Or.inr ⟨current, _, ⟨found, rfl, rfl, fun _ => disposed⟩, disposed⟩⟩

theorem Disposal.mode
    {run : ℕ} {effects : List WrapperEffect}
    (disposal : wrapper.Disposal run effects next) (mode : wrapper.Mode) :
    next.Mode := by
  obtain ⟨same, promise, rfl | ⟨before, after, touches, _⟩⟩ := disposal.cases
  · exact mode
  · exact touches.mode same promise mode

theorem Disposal.disposed_mode
    {run : ℕ} {effects : List WrapperEffect}
    (disposal : wrapper.Disposal run effects next) (disposed : wrapper.Disposed) :
    next.Disposed := by
  obtain ⟨same, promise, rfl | ⟨before, after, touches, _⟩⟩ := disposal.cases
  · exact disposed
  · exact
      ⟨same.state.trans disposed.state, same.container.trans disposed.container,
        same.isCancelled.trans disposed.isCancelled,
        touches.pending same promise disposed.pending⟩

theorem Disposal.custody
    {run : ℕ} {effects : List WrapperEffect}
    (disposal : wrapper.Disposal run effects next) (custody : wrapper.Custody) :
    next.Custody := by
  cases disposal with
  | ignored inactive => exact custody
  | disposed current connection found last active ended =>
      rcases ended with rfl | rfl
      · exact custody.disposed found last active rfl rfl (fun _ same => same)
      · exact custody.disposed found last active rfl rfl nofun

theorem Pending.shut (pending : wrapper.Pending) : wrapper.shut.Pending := by
  cases pending with
  | idle connecting awaiting replacing =>
      exact .idle connecting awaiting replacing
  | connecting run connecting reconnecting last =>
      exact .connecting run connecting reconnecting last
  | reconnecting run connecting reconnecting last =>
      exact .reconnecting run connecting reconnecting last
  | replacing connecting reconnecting retired =>
      exact .replacing connecting reconnecting ⟨rfl, retired.ended⟩

/-- Once the connection in use is disposed of, the wrapper replaces it. -/
theorem Disposal.replacing
    {run : ℕ} {effects : List WrapperEffect}
    (online : wrapper.Online run)
    (disposal : wrapper.released.Disposal run effects next) :
    next.Replacing := by
  obtain ⟨same, promise, changed⟩ := disposal.cases
  have handedOut : next.HandedOut run ∧ next.IsLast run := by
    rcases changed with rfl | ⟨before, after, touches, _⟩
    · exact ⟨online.handedOut, online.last⟩
    · have before : wrapper.released.HandedOut run := online.handedOut
      exact ⟨touches.handedOut before, touches.isLast_iff.mpr online.last⟩
  obtain ⟨⟨current, found, settled⟩, last⟩ := handedOut
  refine
    ⟨same.state.trans online.state, same.container,
      same.listens.trans online.listens,
      same.isCancelled.trans online.isCancelled,
      same.connecting.trans online.connecting, same.reconnecting,
      promise.trans online.promise, ?_⟩
  intro other another atOther otherLast
  have equal : other = run := by
    unfold IsLast at last otherLast
    omega
  subst equal
  rw [found] at atOther
  cases atOther
  exact ⟨⟨.connection, settled⟩, disposal.isDisposed found⟩

/-- The run that is awaited goes on; nobody has cancelled it, so it does not
find itself cancelled. -/
theorem Awaited.initialized
    {maxAttempts : JsNumber} {run awaited : ℕ} {event : InitializerEvent}
    {current after : InitializerRun} {resources : AmqpResources}
    (waiting : wrapper.Awaited awaited)
    (found : wrapper.runs[run]? = some current) (last : wrapper.IsLast run)
    (steps :
      InitializerRun.Steps maxAttempts (wrapper.connectionPromise == some run)
        current wrapper.resources event after resources) :
    Awaited
      { wrapper with
        runs := wrapper.runs.set run after
        resources := resources
        connectionPromise :=
          if event = .finished then none else wrapper.connectionPromise }
      awaited := by
  have same : awaited = run := by
    have awaitedLast := waiting.last
    unfold IsLast at last awaitedLast
    omega
  subst same
  have inRange := (List.getElem?_eq_some_iff.mp found).1
  have there :
      (wrapper.runs.set awaited after)[awaited]? = some after :=
    List.getElem?_set_self inRange
  have lastNow : awaited + 1 = (wrapper.runs.set awaited after).length := by
    rw [List.length_set]
    exact last
  cases waiting with
  | settled other result atOther _ promise settled wanted =>
      cases found.symm.trans atOther
      exact absurd settled (steps.not_settled result)
  | pending other atOther _ promise unsettled wanted =>
      cases found.symm.trans atOther
      rw [promise, beq_self_eq_true] at steps
      have unfinished (different : event ≠ .finished)
          (unsettled : ∀ result, after.phase ≠ .settled result)
          (kept : after.phase ≠ .returned .cancelled) :
          Awaited
            { wrapper with
              runs := wrapper.runs.set awaited after
              resources := resources
              connectionPromise :=
                if event = .finished then none else wrapper.connectionPromise }
            awaited := by
        refine .pending after there lastNow ?_ unsettled kept
        exact (if_neg different).trans promise
      cases steps with
      | @moved _ phase moves =>
          rcases moves.current with
            ⟨rfl, result, before, rfl⟩ | ⟨different, unsettled', kept⟩
          · refine .settled _ result there lastNow rfl rfl ?_
            intro cancelled
            subst cancelled
            exact wanted before
          · exact unfinished different unsettled' kept
      | opened before => exact unfinished nofun nofun nofun
      | created before active => exact unfinished nofun nofun nofun
      | createdDisposed before disposed => exact unfinished nofun nofun nofun
      | failed before => exact unfinished nofun nofun nofun

theorem Mode.initialized
    {maxAttempts : JsNumber} {run : ℕ} {event : InitializerEvent}
    {current after : InitializerRun} {resources : AmqpResources}
    (mode : wrapper.Mode)
    (found : wrapper.runs[run]? = some current) (last : wrapper.IsLast run)
    (steps :
      InitializerRun.Steps maxAttempts (wrapper.connectionPromise == some run)
        current wrapper.resources event after resources) :
    Mode
      { wrapper with
        runs := wrapper.runs.set run after
        resources := resources
        connectionPromise :=
          if event = .finished then none else wrapper.connectionPromise } := by
  -- The last run is under way, so its connection is neither in use nor given up.
  have notRetired : ¬ wrapper.Retired := by
    intro retired
    obtain ⟨⟨result, settled⟩, _⟩ := retired.ended run current found last
    exact steps.not_settled result settled
  have stillLast {other : ℕ} (before : wrapper.IsLast other) :
      other + 1 = (wrapper.runs.set run after).length := by
    rw [List.length_set]
    exact before
  cases mode with
  | unused unused =>
      rw [unused.runs] at found
      cases found
  | connecting other waiting =>
      exact .connecting other
        ⟨waiting.state, waiting.container, waiting.listens, waiting.isCancelled,
          waiting.connecting, waiting.reconnecting,
          waiting.awaited.initialized found last steps⟩
  | refused refused =>
      exact .refused
        ⟨refused.state, refused.container, refused.listens, refused.isCancelled,
          refused.connecting, refused.reconnecting⟩
  | online other online =>
      obtain ⟨used, atOther, settled⟩ := online.handedOut
      have same : other = run := by
        have otherLast := online.last
        unfold IsLast at last otherLast
        omega
      subst same
      cases found.symm.trans atOther
      exact absurd settled (steps.not_settled .connection)
  | replacing replacing => exact absurd replacing.retired notRetired
  | reconnecting other waiting =>
      exact .reconnecting other
        ⟨waiting.state, waiting.container, waiting.listens, waiting.isCancelled,
          waiting.connecting, waiting.reconnecting,
          waiting.awaited.initialized found last steps⟩
  | disposed disposed =>
      refine .disposed
        ⟨disposed.state, disposed.container, disposed.isCancelled, ?_⟩
      cases disposed.pending with
      | idle connecting awaiting replacing =>
          exact .idle connecting awaiting replacing
      | connecting other connecting reconnecting before =>
          exact .connecting other connecting reconnecting (stillLast before)
      | reconnecting other connecting reconnecting before =>
          exact .reconnecting other connecting reconnecting (stillLast before)
      | replacing connecting reconnecting retired =>
          exact absurd retired notRetired

/-- The run that has just been made. -/
theorem awaited_withRun
    (promised : next.connectionPromise = some wrapper.runs.length)
    (runs : next.runs = wrapper.runs ++ [.create]) :
    next.Awaited wrapper.runs.length := by
  refine .pending .create ?_ ?_ promised nofun nofun
  · rw [runs]
    exact List.getElem?_concat_length
  · unfold IsLast
    rw [runs, List.length_append]
    rfl

/-- The connection of one run changes, but is not revived. -/
theorem Mode.setConnection
    (mode : wrapper.Mode) {run : ℕ} {current : InitializerRun}
    (found : wrapper.runs[run]? = some current)
    (connection : AmqpConnection) (resources : AmqpResources)
    (disposed :
      current.connection.isDisposed = true → connection.isDisposed = true) :
    Mode
      { wrapper with
        runs := wrapper.runs.set run { current with connection := connection }
        resources := resources } := by
  have touches :
      Touches wrapper
        { wrapper with
          runs := wrapper.runs.set run { current with connection := connection }
          resources := resources }
        run current { current with connection := connection } :=
    ⟨found, rfl, rfl, disposed⟩
  exact touches.mode ⟨rfl, rfl, rfl, rfl, rfl, rfl⟩ rfl mode

/-- Neither `connect` nor `reconnect` is waited for. -/
theorem pending_of_none
    (connecting : wrapper.connecting = none)
    (reconnecting : wrapper.reconnecting = none) : wrapper.Pending := by
  refine .idle connecting ?_ ?_
  · intro run awaiting
    cases reconnecting.symm.trans awaiting
  · intro replacing
    cases reconnecting.symm.trans replacing

/-- Every step keeps the order. -/
theorem Orderly.moves
    {maxAttempts : JsNumber} {event : WrapperEvent}
    {effects : List WrapperEffect}
    (orderly : wrapper.Orderly) (moves : Moves maxAttempts wrapper event effects next) :
    next.Orderly := by
  obtain ⟨mode, custody⟩ := orderly
  cases moves with
  | ignored served => exact ⟨mode, custody⟩
  | connects unused =>
      constructor
      · exact .connecting wrapper.runs.length
          ⟨rfl, unused.container, unused.listens, unused.isCancelled, rfl,
            unused.reconnecting, awaited_withRun rfl rfl⟩
      · refine custody.addRun rfl rfl ?_
        intro run current found
        rw [unused.runs] at found
        cases found
  | disposes state container pending =>
      exact ⟨.disposed ⟨rfl, rfl, rfl, pending.shut⟩, custody.congr rfl rfl⟩
  | disposesOnline online disposal =>
      have idle : wrapper.shut.Pending :=
        pending_of_none online.connecting online.reconnecting
      exact
        ⟨.disposed (disposal.disposed_mode ⟨rfl, rfl, rfl, idle⟩),
          disposal.custody (custody.congr rfl rfl)⟩
  | initializes found steps =>
      have last := custody.last found (Or.inr steps.not_settled)
      exact ⟨mode.initialized found last steps, custody.initialized found steps _⟩
  | connectFails connecting exceeded =>
      exact
        ⟨.refused ⟨rfl, connecting.container, connecting.listens,
            connecting.isCancelled, rfl, connecting.reconnecting⟩,
          custody.congr rfl rfl⟩
  | @connectSucceeds run connecting last promise handedOut =>
      exact
        ⟨.online run ⟨connecting.state, rfl, rfl, connecting.isCancelled, rfl,
            connecting.reconnecting, promise, handedOut, last⟩,
          custody.congr rfl rfl⟩
  | connectEnds disposed connecting =>
      have none := (disposed.last_of_connecting connecting).2
      exact
        ⟨.disposed ⟨disposed.state, rfl, disposed.isCancelled,
            pending_of_none rfl none⟩,
          custody.congr rfl rfl⟩
  | connectRollsBack disposed connecting disposal =>
      have none := (disposed.last_of_connecting connecting).2
      have idle : Pending { wrapper with connecting := .none } :=
        pending_of_none rfl none
      exact
        ⟨.disposed
            (disposal.disposed_mode
              ⟨disposed.state, disposed.container, disposed.isCancelled, idle⟩),
          disposal.custody (custody.congr rfl rfl)⟩
  | replaces mode' connecting reconnecting retired =>
      have awaited :
          Awaited
            { wrapper.withRun with
              reconnecting := some (.awaiting wrapper.runs.length) }
            wrapper.runs.length :=
        awaited_withRun rfl rfl
      constructor
      · rcases mode' with replacing | disposed
        · exact .reconnecting wrapper.runs.length
            ⟨replacing.state, replacing.container, replacing.listens,
              replacing.isCancelled, connecting, rfl, awaited⟩
        · exact .disposed
            ⟨disposed.state, disposed.container, disposed.isCancelled,
              .reconnecting wrapper.runs.length connecting rfl awaited.last⟩
      · refine custody.addRun rfl rfl ?_
        intro run current found last
        obtain ⟨settled, spent⟩ := retired.ended run current found last
        refine ⟨settled, ?_⟩
        by_contra listens
        have active :=
          ((custody.records run current found).listens
            (Bool.not_eq_false _ ▸ listens)).1
        cases spent.symm.trans active
  | reconnectFails reconnecting =>
      exact
        ⟨.disposed ⟨rfl, rfl, rfl, .idle reconnecting.connecting nofun nofun⟩,
          custody.congr rfl rfl⟩
  | @reconnectSucceeds run reconnecting last promise handedOut =>
      exact
        ⟨.online run ⟨reconnecting.state, rfl, reconnecting.listens,
            reconnecting.isCancelled, reconnecting.connecting, rfl, promise,
            handedOut, last⟩,
          custody.congr rfl rfl⟩
  | reconnectEnds disposed reconnecting =>
      have idle := (disposed.last_of_awaiting reconnecting).2
      exact
        ⟨.disposed ⟨disposed.state, disposed.container, disposed.isCancelled,
            .idle idle nofun nofun⟩,
          custody.congr rfl rfl⟩
  | reconnectCancelled disposed reconnecting cancelled =>
      have idle := (disposed.last_of_awaiting reconnecting).2
      exact
        ⟨.disposed ⟨disposed.state, rfl, disposed.isCancelled,
            .idle idle nofun nofun⟩,
          custody.congr rfl rfl⟩
  | reconnectRollsBack disposed reconnecting disposal =>
      have idle := (disposed.last_of_awaiting reconnecting).2
      have pending :
          Pending { wrapper with reconnecting := some .finishing } :=
        .idle idle nofun nofun
      exact
        ⟨.disposed
            (disposal.disposed_mode
              ⟨disposed.state, disposed.container, disposed.isCancelled,
                pending⟩),
          disposal.custody (custody.congr rfl rfl)⟩
  | reconnectFinishes disposed reconnecting =>
      have idle : wrapper.connecting = none := by
        cases disposed.pending with
        | idle connecting awaiting replacing => exact connecting
        | connecting run connecting none last =>
            cases none.symm.trans reconnecting
        | reconnecting run connecting awaiting last => exact connecting
        | replacing connecting replacing retired => exact connecting
      exact
        ⟨.disposed ⟨disposed.state, disposed.container, disposed.isCancelled,
            .idle idle nofun nofun⟩,
          custody.congr rfl rfl⟩
  | loses online lost disposal =>
      exact
        ⟨.replacing (disposal.replacing online),
          disposal.custody (custody.congr rfl rfl)⟩
  | drops elsewhere lost served disposal =>
      exact ⟨disposal.mode mode, disposal.custody custody⟩
  | @losesChannel run current found listens =>
      refine ⟨?_, custody.recreatingChannel found listens⟩
      rw [withConnection_of_found _ found]
      refine mode.setConnection found _ _ fun disposed => ?_
      exact (AmqpConnection.recreateChannel_connection _ _).2.trans disposed
  | @recreatesChannel run amqplibConnection current emissions found active
      recreating announced =>
      refine ⟨?_, custody.recreated found active recreating⟩
      rw [withConnection_of_found _ found]
      exact mode.setConnection found _ _ id
  | @dropsChannel run settlement current resources found disposed opened channel =>
      exact
        ⟨mode.setConnection found _ resources id,
          custody.dropped found disposed opened channel⟩

theorem Orderly.step
    {maxAttempts : JsNumber} {event : WrapperEvent}
    (orderly : wrapper.Orderly)
    (stepped : wrapper.step maxAttempts event = some next) : next.Orderly :=
  orderly.moves (orderly.moves_of_step maxAttempts stepped)

end Preservation

/-! ## What the calls need to know about a step -/

section Facts

variable {wrapper next : AmqpConnectionWrapper} {maxAttempts : JsNumber}
  {event : WrapperEvent} {effects : List WrapperEffect}

/-- A step, as far as the wrapper's own fields are concerned. -/
structure ControlStep
    (wrapper : AmqpConnectionWrapper) (event : WrapperEvent)
    (effects : List WrapperEffect) (next : AmqpConnectionWrapper) : Prop where
  cancelled :
    next.isCancelled = true ↔
      wrapper.isCancelled = true ∨ .cancelCommands ∈ effects
  /-- Who waits for the end of `reconnect` is resumed or cancelled by it. -/
  recovering :
    wrapper.reconnecting ≠ none →
      next.reconnecting ≠ none ∨ next.isCancelled = true ∨
        .resumeCommands ∈ effects
  listening :
    wrapper.listens = true ∨ wrapper.isCancelled = true →
      next.listens = true ∨ next.isCancelled = true
  requested :
    event = .connectionBecameUnavailable → next.reconnecting ≠ none
  available :
    ∀ run, .connectionAvailable run ∈ effects → next.container = some run
  stored :
    ∀ channel, .channelAvailable channel ∈ effects →
      next.resources.channel = some channel

/-- Effects that only concern one connection, if any. -/
def Local (effects : List WrapperEffect) : Prop :=
  ∀ effect ∈ effects, ∃ run, effect = .cancelChannelCommands run

theorem local_nil : Local [] :=
  nofun

theorem Disposal.isLocal
    {run : ℕ} (disposal : wrapper.Disposal run effects next) : Local effects := by
  cases disposal with
  | ignored inactive => exact local_nil
  | disposed current connection found last active ended =>
      intro effect member
      exact ⟨run, List.mem_singleton.mp member⟩

theorem Local.controlStep
    (quiet : Local effects)
    (cancelled : next.isCancelled = wrapper.isCancelled)
    (recovering :
      wrapper.reconnecting ≠ none →
        next.reconnecting ≠ none ∨ next.isCancelled = true)
    (listening :
      wrapper.listens = true ∨ wrapper.isCancelled = true →
        next.listens = true ∨ next.isCancelled = true)
    (requested :
      event = .connectionBecameUnavailable → next.reconnecting ≠ none) :
    wrapper.ControlStep event effects next := by
  refine ⟨?_, ?_, listening, requested, ?_, ?_⟩
  · rw [cancelled]
    refine ⟨Or.inl, fun either => either.resolve_right ?_⟩
    intro cancelling
    obtain ⟨run, impossible⟩ := quiet _ cancelling
    cases impossible
  · intro waiting
    rcases recovering waiting with still | ended
    · exact Or.inl still
    · exact Or.inr (Or.inl ended)
  · intro run available
    obtain ⟨other, impossible⟩ := quiet _ available
    cases impossible
  · intro channel available
    obtain ⟨other, impossible⟩ := quiet _ available
    cases impossible

/-- A step of a run of the initializer only stores a channel. -/
theorem initializerEffects_cases
    {run : ℕ} {step : InitializerEvent} {current after : InitializerRun}
    {resources : AmqpResources} {isCurrent : Bool}
    (found : wrapper.runs[run]? = some current)
    (steps :
      InitializerRun.Steps maxAttempts isCurrent current wrapper.resources step
        after resources) :
    wrapper.initializerEffects run step = [] ∨
      ∃ channel, wrapper.initializerEffects run step = [.channelAvailable channel] ∧
        resources.channel = some channel := by
  unfold initializerEffects
  rw [found]
  dsimp only
  split
  case h_1 attempt amqplibConnection before =>
    by_cases disposed : current.connection.isDisposed = true
    · rw [if_pos disposed]
      exact Or.inl rfl
    · rw [if_neg disposed]
      refine Or.inr ⟨_, rfl, ?_⟩
      cases steps with
      | moved moves => exact absurd before (moves.from_creatingChannel _ _)
      | created before' active =>
          cases before.symm.trans before'
          rw [AmqpConnection.channelCreated_of_active _ _ active]
      | createdDisposed before' disposed' => exact absurd disposed' disposed
  case h_2 => exact Or.inl rfl

/-- What a channel that was created again is followed by. -/
theorem mem_recreationEffects
    {run : ℕ} {channel : ConfirmChannel} {emissions : List WrapperEffect}
    (quiet : emissions = [] ∨ emissions = [.emitted .channelRecreated])
    {effect : WrapperEffect}
    (member :
      effect ∈ [.channelAvailable channel, .resumeChannelCommands run] ++ emissions) :
    effect = .channelAvailable channel ∨ effect = .resumeChannelCommands run ∨
      effect = .emitted .channelRecreated := by
  rcases List.mem_append.mp member with first | later
  · rcases List.mem_cons.mp first with same | rest
    · exact Or.inl same
    · exact Or.inr (Or.inl (List.mem_singleton.mp rest))
  · rcases quiet with none | one
    · rw [none] at later
      cases later
    · rw [one] at later
      exact Or.inr (Or.inr (List.mem_singleton.mp later))

theorem Moves.controlStep
    (moves : Moves maxAttempts wrapper event effects next) :
    wrapper.ControlStep event effects next := by
  cases moves with
  | ignored served => exact local_nil.controlStep rfl Or.inl id served
  | connects unused => exact local_nil.controlStep rfl Or.inl id nofun
  | disposes state container pending =>
      refine ⟨?_, Or.inl, fun _ => Or.inr rfl, nofun, ?_, ?_⟩
      · exact ⟨fun _ => Or.inr List.mem_cons_self, fun _ => rfl⟩
      · intro run available
        cases List.mem_singleton.mp available
      · intro channel available
        cases List.mem_singleton.mp available
  | disposesOnline online disposal =>
      have cancelled := disposal.cases.1.isCancelled
      refine ⟨?_, fun _ => Or.inr (Or.inl cancelled), fun _ => Or.inr cancelled,
        nofun, ?_, ?_⟩
      · exact ⟨fun _ => Or.inr List.mem_cons_self, fun _ => cancelled⟩
      · intro run available
        rcases List.mem_cons.mp available with impossible | later
        · cases impossible
        · obtain ⟨other, impossible⟩ := disposal.isLocal _ later
          cases impossible
      · intro channel available
        rcases List.mem_cons.mp available with impossible | later
        · cases impossible
        · obtain ⟨other, impossible⟩ := disposal.isLocal _ later
          cases impossible
  | initializes found steps =>
      rcases initializerEffects_cases found steps with
        none | ⟨channel, one, holds⟩
      · rw [none]
        exact local_nil.controlStep rfl Or.inl id nofun
      · rw [one]
        refine ⟨?_, Or.inl, id, nofun, ?_, ?_⟩
        · refine ⟨Or.inl, fun either => either.resolve_right ?_⟩
          intro cancelling
          cases List.mem_singleton.mp cancelling
        · intro run available
          cases List.mem_singleton.mp available
        · intro other available
          cases List.mem_singleton.mp available
          exact holds
  | connectFails connecting exceeded =>
      exact local_nil.controlStep rfl Or.inl id nofun
  | connectSucceeds connecting last promise handedOut =>
      refine ⟨?_, Or.inl, fun _ => Or.inl rfl, nofun, ?_, ?_⟩
      · refine ⟨Or.inl, fun either => either.resolve_right ?_⟩
        intro cancelling
        cases List.mem_singleton.mp cancelling
      · intro run available
        cases List.mem_singleton.mp available
        rfl
      · intro channel available
        cases List.mem_singleton.mp available
  | connectEnds disposed connecting =>
      exact local_nil.controlStep rfl (fun _ => Or.inr disposed.isCancelled)
        (fun _ => Or.inr disposed.isCancelled) nofun
  | connectRollsBack disposed connecting disposal =>
      have same := disposal.cases.1.isCancelled
      have cancelled := same.trans disposed.isCancelled
      exact disposal.isLocal.controlStep same (fun _ => Or.inr cancelled)
        (fun _ => Or.inr cancelled) nofun
  | replaces mode connecting reconnecting retired =>
      exact local_nil.controlStep rfl (fun _ => Or.inl nofun) id nofun
  | reconnectFails reconnecting =>
      refine ⟨?_, fun _ => Or.inl nofun, fun _ => Or.inr rfl, nofun, ?_, ?_⟩
      · exact
          ⟨fun _ => Or.inr (List.mem_cons_of_mem _ List.mem_cons_self),
            fun _ => rfl⟩
      · intro run available
        simp at available
      · intro channel available
        simp at available
  | reconnectSucceeds reconnecting last promise handedOut =>
      refine
        ⟨?_,
          fun _ => Or.inr (Or.inr (List.mem_cons_of_mem _ List.mem_cons_self)),
          id, nofun, ?_, ?_⟩
      · exact ⟨Or.inl, fun either => either.resolve_right (by simp)⟩
      · intro run available
        simp only [List.mem_cons, WrapperEffect.connectionAvailable.injEq,
          reduceCtorEq, List.not_mem_nil, or_false] at available
        rw [available]
      · intro channel available
        simp at available
  | reconnectEnds disposed reconnecting =>
      exact local_nil.controlStep rfl (fun _ => Or.inr disposed.isCancelled)
        (fun _ => Or.inr disposed.isCancelled) nofun
  | reconnectCancelled disposed reconnecting cancelled =>
      refine ⟨?_, fun _ => Or.inr (Or.inl disposed.isCancelled),
        fun _ => Or.inr disposed.isCancelled, nofun, ?_, ?_⟩
      · exact ⟨Or.inl, fun _ => disposed.isCancelled⟩
      · intro run available
        simp at available
      · intro channel available
        simp at available
  | reconnectRollsBack disposed reconnecting disposal =>
      have same := disposal.cases.1.isCancelled
      have cancelled := same.trans disposed.isCancelled
      exact disposal.isLocal.controlStep same (fun _ => Or.inr cancelled)
        (fun _ => Or.inr cancelled) nofun
  | reconnectFinishes disposed reconnecting =>
      exact local_nil.controlStep rfl (fun _ => Or.inr disposed.isCancelled)
        (fun _ => Or.inr disposed.isCancelled) nofun
  | loses online lost disposal =>
      have same := disposal.cases.1
      have replacing : next.reconnecting ≠ none := by
        rw [same.reconnecting]
        exact nofun
      refine disposal.isLocal.controlStep same.isCancelled
        (fun _ => Or.inl replacing) (fun _ => Or.inl ?_) (fun _ => replacing)
      exact same.listens.trans online.listens
  | drops elsewhere lost served disposal =>
      have same := disposal.cases.1
      refine disposal.isLocal.controlStep same.isCancelled ?_ ?_
        (fun requested => absurd requested served)
      · rw [same.reconnecting]
        exact Or.inl
      · rw [same.listens, same.isCancelled]
        exact id
  | losesChannel found listens =>
      rw [withConnection_of_found _ found]
      exact local_nil.controlStep rfl Or.inl id nofun
  | @recreatesChannel run amqplibConnection current emissions found active
      recreating announced =>
      have quiet : emissions = [] ∨ emissions = [.emitted .channelRecreated] :=
        announced.imp_right And.left
      rw [withConnection_of_found _ found]
      unfold AmqpConnection.channelRecreated
      dsimp only
      rw [if_neg (Bool.eq_false_iff.mp active)]
      refine ⟨?_, Or.inl, id, nofun, ?_, ?_⟩
      · refine ⟨Or.inl, fun either => either.resolve_right ?_⟩
        intro cancelling
        rcases mem_recreationEffects quiet cancelling with
          impossible | impossible | impossible
        all_goals cases impossible
      · intro other available
        rcases mem_recreationEffects quiet available with
          impossible | impossible | impossible
        all_goals cases impossible
      · intro channel available
        rcases mem_recreationEffects quiet available with
          same | impossible | impossible
        · cases same
          rfl
        · cases impossible
        · cases impossible
  | dropsChannel found disposed opened channel =>
      exact local_nil.controlStep rfl Or.inl id nofun

/-- A step, as far as one run and its connection are concerned. -/
structure RunStep
    (event : WrapperEvent) (effects : List WrapperEffect) (run : ℕ)
    (before after : InitializerRun) : Prop where
  cancelled :
    .cancelChannelCommands run ∈ effects → after.connection.isDisposed = true
  disposed :
    before.connection.isDisposed = true → after.connection.isDisposed = true
  /-- The flag is set by `dispose`, or by the rollback of a channel creation. -/
  flagged :
    after.connection.isDisposed = true →
      before.connection.isDisposed = true ∨
        .cancelChannelCommands run ∈ effects ∨
          after.connection.amqplibConnection ≠ none
  silenced :
    before.connection.handlesChannels = true →
      after.connection.handlesChannels = true ∨
        .cancelChannelCommands run ∈ effects
  listening :
    after.connection.handlesChannels = true →
      before.connection.handlesChannels = true ∨
        ∀ result, before.phase ≠ .settled result
  recovered :
    before.connection.handlesChannels = true →
      before.connection.recreatingChannel ≠ none →
        after.connection.recreatingChannel ≠ none ∨
          .cancelChannelCommands run ∈ effects ∨
            .resumeChannelCommands run ∈ effects
  quiet :
    after.connection.handlesChannels = false →
      .cancelChannelCommands run ∉ effects →
        before.connection.handledConnection = none →
          before.connection.recreatingChannel = none →
            after.connection.handledConnection = none ∧
              after.connection.recreatingChannel = none
  settled :
    ∀ result, before.phase = .settled result →
      after.phase = .settled result ∧
        after.connection.amqplibConnection = before.connection.amqplibConnection
  opened :
    after.connection.amqplibConnection ≠ none →
      before.connection.amqplibConnection ≠ none ∨
        event = .initializer run (.connectionSettled .fulfilled)
  kept :
    before.connection.amqplibConnection ≠ none →
      after.connection.amqplibConnection ≠ none

theorem runStep_refl
    {run : ℕ} (current : InitializerRun)
    (kept : .cancelChannelCommands run ∉ effects) :
    RunStep event effects run current current where
  cancelled := fun cancelling => absurd cancelling kept
  disposed := id
  flagged := Or.inl
  silenced := Or.inl
  listening := Or.inl
  recovered := fun _ recreating => Or.inl recreating
  quiet := fun _ _ handled recreating => ⟨handled, recreating⟩
  settled := fun _ settled => ⟨settled, rfl⟩
  opened := Or.inl
  kept := id

/-- What a step does to the runs. -/
inductive RunsStep
    (wrapper : AmqpConnectionWrapper) (event : WrapperEvent)
    (effects : List WrapperEffect) (next : AmqpConnectionWrapper) : Prop where
  | kept (runs : next.runs = wrapper.runs)
      (none : ∀ run, .cancelChannelCommands run ∉ effects)
  | added (runs : next.runs = wrapper.runs ++ [.create])
      (none : ∀ run, .cancelChannelCommands run ∉ effects)
      (retired :
        wrapper.runs = [] ∨ wrapper.reconnecting = some .disposingOld)
  | changed (run : ℕ) (before after : InitializerRun)
      (found : wrapper.runs[run]? = some before)
      (runs : next.runs = wrapper.runs.set run after)
      (elsewhere :
        ∀ other, other ≠ run → .cancelChannelCommands other ∉ effects)
      (step : RunStep event effects run before after)

theorem Disposal.runsStep
    {base : AmqpConnectionWrapper} {run : ℕ}
    (disposal : base.Disposal run effects next) (others : List WrapperEffect)
    (runs : base.runs = wrapper.runs)
    (none : ∀ other, .cancelChannelCommands other ∉ others) :
    wrapper.RunsStep event (others ++ effects) next := by
  cases disposal with
  | ignored inactive =>
      refine .kept runs ?_
      rw [List.append_nil]
      exact none
  | disposed current connection found last active ended =>
      have member :
          WrapperEffect.cancelChannelCommands run ∈
            others ++ [WrapperEffect.cancelChannelCommands run] :=
        List.mem_append_right _ List.mem_cons_self
      have activeNow : connection.isDisposed = false := by
        rcases ended with rfl | rfl
        · exact active
        · exact active
      have own :
          connection.amqplibConnection = current.connection.amqplibConnection := by
        rcases ended with rfl | rfl
        · rfl
        · rfl
      have sameOwn :=
        (AmqpConnection.dispose_amqplibConnection connection
          base.resources).trans own
      have spent := AmqpConnection.dispose_isDisposed connection base.resources
      have quiet := (AmqpConnection.dispose_of_active base.resources activeNow).1
      rw [runs] at found
      refine .changed run current
        { current with
          connection := (connection.dispose base.resources).1 } found ?_ ?_ ?_
      · exact congrArg (List.set · run _) runs
      · intro other different cancelling
        rcases List.mem_append.mp cancelling with early | late
        · exact none other early
        · cases List.mem_singleton.mp late
          exact different rfl
      · exact
          { cancelled := fun _ => spent
            disposed := fun _ => spent
            flagged := fun _ => Or.inr (Or.inl member)
            silenced := fun _ => Or.inr member
            listening := fun listens => absurd (quiet.symm.trans listens) nofun
            recovered := fun _ _ => Or.inr (Or.inl member)
            quiet := fun _ kept => absurd member kept
            settled := fun _ settled => ⟨settled, sameOwn⟩
            opened := by
              intro owned
              rw [sameOwn] at owned
              exact Or.inl owned
            kept := by
              rw [sameOwn]
              exact id }

/-- A run that has not settled moves on with its connection as it is. -/
theorem runStep_of_same
    {run : ℕ} {before after : InitializerRun}
    (kept : .cancelChannelCommands run ∉ effects)
    (unsettled : ∀ result, before.phase ≠ .settled result)
    (same : after.connection = before.connection) :
    RunStep event effects run before after := by
  obtain ⟨phase, connection⟩ := after
  subst same
  exact
    { cancelled := fun cancelling => absurd cancelling kept
      disposed := id
      flagged := Or.inl
      silenced := Or.inl
      listening := Or.inl
      recovered := fun _ recreating => Or.inl recreating
      quiet := fun _ _ handled recreating => ⟨handled, recreating⟩
      settled := fun result settled => absurd settled (unsettled result)
      opened := Or.inl
      kept := id }

/-- A step of a run whose connection does not listen yet. -/
theorem runStep_of_steps
    {run : ℕ} {step : InitializerEvent} {before after : InitializerRun}
    {resources resources' : AmqpResources} {isCurrent : Bool}
    (record : before.Record resources.opened)
    (none : .cancelChannelCommands run ∉ effects)
    (steps :
      InitializerRun.Steps maxAttempts isCurrent before resources step after
        resources') :
    RunStep (.initializer run step) effects run before after := by
  have unsettled := steps.not_settled
  cases steps with
  | moved moves => exact runStep_of_same none unsettled rfl
  | opened phase =>
      exact
        { cancelled := fun cancelling => absurd cancelling none
          disposed := id
          flagged := Or.inl
          silenced := Or.inl
          listening := Or.inl
          recovered := fun _ recreating => Or.inl recreating
          quiet := fun _ _ handled recreating => ⟨handled, recreating⟩
          settled := fun result settled => absurd settled (unsettled result)
          opened := fun _ => Or.inr rfl
          kept := fun _ => nofun }
  | created phase active =>
      rw [AmqpConnection.channelCreated_of_active resources _ active]
      exact
        { cancelled := fun cancelling => absurd cancelling none
          disposed := id
          flagged := Or.inl
          silenced := fun _ => Or.inl rfl
          listening := fun _ => Or.inr unsettled
          recovered := fun _ recreating => Or.inl recreating
          quiet := nofun
          settled := fun result settled => absurd settled (unsettled result)
          opened := Or.inl
          kept := id }
  | createdDisposed phase disposed =>
      unfold AmqpConnection.channelCreated
      dsimp only
      rw [if_pos disposed]
      exact runStep_of_same none unsettled rfl
  | failed phase =>
      have owned := (record.creating _ _ phase).1
      exact
        { cancelled := fun cancelling => absurd cancelling none
          disposed := fun _ => rfl
          flagged := by
            intro _
            refine Or.inr (Or.inr ?_)
            change before.connection.amqplibConnection ≠ .none
            rw [owned]
            exact nofun
          silenced := Or.inl
          listening := Or.inl
          recovered := fun _ recreating => Or.inl recreating
          quiet := fun _ _ handled recreating => ⟨handled, recreating⟩
          settled := fun result settled => absurd settled (unsettled result)
          opened := Or.inl
          kept := id }

theorem runStep_recreateChannel
    {run : ℕ} {current : InitializerRun} (resources : AmqpResources)
    (listens : current.connection.handlesChannels = true) :
    RunStep event [] run current
      { current with
        connection := (current.connection.recreateChannel resources).1 } := by
  cases recreating : current.connection.recreatingChannel with
  | some pending =>
      rw [AmqpConnection.recreateChannel_of_pending resources recreating]
      exact runStep_refl current nofun
  | none =>
      obtain ⟨emptied, next, _⟩ :=
        AmqpConnection.recreateChannel_of_idle resources recreating
      rw [next]
      exact
        { cancelled := nofun
          disposed := id
          flagged := Or.inl
          silenced := Or.inl
          listening := Or.inl
          recovered := fun _ pending => absurd recreating pending
          quiet := fun silent => absurd (listens.symm.trans silent) nofun
          settled := fun _ settled => ⟨settled, rfl⟩
          opened := Or.inl
          kept := id }

/-- A `recreateChannel` is over. -/
theorem runStep_ended
    {run : ℕ} (current : InitializerRun)
    (none : .cancelChannelCommands run ∉ effects)
    (resumed :
      current.connection.handlesChannels = true →
        .resumeChannelCommands run ∈ effects) :
    RunStep event effects run current
      { current with
        connection := { current.connection with recreatingChannel := .none } } where
  cancelled := fun cancelling => absurd cancelling none
  disposed := id
  flagged := Or.inl
  silenced := Or.inl
  listening := Or.inl
  recovered := fun listens _ => Or.inr (Or.inr (resumed listens))
  quiet := fun _ _ handled _ => ⟨handled, rfl⟩
  settled := fun _ settled => ⟨settled, rfl⟩
  opened := Or.inl
  kept := id

theorem Moves.runsStep
    (orderly : wrapper.Orderly)
    (moves : Moves maxAttempts wrapper event effects next) :
    wrapper.RunsStep event effects next := by
  cases moves with
  | ignored served => exact .kept rfl nofun
  | connects unused => exact .added rfl nofun (Or.inl unused.runs)
  | disposes state container pending => exact .kept rfl (by simp)
  | disposesOnline online disposal =>
      exact disposal.runsStep [.cancelCommands] rfl (by simp)
  | @initializes run step current after resources found steps =>
      have record := orderly.custody.records run current found
      have none (other : ℕ) :
          .cancelChannelCommands other ∉ wrapper.initializerEffects run step := by
        rcases initializerEffects_cases found steps with
          empty | ⟨channel, one, _⟩
        · rw [empty]
          exact nofun
        · rw [one]
          simp
      exact .changed run current after found rfl (fun other _ => none other)
        (runStep_of_steps record (none run) steps)
  | connectFails connecting exceeded => exact .kept rfl nofun
  | connectSucceeds connecting last promise handedOut => exact .kept rfl (by simp)
  | connectEnds disposed connecting => exact .kept rfl nofun
  | connectRollsBack disposed connecting disposal =>
      exact disposal.runsStep [] rfl nofun
  | replaces mode connecting reconnecting retired =>
      exact .added rfl nofun (Or.inr reconnecting)
  | reconnectFails reconnecting => exact .kept rfl (by simp)
  | reconnectSucceeds reconnecting last promise handedOut =>
      exact .kept rfl (by simp)
  | reconnectEnds disposed reconnecting => exact .kept rfl nofun
  | reconnectCancelled disposed reconnecting cancelled =>
      exact .kept rfl (by simp)
  | reconnectRollsBack disposed reconnecting disposal =>
      exact disposal.runsStep [] rfl nofun
  | reconnectFinishes disposed reconnecting => exact .kept rfl nofun
  | loses online lost disposal => exact disposal.runsStep [] rfl nofun
  | drops elsewhere lost served disposal =>
      exact disposal.runsStep [] rfl nofun
  | @losesChannel run current found listens =>
      rw [withConnection_of_found _ found]
      exact .changed run current _ found rfl nofun
        (runStep_recreateChannel wrapper.resources listens)
  | @recreatesChannel run amqplibConnection current emissions found active
      recreating announced =>
      have none (other : ℕ) :
          WrapperEffect.cancelChannelCommands other ∉
            [WrapperEffect.channelAvailable
                ⟨amqplibConnection, wrapper.resources.created⟩,
              .resumeChannelCommands run] ++ emissions := by
        rcases announced with rfl | ⟨rfl, _⟩
        · simp
        · simp
      rw [withConnection_of_found _ found]
      refine .changed run current _ found rfl (fun other _ => none other) ?_
      apply runStep_ended current (none run)
      intro _
      exact List.mem_append_left _ (List.mem_cons_of_mem _ List.mem_cons_self)
  | @dropsChannel run settlement current resources found disposed opened channel =>
      have none (other : ℕ) :
          WrapperEffect.cancelChannelCommands other ∉ ([] : List WrapperEffect) :=
        nofun
      refine .changed run current _ found rfl (fun other _ => none other) ?_
      apply runStep_ended current (none run)
      intro listens
      have active :=
        ((orderly.custody.records run current found).listens listens).1
      cases disposed.symm.trans active

theorem RunsStep.now
    {run : ℕ} {before : InitializerRun}
    (runsStep : wrapper.RunsStep event effects next)
    (found : wrapper.runs[run]? = some before) :
    ∃ after, next.runs[run]? = some after ∧
      RunStep event effects run before after := by
  have inRange := (List.getElem?_eq_some_iff.mp found).1
  cases runsStep with
  | kept runs none =>
      rw [runs]
      exact ⟨before, found, runStep_refl before (none run)⟩
  | added runs none retired =>
      rw [runs, List.getElem?_append_left inRange]
      exact ⟨before, found, runStep_refl before (none run)⟩
  | changed other previous after there runs elsewhere step =>
      rw [runs]
      by_cases same : run = other
      · subst same
        cases found.symm.trans there
        exact ⟨after, List.getElem?_set_self inRange, step⟩
      · rw [List.getElem?_set_ne (Ne.symm same)]
        exact ⟨before, found, runStep_refl before (elsewhere run same)⟩

/-- A run was there before the step, or has just been made. -/
theorem RunsStep.before
    {run : ℕ} {after : InitializerRun}
    (runsStep : wrapper.RunsStep event effects next)
    (found : next.runs[run]? = some after) :
    (∃ before, wrapper.runs[run]? = some before ∧
        RunStep event effects run before after) ∨
      (after = .create ∧ run = wrapper.runs.length) := by
  by_cases inside : run < wrapper.runs.length
  · left
    have there := List.getElem?_eq_getElem inside
    obtain ⟨later, atLater, step⟩ := runsStep.now there
    rw [found] at atLater
    cases atLater
    exact ⟨_, there, step⟩
  · right
    have inRange := (List.getElem?_eq_some_iff.mp found).1
    cases runsStep with
    | kept runs none =>
        rw [runs] at inRange
        exact absurd inRange inside
    | added runs none retired =>
        rw [runs, List.length_append, List.length_singleton] at inRange
        have last : run = wrapper.runs.length := by omega
        rw [runs, last, List.getElem?_concat_length] at found
        exact ⟨(Option.some.inj found).symm, last⟩
    | changed other previous later there runs elsewhere step =>
        rw [runs, List.length_set] at inRange
        exact absurd inRange inside

theorem RunsStep.cancelled
    {run : ℕ} (runsStep : wrapper.RunsStep event effects next)
    (cancelling : .cancelChannelCommands run ∈ effects) :
    ∃ before, wrapper.runs[run]? = some before := by
  cases runsStep with
  | kept runs none => exact absurd cancelling (none run)
  | added runs none retired => exact absurd cancelling (none run)
  | changed other before after found runs elsewhere step =>
      by_cases same : run = other
      · subst same
        exact ⟨before, found⟩
      · exact absurd cancelling (elsewhere run same)

/-- A new run is only made when `reconnect` has given up the last one. -/
theorem RunsStep.last
    {run : ℕ} (runsStep : wrapper.RunsStep event effects next)
    (last : wrapper.IsLast run) :
    next.IsLast run ∨ wrapper.reconnecting = some .disposingOld := by
  unfold IsLast at last ⊢
  cases runsStep with
  | kept runs none =>
      rw [runs]
      exact Or.inl last
  | added runs none retired =>
      rcases retired with unused | replacing
      · rw [unused] at last
        cases last
      · exact Or.inr replacing
  | changed other previous after there runs elsewhere step =>
      rw [runs, List.length_set]
      exact Or.inl last

theorem RunsStep.last_before
    {run : ℕ} (runsStep : wrapper.RunsStep event effects next)
    (last : next.IsLast run) :
    wrapper.IsLast run ∨ next.runs[run]? = some .create := by
  unfold IsLast at last ⊢
  cases runsStep with
  | kept runs none =>
      rw [runs] at last
      exact Or.inl last
  | added runs none retired =>
      rw [runs, List.length_append, List.length_singleton] at last
      have same : run = wrapper.runs.length := by omega
      rw [runs, same]
      exact Or.inr List.getElem?_concat_length
  | changed other previous after there runs elsewhere step =>
      rw [runs, List.length_set] at last
      exact Or.inl last

theorem Disposal.cancels
    {run : ℕ} {current : InitializerRun}
    (disposal : wrapper.Disposal run effects next)
    (found : wrapper.runs[run]? = some current) :
    current.connection.isDisposed = true ∨
      .cancelChannelCommands run ∈ effects := by
  cases disposal with
  | ignored inactive => exact Or.inl (inactive current found)
  | disposed other connection there last active ended =>
      exact Or.inr List.mem_cons_self

/-- How a connection in use comes to be replaced. -/
theorem Moves.replacing
    (moves : Moves maxAttempts wrapper event effects next)
    (replacing : next.reconnecting = some .disposingOld) :
    wrapper.reconnecting = some .disposingOld ∨
      ∃ run, wrapper.Online run ∧ wrapper.IsLost event run ∧
        ∀ (current : InitializerRun), wrapper.runs[run]? = some current →
          current.connection.isDisposed = true ∨
            .cancelChannelCommands run ∈ effects := by
  cases moves with
  | ignored served => exact Or.inl replacing
  | connects unused => exact Or.inl replacing
  | disposes state container pending => exact Or.inl replacing
  | disposesOnline online disposal =>
      rw [disposal.cases.1.reconnecting] at replacing
      exact Or.inl replacing
  | initializes found steps => exact Or.inl replacing
  | connectFails connecting exceeded => exact Or.inl replacing
  | connectSucceeds connecting last promise handedOut => exact Or.inl replacing
  | connectEnds disposed connecting => exact Or.inl replacing
  | connectRollsBack disposed connecting disposal =>
      rw [disposal.cases.1.reconnecting] at replacing
      exact Or.inl replacing
  | replaces mode connecting reconnecting retired => cases replacing
  | reconnectFails reconnecting => cases replacing
  | reconnectSucceeds reconnecting last promise handedOut => cases replacing
  | reconnectEnds disposed reconnecting => cases replacing
  | reconnectCancelled disposed reconnecting cancelled => cases replacing
  | reconnectRollsBack disposed reconnecting disposal =>
      rw [disposal.cases.1.reconnecting] at replacing
      cases replacing
  | reconnectFinishes disposed reconnecting => cases replacing
  | @loses run _ _ _ online lost disposal =>
      exact Or.inr
        ⟨run, online, lost, fun current found => disposal.cancels found⟩
  | drops elsewhere lost served disposal =>
      rw [disposal.cases.1.reconnecting] at replacing
      exact Or.inl replacing
  | losesChannel found listens =>
      rw [withConnection_of_found _ found] at replacing
      exact Or.inl replacing
  | recreatesChannel found active recreating announced =>
      rw [withConnection_of_found _ found] at replacing
      exact Or.inl replacing
  | dropsChannel found disposed opened channel => exact Or.inl replacing

end Facts

end AmqpConnectionWrapper

end Amq.Core
