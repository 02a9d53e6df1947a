import Amq.Rpc.FirstOutcome

/-!
# What the container still holds

A command enters the container when it is made and leaves it when the promise of
`wait` has settled.  A call that settles in between, because its command cannot
be serialized or sent or because the sender has been disposed of, leaves its
command behind for good.
-/


namespace Amq.Rpc

open Function Amq.Transition

namespace Ledger

variable {κ Buffer V : Type} [DecidableEq κ]
variable {config : CommandSenderConfig κ Buffer V}
variable {ledger next : Ledger κ V}
variable {records : List (κ × Outcome V)} {abandoned : Bool}

/-- Every correlation id in the container is that of a call in flight. -/
def InFlightOnly (ledger : Ledger κ V) : Prop :=
  ∀ entry ∈ ledger.commandManager.container,
    ∃ (index : ℕ) (call : SendCall κ V), ledger.calls[index]? = some call ∧
      call.phase.correlationId? = some entry.1

omit [DecidableEq κ] in
/-- A call may change if it keeps its id, or if its id is not in the container. -/
theorem InFlightOnly.set
    (sound : ledger.InFlightOnly)
    {place : ℕ} {call call' : SendCall κ V}
    (touched : ledger.calls[place]? = some call)
    {manager : CommandManager κ V}
    (fewer :
      ∀ entry ∈ manager.container, entry ∈ ledger.commandManager.container)
    (kept :
      ∀ correlationId, call.phase.correlationId? = some correlationId →
        call'.phase.correlationId? = some correlationId ∨
          ∀ entry ∈ manager.container, entry.1 ≠ correlationId) :
    InFlightOnly
      { ledger with
        commandManager := manager
        calls := ledger.calls.set place call' } := by
  intro entry member
  obtain ⟨index, other, present, itsId⟩ := sound entry (fewer entry member)
  by_cases same : place = index
  · subst same
    cases Option.some.inj (touched.symm.trans present)
    have inRange := (List.getElem?_eq_some_iff.mp present).1
    rcases kept entry.1 itsId with still | absent
    · exact ⟨place, call', List.getElem?_set_self inRange, still⟩
    · exact absurd rfl (absent entry member)
  · exact ⟨index, other, by rw [List.getElem?_set_ne same, present], itsId⟩

omit [DecidableEq κ] in
theorem InFlightOnly.keep
    (sound : ledger.InFlightOnly)
    {place : ℕ} {call call' : SendCall κ V}
    (touched : ledger.calls[place]? = some call)
    {manager : CommandManager κ V}
    (same : manager.container = ledger.commandManager.container)
    (phase :
      call.phase.correlationId? = none ∨
        call'.phase.correlationId? = call.phase.correlationId?) :
    InFlightOnly
      { ledger with
        commandManager := manager
        calls := ledger.calls.set place call' } := by
  refine sound.set touched (by rw [same]; exact fun _ member => member) ?_
  intro correlationId itsId
  rcases phase with none | unchanged
  · rw [none] at itsId
    cases itsId
  · exact Or.inl (unchanged.trans itsId)

/-- A step that abandons no command keeps the container to calls in flight. -/
theorem InFlightOnly.moves
    (sound : ledger.InFlightOnly)
    (unique : Injective config.generateId)
    (correlated : Correlated config ledger)
    (moved : Moves config ledger records false next) :
    next.InFlightOnly := by
  cases moved with
  | stays => exact sound
  | begins commandName args run =>
      intro entry member
      obtain ⟨index, call, present, itsId⟩ := sound entry member
      have inRange := (List.getElem?_eq_some_iff.mp present).1
      exact ⟨index, call, by rw [List.getElem?_append_left inRange, present], itsId⟩
  | givesUp touched initializing reason =>
      obtain ⟨run, phase⟩ := initializing
      exact sound.keep touched rfl (Or.inl (by rw [phase]; rfl))
  | @sends place call touched initializing active =>
      obtain ⟨run, phase⟩ := initializing
      intro entry member
      rw [CommandManager.create_fst config.generateId ledger.commandManager _ _ _
        (correlated.wellFormed.unused unique)] at member
      rcases List.mem_append.mp member with earlier | new
      · exact sound.keep touched rfl (Or.inl (by rw [phase]; rfl)) entry earlier
      · have inRange := (List.getElem?_eq_some_iff.mp touched).1
        rw [List.mem_singleton.mp new]
        exact ⟨place, _, List.getElem?_set_self inRange, rfl⟩
  | @misses place call correlationId touched sending absent =>
      refine sound.set touched (fun _ member => member) ?_
      intro itsId same
      rw [sending] at same
      cases same
      refine Or.inr ?_
      rintro ⟨other, command⟩ member named
      dsimp only at named
      subst named
      have itsName := correlated.wellFormed.named _ member
      dsimp only at itsName
      subst itsName
      rw [(correlated.wellFormed.get_iff unique command).mpr member] at absent
      cases absent
  | waits touched sending found =>
      exact sound.keep touched rfl (Or.inr (by rw [sending]; rfl))
  | answers touched waiting itsCommand settled =>
      refine sound.set touched (fun _ member => List.mem_of_mem_filter member) ?_
      intro itsId same
      rw [waiting] at same
      cases same
      refine Or.inr ?_
      intro entry member
      simpa using (List.mem_filter.mp member).2
  | timesOut touched running =>
      exact sound.keep touched (CommandManager.settleOne_container _ _ _)
        (Or.inr rfl)
  | records correlationId outcome =>
      intro entry member
      rw [CommandManager.settleOne_container] at member
      exact sound entry member
  | cancels => exact sound

/-- A step that abandons a command leaves its id to no call. -/
theorem not_inFlightOnly_of_abandoned
    (unique : Injective config.generateId)
    (correlated : Correlated config ledger)
    (moved : Moves config ledger records true next) :
    ¬ next.InFlightOnly := by
  intro sound
  cases moved with
  | @unserialized place call touched initializing active =>
      have added :
          (config.generateId ledger.commandManager.generated,
              ledger.commandManager.commands.length) ∈
            (ledger.commandManager.create config.generateId config.queue
              call.commandName call.args).1.container := by
        rw [CommandManager.create_fst config.generateId ledger.commandManager _ _
          _ (correlated.wellFormed.unused unique)]
        exact List.mem_append_right _ List.mem_cons_self
      obtain ⟨index, other, present, itsId⟩ := sound _ added
      refine forall_set
        (fun _ element =>
          element.phase.correlationId? ≠
            some (config.generateId ledger.commandManager.generated))
        (fun _ _ earlier => correlated.fresh unique earlier) ?_ index other
        present itsId
      exact nofun
  | @abandons place call correlationId result touched sending reason =>
      have itsId : call.phase.correlationId? = some correlationId := by
        rw [sending]
        rfl
      obtain ⟨command, _, member⟩ :=
        (correlated.recorded place call touched).inFlight correlationId itsId
      obtain ⟨index, other, present, otherId⟩ := sound _ member
      have own : index = place := by
        by_contra different
        rw [settleCall, List.getElem?_set_ne (Ne.symm different)] at present
        exact different
          (correlated.distinct index place other call correlationId present
            touched otherId itsId)
      subst own
      have inRange := (List.getElem?_eq_some_iff.mp touched).1
      rw [settleCall, List.getElem?_set_self inRange] at present
      cases present
      cases otherId

/-- A call that is in flight after a step was in flight before, unless it has
just got a new id. -/
theorem Moves.inFlight_back
    (moved : Moves config ledger records abandoned next)
    {index : ℕ} {call' : SendCall κ V} {correlationId : κ}
    (found : next.calls[index]? = some call')
    (itsId : call'.phase.correlationId? = some correlationId) :
    correlationId = config.generateId ledger.commandManager.generated ∨
      ∃ call, ledger.calls[index]? = some call ∧
        call.phase.correlationId? = some correlationId := by
  have earlier :
      (∃ call, ledger.calls[index]? = some call) ∨
        call'.phase.correlationId? = none := by
    have atSet {place : ℕ} {call new : SendCall κ V}
        (touched : ledger.calls[place]? = some call)
        (placed : (ledger.calls.set place new)[index]? = some call') :
        (∃ call, ledger.calls[index]? = some call) ∨
          call'.phase.correlationId? = none :=
      forall_set
        (fun index element =>
          (∃ call, ledger.calls[index]? = some call) ∨
            element.phase.correlationId? = none)
        (fun _ call present => Or.inl ⟨call, present⟩) (Or.inl ⟨call, touched⟩)
        index call' placed
    cases moved with
    | stays => exact Or.inl ⟨call', found⟩
    | begins =>
        exact forall_concat
          (fun index element =>
            (∃ call, ledger.calls[index]? = some call) ∨
              element.phase.correlationId? = none)
          (fun _ call present => Or.inl ⟨call, present⟩) (Or.inr rfl) index call'
          found
    | givesUp touched => exact atSet touched found
    | unserialized touched => exact atSet touched found
    | sends touched => exact atSet touched found
    | abandons touched => exact atSet touched found
    | misses touched => exact atSet touched found
    | waits touched => exact atSet touched found
    | answers touched => exact atSet touched found
    | timesOut touched => exact atSet touched found
    | records => exact Or.inl ⟨call', found⟩
    | cancels => exact Or.inl ⟨call', found⟩
  rcases earlier with ⟨call, present⟩ | absent
  · obtain ⟨other, placed, moves⟩ := moved.call present
    cases Option.some.inj (placed.symm.trans found)
    cases moves with
    | stays => exact Or.inr ⟨_, present, itsId⟩
    | givesUp => cases itsId
    | sends =>
        cases itsId
        exact Or.inl rfl
    | abandons => cases itsId
    | waits sending =>
        refine Or.inr ⟨_, present, ?_⟩
        rw [sending]
        exact itsId
    | answers => cases itsId
    | timesOut => exact Or.inr ⟨_, present, itsId⟩
  · rw [absent] at itsId
    cases itsId

/-- What is left behind stays. -/
theorem InFlightOnly.back
    (sound : next.InFlightOnly)
    (unique : Injective config.generateId)
    (correlated : Correlated config ledger)
    (moved : Moves config ledger records abandoned next) :
    ledger.InFlightOnly := by
  intro entry member
  have named := correlated.wellFormed.named entry member
  have older := correlated.wellFormed.present entry member
  have notNew :
      entry.1 ≠ config.generateId ledger.commandManager.generated := by
    intro same
    have equal := unique (named.symm.trans same)
    have length := correlated.wellFormed.generated
    omega
  by_cases remains : entry ∈ next.commandManager.container
  · obtain ⟨index, call', found, itsId⟩ := sound entry remains
    rcases moved.inFlight_back found itsId with new | ⟨call, present, earlierId⟩
    · exact absurd new notNew
    · exact ⟨index, call, present, earlierId⟩
  · cases moved with
    | @answers place _ call correlationId _ _ _ touched waiting itsCommand settled =>
        have same : entry.1 = correlationId := by
          by_contra different
          exact remains (List.mem_filter.mpr ⟨member, by simpa using different⟩)
        refine ⟨place, call, touched, ?_⟩
        rw [waiting, same]
        rfl
    | unserialized =>
        rw [CommandManager.create_fst config.generateId ledger.commandManager _ _
          _ (correlated.wellFormed.unused unique)] at remains
        exact absurd (List.mem_append_left _ member) remains
    | sends =>
        rw [CommandManager.create_fst config.generateId ledger.commandManager _ _
          _ (correlated.wellFormed.unused unique)] at remains
        exact absurd (List.mem_append_left _ member) remains
    | timesOut =>
        rw [CommandManager.settleOne_container] at remains
        exact absurd member remains
    | records =>
        rw [CommandManager.settleOne_container] at remains
        exact absurd member remains
    | _ => exact absurd member remains

end Ledger

namespace CommandSender

variable {κ Buffer V : Type} [DecidableEq κ]

/-- The step abandons no command. -/
def KeepsWaiting
    (config : CommandSenderConfig κ Buffer V)
    (sender : CommandSender κ Buffer V)
    (event : CommandSenderEvent κ Buffer V) : Prop :=
  sender.abandons config event = false

instance (config : CommandSenderConfig κ Buffer V) :
    DecidableRel (KeepsWaiting config) :=
  fun sender event => inferInstanceAs (Decidable (sender.abandons config event = false))

/-- The container holds the ids of calls in flight only, exactly when no step of
the run abandons a command. -/
theorem inFlightOnly_iff
    (config : CommandSenderConfig κ Buffer V)
    (unique : Injective config.generateId)
    (schedule : List (CommandSenderEvent κ Buffer V))
    (final : CommandSender κ Buffer V)
    (execution : (machine config).run (create config) schedule = some final) :
    final.ledger.InFlightOnly ↔
      (machine config).Throughout (KeepsWaiting config) (create config)
        schedule := by
  refine Machine.sound_iff_throughout
    (fun sender : CommandSender κ Buffer V => sender.ledger.InFlightOnly)
    (KeepsWaiting config) (correlated_preserved unique) ?_ ?_
    (correlated_create config) ?_ execution
  · intro sender event next correlated stepped sound
    exact sound.back unique correlated (Ledger.moves_of_step stepped)
  · intro sender event next correlated sound stepped
    have moved := Ledger.moves_of_step stepped
    unfold KeepsWaiting
    cases abandoned : sender.abandons config event with
    | false =>
        rw [abandoned] at moved
        exact iff_of_true (sound.moves unique correlated moved) rfl
    | true =>
        rw [abandoned] at moved
        exact iff_of_false
          (Ledger.not_inFlightOnly_of_abandoned unique correlated moved) nofun
  · intro entry member
    cases member

/-- A second command is sent before the first one is answered twice. -/
def secondSent : List (CommandSenderEvent ℕ String Unit) :=
  firstSent ++ [.sendCommand "second" (), .initialized 1] ++ repliedTwice.take 4

theorem inFlightOnly_iff_repliedTwice :
    ∃ final : CommandSender ℕ String Unit,
      (machine unitConfig).run (create unitConfig) secondSent = some final ∧
        final.commandManager.container = [(1, 1)] ∧ final.ledger.InFlightOnly :=
  ⟨_, rfl, rfl,
    (inFlightOnly_iff unitConfig injective_id secondSent _ rfl).mpr (by decide)⟩

/-- The command of a call is made, but the broker does not take it. -/
def sendRejected : List (CommandSenderEvent ℕ String Unit) :=
  firstSent ++ [.sendSettled 0 .rejected]

/-- The call has settled, and the container still holds its correlation id. -/
theorem sendRejected_leaves_command :
    ¬ ∀ (config : CommandSenderConfig ℕ String Unit)
        (schedule : List (CommandSenderEvent ℕ String Unit))
        (final : CommandSender ℕ String Unit),
        Injective config.generateId →
        (machine config).run (create config) schedule = some final →
          final.ledger.InFlightOnly := by
  intro always
  have sound := always unitConfig sendRejected _ injective_id rfl
  obtain ⟨index, call, present, itsId⟩ := sound (0, 0) List.mem_cons_self
  cases index with
  | zero =>
      cases present
      cases itsId
  | succ index => cases present

end CommandSender

end Amq.Rpc
