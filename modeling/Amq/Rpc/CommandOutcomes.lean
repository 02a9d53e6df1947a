import Amq.Rpc.CommandManager
import Amq.Transition.Records

/-!
# The outcomes of commands

Every way to end a command settles the `Command` that the container holds for a
correlation id.  As long as no id is generated twice, an id leads to one command
only, and a command takes the first of the outcomes that are recorded for it.
-/


namespace Amq.Rpc

open Function

/-- What a reply, a returned message, a timer or a disposal ends a command with. -/
inductive Outcome (V : Type) where
  | succeeded (data : Option V)
  | failed (error : Rejection V)
  | failedWithCode (code : ErrorCode)
  deriving DecidableEq

/-- The status to which an outcome leads. -/
def Outcome.status {V : Type} (command : Command V) : Outcome V → CommandStatus V
  | .succeeded data => .succeeded data
  | .failed error => .failed (.rejection error)
  | .failedWithCode code => .failed (command.failureWithCode code)

theorem Outcome.status_ne_ready {V : Type}
    (command : Command V) (outcome : Outcome V) :
    outcome.status command ≠ .ready := by
  cases outcome <;> exact nofun

namespace Command

variable {V : Type}

/-- One outcome after another is recorded for the command. -/
def settleAll (command : Command V) (outcomes : List (Outcome V)) : Command V :=
  outcomes.foldl (fun current outcome => current.settle (outcome.status current))
    command

theorem settle_of_settled
    {command : Command V} (settled : command.status ≠ .ready)
    (status : CommandStatus V) :
    command.settle status = command := by
  unfold settle
  split
  · rename_i ready
    exact absurd ready settled
  · rfl

theorem settle_of_ready
    {command : Command V} (ready : command.status = .ready)
    (status : CommandStatus V) :
    command.settle status = { command with status := status } := by
  unfold settle
  rw [ready]

theorem settle_status_ne_ready
    (command : Command V) (outcome : Outcome V) :
    (command.settle (outcome.status command)).status ≠ .ready := by
  by_cases ready : command.status = .ready
  · rw [settle_of_ready ready]
    exact Outcome.status_ne_ready command outcome
  · rw [settle_of_settled ready]
    exact ready

@[simp]
theorem settleAll_nil (command : Command V) : command.settleAll [] = command :=
  rfl

theorem settleAll_cons
    (command : Command V) (outcome : Outcome V) (later : List (Outcome V)) :
    command.settleAll (outcome :: later) =
      (command.settle (outcome.status command)).settleAll later :=
  rfl

theorem settleAll_append
    (command : Command V) (earlier later : List (Outcome V)) :
    command.settleAll (earlier ++ later) =
      (command.settleAll earlier).settleAll later :=
  List.foldl_append

theorem settleAll_of_settled
    {command : Command V} (settled : command.status ≠ .ready)
    (outcomes : List (Outcome V)) :
    command.settleAll outcomes = command := by
  induction outcomes with
  | nil => rfl
  | cons outcome later inductionHypothesis =>
      rw [settleAll_cons, settle_of_settled settled]
      exact inductionHypothesis

/-- The first outcome decides. -/
theorem settleAll_of_ready
    {command : Command V} (ready : command.status = .ready)
    (first : Outcome V) (later : List (Outcome V)) :
    command.settleAll (first :: later) =
      { command with status := first.status command } := by
  rw [settleAll_cons, settleAll_of_settled (settle_status_ne_ready command first),
    settle_of_ready ready]

theorem settle_waiter (command : Command V) (status : CommandStatus V) :
    (command.settle status).waiter = command.waiter := by
  unfold settle
  split <;> rfl

/-- Whether a call waits for the command makes no difference to its outcome. -/
theorem settle_setWaiter
    (command : Command V) (outcome : Outcome V) (waiter : Option ℕ) :
    { command with waiter := waiter }.settle
        (outcome.status { command with waiter := waiter }) =
      { command.settle (outcome.status command) with waiter := waiter } := by
  have sameStatus :
      outcome.status { command with waiter := waiter } =
        outcome.status command := by
    cases outcome <;> rfl
  rw [sameStatus]
  by_cases ready : command.status = .ready
  · have readyToo : { command with waiter := waiter }.status = .ready := ready
    rw [settle_of_ready ready, settle_of_ready readyToo]
  · have settledToo : { command with waiter := waiter }.status ≠ .ready := ready
    rw [settle_of_settled ready, settle_of_settled settledToo]

theorem settleAll_setWaiter
    (command : Command V) (outcomes : List (Outcome V)) (waiter : Option ℕ) :
    { command with waiter := waiter }.settleAll outcomes =
      { command.settleAll outcomes with waiter := waiter } := by
  induction outcomes generalizing command with
  | nil => rfl
  | cons outcome later inductionHypothesis =>
      rw [settleAll_cons, settleAll_cons, settle_setWaiter]
      exact inductionHypothesis _

/-- `wait` changes no more than the waiter. -/
theorem wait_eq (command : Command V) (call : ℕ) :
    ∃ waiter, command.wait call = { command with waiter := waiter } := by
  unfold wait
  split
  · exact ⟨some call, rfl⟩
  · exact ⟨command.waiter, rfl⟩

end Command

namespace CommandManager

variable {κ V : Type} [DecidableEq κ]

/-- `succeed`, `failOneWithError` and `failOneWithCode` in one. -/
def settleOne
    (manager : CommandManager κ V) (correlationId : κ) (outcome : Outcome V) :
    CommandManager κ V :=
  match manager.get correlationId with
  | none => manager
  | some command =>
      manager.update command fun object => object.settle (outcome.status object)

/-- The outcomes that `failAllWithCode` records. -/
def failures
    (manager : CommandManager κ V) (code : ErrorCode) : List (κ × Outcome V) :=
  manager.container.map fun entry => (entry.1, .failedWithCode code)

omit [DecidableEq κ] in
theorem update_commands
    (manager : CommandManager κ V) (command : ℕ)
    (operation : Command V → Command V) (index : ℕ) :
    (manager.update command operation).commands[index]? =
      (manager.commands[index]?).map fun object =>
        if index = command then operation object else object := by
  unfold update
  by_cases same : index = command
  · subst same
    cases present : manager.commands[index]? with
    | none => simp [present]
    | some object =>
        have inRange := (List.getElem?_eq_some_iff.mp present).1
        simp [List.getElem?_set_self inRange]
  · cases present : manager.commands[command]? with
    | none => simp [same]
    | some object =>
        simp [List.getElem?_set_ne (Ne.symm same), same]

@[simp]
theorem settleOne_container
    (manager : CommandManager κ V) (correlationId : κ) (outcome : Outcome V) :
    (manager.settleOne correlationId outcome).container = manager.container := by
  unfold settleOne
  split <;> rfl

omit [DecidableEq κ] in
theorem failAllWithCode_commands
    (manager : CommandManager κ V) (code : ErrorCode) (index : ℕ) :
    (manager.failAllWithCode code).commands[index]? =
      (manager.commands[index]?).map fun object =>
        if manager.container.any fun entry => entry.2 = index then
          object.settle ((Outcome.failedWithCode code).status object)
        else
          object := by
  unfold failAllWithCode
  rw [List.getElem?_mapIdx]
  rfl

/-- What `create` adds: an id that is not in use gets a new entry. -/
theorem create_fst
    (generateId : ℕ → κ) (manager : CommandManager κ V)
    (queue commandName : String) (args : V)
    (unused :
      ∀ entry ∈ manager.container, entry.1 ≠ generateId manager.generated) :
    (manager.create generateId queue commandName args).1 =
      { generated := manager.generated + 1
        commands := manager.commands ++ [Command.create queue commandName args]
        container :=
          manager.container ++
            [(generateId manager.generated, manager.commands.length)] } := by
  have absent :
      (manager.container.any fun entry =>
        entry.1 = generateId manager.generated) = false := by
    rw [List.any_eq_false]
    intro entry member
    simpa using unused entry member
  unfold create set
  simp only [absent, Bool.false_eq_true, if_false]

/-! ## Ids that are not repeated -/

/-- The container holds commands under their own ids, and every command that is
ready. -/
structure WellFormed
    (generateId : ℕ → κ) (manager : CommandManager κ V) : Prop where
  generated : manager.generated = manager.commands.length
  present : ∀ entry ∈ manager.container, entry.2 < manager.commands.length
  named : ∀ entry ∈ manager.container, entry.1 = generateId entry.2
  ready :
    ∀ index object, manager.commands[index]? = some object →
      object.status = .ready → (generateId index, index) ∈ manager.container

variable {generateId : ℕ → κ} {manager : CommandManager κ V}

omit [DecidableEq κ] in
theorem wellFormed_empty (generateId : ℕ → κ) :
    (empty : CommandManager κ V).WellFormed generateId :=
  ⟨rfl, nofun, nofun, nofun⟩

omit [DecidableEq κ] in
theorem WellFormed.unused
    (wellFormed : manager.WellFormed generateId)
    (unique : Injective generateId) :
    ∀ entry ∈ manager.container, entry.1 ≠ generateId manager.generated := by
  intro entry member same
  have older := wellFormed.present entry member
  rw [wellFormed.named entry member] at same
  have equal := unique same
  have length := wellFormed.generated
  omega

/-- An id in the container leads to its own command. -/
theorem WellFormed.get_iff
    (wellFormed : manager.WellFormed generateId)
    (unique : Injective generateId) (command : ℕ) :
    manager.get (generateId command) = some command ↔
      (generateId command, command) ∈ manager.container := by
  unfold get
  constructor
  · intro found
    obtain ⟨entry, searched, rfl⟩ := Option.map_eq_some_iff.mp found
    have member := List.mem_of_find?_eq_some searched
    have named := wellFormed.named entry member
    rw [← named]
    exact member
  · intro member
    cases searched :
        manager.container.find? fun entry => entry.1 = generateId command with
    | none =>
        have absent := List.find?_eq_none.mp searched _ member
        simp at absent
    | some entry =>
        have found := List.mem_of_find?_eq_some searched
        have matching : entry.1 = generateId command := by
          simpa using List.find?_some searched
        have same : entry.2 = command :=
          unique ((wellFormed.named entry found).symm.trans matching)
        rw [Option.map_some, same]

theorem WellFormed.get_eq_some
    (wellFormed : manager.WellFormed generateId)
    {correlationId : κ} {command : ℕ}
    (found : manager.get correlationId = some command) :
    correlationId = generateId command ∧
      (correlationId, command) ∈ manager.container := by
  unfold get at found
  obtain ⟨entry, searched, rfl⟩ := Option.map_eq_some_iff.mp found
  have member := List.mem_of_find?_eq_some searched
  have matching : entry.1 = correlationId := by
    simpa using List.find?_some searched
  subst matching
  exact ⟨wellFormed.named entry member, member⟩

/-- What an outcome recorded for an id does to a command. -/
theorem WellFormed.settleOne_commands
    (wellFormed : manager.WellFormed generateId)
    (unique : Injective generateId)
    (correlationId : κ) (outcome : Outcome V) (index : ℕ) :
    (manager.settleOne correlationId outcome).commands[index]? =
      (manager.commands[index]?).map fun object =>
        if correlationId = generateId index then
          object.settle (outcome.status object)
        else
          object := by
  unfold settleOne
  cases found : manager.get correlationId with
  | none =>
      cases present : manager.commands[index]? with
      | none => simp
      | some object =>
          rw [Option.map_some]
          by_cases own : correlationId = generateId index
          · have settled : object.status ≠ .ready := by
              intro ready
              have held := wellFormed.ready index object present ready
              rw [own, (wellFormed.get_iff unique index).mpr held] at found
              cases found
            rw [if_pos own, Command.settle_of_settled settled]
          · rw [if_neg own]
  | some command =>
      have named := (wellFormed.get_eq_some found).1
      have decided : correlationId = generateId index ↔ index = command := by
        rw [named]
        constructor
        · exact fun same => (unique same).symm
        · exact fun same => same ▸ rfl
      simp only [update_commands, decided]

/-! ## Operations keep the container well-formed -/

omit [DecidableEq κ] in
theorem WellFormed.update
    (wellFormed : manager.WellFormed generateId)
    (command : ℕ) (operation : Command V → Command V)
    (settles :
      ∀ object, (operation object).status = .ready → object.status = .ready) :
    (manager.update command operation).WellFormed generateId := by
  have sameLength :
      (manager.update command operation).commands.length =
        manager.commands.length := by
    unfold CommandManager.update
    dsimp only
    split
    · rfl
    · exact List.length_set
  refine ⟨?_, ?_, wellFormed.named, ?_⟩
  · rw [sameLength]
    exact wellFormed.generated
  · rw [sameLength]
    exact wellFormed.present
  · intro index object present ready
    rw [update_commands] at present
    obtain ⟨earlier, found, rfl⟩ := Option.map_eq_some_iff.mp present
    refine wellFormed.ready index earlier found ?_
    split at ready
    · exact settles earlier ready
    · exact ready

theorem WellFormed.settleOne
    (wellFormed : manager.WellFormed generateId)
    (correlationId : κ) (outcome : Outcome V) :
    (manager.settleOne correlationId outcome).WellFormed generateId := by
  unfold CommandManager.settleOne
  split
  · exact wellFormed
  · refine wellFormed.update _ _ ?_
    intro object ready
    exact absurd ready (Command.settle_status_ne_ready object outcome)

omit [DecidableEq κ] in
theorem WellFormed.failAllWithCode
    (wellFormed : manager.WellFormed generateId) (code : ErrorCode) :
    (manager.failAllWithCode code).WellFormed generateId := by
  have sameLength :
      (manager.failAllWithCode code).commands.length =
        manager.commands.length := List.length_mapIdx
  refine ⟨?_, ?_, wellFormed.named, ?_⟩
  · rw [sameLength]
    exact wellFormed.generated
  · rw [sameLength]
    exact wellFormed.present
  · intro index object present ready
    rw [failAllWithCode_commands] at present
    obtain ⟨earlier, found, rfl⟩ := Option.map_eq_some_iff.mp present
    refine wellFormed.ready index earlier found ?_
    split at ready
    · exact absurd ready (Command.settle_status_ne_ready earlier _)
    · exact ready

omit [DecidableEq κ] in
/-- After `failAllWithCode` no command is ready. -/
theorem WellFormed.failAllWithCode_settled
    (wellFormed : manager.WellFormed generateId) (code : ErrorCode)
    {index : ℕ} {object : Command V}
    (present : (manager.failAllWithCode code).commands[index]? = some object) :
    object.status ≠ .ready := by
  intro ready
  rw [failAllWithCode_commands] at present
  obtain ⟨earlier, found, rfl⟩ := Option.map_eq_some_iff.mp present
  split at ready
  · exact Command.settle_status_ne_ready earlier _ ready
  · rename_i absent
    refine absent (List.any_eq_true.mpr ⟨_, wellFormed.ready index earlier found
      ready, ?_⟩)
    exact decide_eq_true rfl

theorem WellFormed.create
    (wellFormed : manager.WellFormed generateId)
    (unique : Injective generateId) (queue commandName : String) (args : V) :
    (manager.create generateId queue commandName args).1.WellFormed
      generateId := by
  rw [create_fst generateId manager queue commandName args
    (wellFormed.unused unique)]
  refine ⟨?_, ?_, ?_, ?_⟩
  · simp [wellFormed.generated]
  · intro entry member
    simp only [List.length_append, List.length_singleton]
    rcases List.mem_append.mp member with earlier | new
    · have older := wellFormed.present entry earlier
      omega
    · rw [List.mem_singleton.mp new]
      exact Nat.lt_succ_self _
  · intro entry member
    rcases List.mem_append.mp member with earlier | new
    · exact wellFormed.named entry earlier
    · rw [List.mem_singleton.mp new, wellFormed.generated]
  · intro index object present ready
    rcases Transition.concat_cases present with earlier | ⟨last, _⟩
    · exact List.mem_append_left _ (wellFormed.ready index object earlier ready)
    · rw [last, wellFormed.generated]
      exact List.mem_append_right _ List.mem_cons_self

/-- A settled command may leave the container. -/
theorem WellFormed.delete
    (wellFormed : manager.WellFormed generateId)
    (unique : Injective generateId) {command : ℕ}
    (settled :
      ∀ object, manager.commands[command]? = some object →
        object.status ≠ .ready) :
    (manager.delete (generateId command)).WellFormed generateId := by
  refine ⟨wellFormed.generated, ?_, ?_, ?_⟩
  · exact fun entry member =>
      wellFormed.present entry (List.mem_of_mem_filter member)
  · exact fun entry member =>
      wellFormed.named entry (List.mem_of_mem_filter member)
  · intro index object present ready
    have held := wellFormed.ready index object present ready
    refine List.mem_filter.mpr ⟨held, ?_⟩
    have different : index ≠ command := by
      intro same
      subst same
      exact settled object present ready
    have otherId : generateId index ≠ generateId command :=
      fun same => different (unique same)
    simpa using otherId

end CommandManager

end Amq.Rpc
