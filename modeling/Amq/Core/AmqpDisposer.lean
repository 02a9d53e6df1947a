import Amq.JsNumber
import Amq.JsSet
import Amq.Transition.Monitor
import Amq.Transition.Records

/-!
# The disposer

A disposal is a race of a timer, of the "close" event and of `close()`.  Its
promise stays in a set until the race is over, and `flush` takes all promises
out of the set before it waits for them.  A disposal counts as settled when its
`finally` callback has run.
-/

namespace Amq.Core

open Amq.Transition

/-- `disposeConnection` and `disposeChannel` differ in what they dispose of. -/
inductive DisposalKind where
  | connection
  | channel
  deriving DecidableEq, Repr

/-- How the promise of `close()` settles. -/
inductive ClosingOutcome where
  | fulfilled
  | rejectedWithError (message : String)
  /-- With something that is no `Error`. -/
  | rejectedOtherwise
  deriving DecidableEq, Repr

namespace DisposalKind

/-- Messages that start like this say that there is nothing left to close. -/
def toleratedMessages : DisposalKind → List String
  | .connection => ["connection closed", "connection closing"]
  | .channel => ["channel closed", "channel closing", "channel ended"]

/-- The function around `close()`, which throws all other errors again. -/
def close (kind : DisposalKind) : ClosingOutcome → Settlement
  | .fulfilled => .fulfilled
  | .rejectedWithError message =>
      if kind.toleratedMessages.any fun start =>
          start.toList.isPrefixOf message.toLower.toList then
        .fulfilled
      else
        .rejected
  | .rejectedOtherwise => .fulfilled

end DisposalKind

/-- The participants of the race. -/
inductive Racer where
  | timer
  | closeEvent
  | closing
  deriving DecidableEq, Repr

structure Disposal where
  kind : DisposalKind
  hasTimedOut : Bool
  hasClosed : Bool
  closing : Option ClosingOutcome
  /-- How the promise of the disposal has settled. -/
  settled : Option Settlement
  deriving DecidableEq

/-- `wrap`: a rejection leaves the promise pending for ever. -/
def Disposal.wrap : Settlement → Option Settlement
  | .fulfilled => some .fulfilled
  | .rejected => none

/-- What a participant has settled with. -/
def Disposal.outcome (disposal : Disposal) : Racer → Option Settlement
  | .timer => if disposal.hasTimedOut then some .fulfilled else none
  | .closeEvent => if disposal.hasClosed then wrap .fulfilled else none
  | .closing =>
      disposal.closing.bind fun outcome => wrap (disposal.kind.close outcome)

/-- A call of `flush`. -/
inductive Flush where
  /-- On `Promise.all` of these disposals. -/
  | awaiting (disposals : List ℕ)
  | resolved
  | rejected
  deriving DecidableEq

structure AmqpDisposer where
  disposals : List Disposal
  /-- The set of promises, each known by its disposal. -/
  promises : JsSet ℕ
  flushes : List Flush

inductive AmqpDisposerEvent where
  | dispose (kind : DisposalKind)
  | timedOut (index : ℕ)
  | closeEmitted (index : ℕ)
  | closeSettled (index : ℕ) (outcome : ClosingOutcome)
  /-- The race is over, and the `finally` callback runs. -/
  | settled (index : ℕ) (winner : Racer)
  | flush
  /-- `flush` goes on after its await. -/
  | flushResumed (index : ℕ)
  deriving DecidableEq, Repr

namespace AmqpDisposer

def create : AmqpDisposer where
  disposals := []
  promises := .empty
  flushes := []

/-- Up to the await of the promise. -/
def dispose (disposer : AmqpDisposer) (kind : DisposalKind) : AmqpDisposer :=
  { disposer with
    disposals :=
      disposer.disposals ++
        [{ kind := kind
           hasTimedOut := false
           hasClosed := false
           closing := none
           settled := none }]
    promises := disposer.promises.add disposer.disposals.length }

/-- A participant of the race of a disposal settles. -/
def progress
    (disposer : AmqpDisposer) (index : ℕ) (update : Disposal → Disposal) :
    Option AmqpDisposer :=
  (disposer.disposals[index]?).map fun disposal =>
    { disposer with disposals := disposer.disposals.set index (update disposal) }

def settle (disposer : AmqpDisposer) (index : ℕ) (winner : Racer) :
    Option AmqpDisposer :=
  match disposer.disposals[index]? with
  | none => none
  | some disposal =>
      if disposal.settled.isSome then
        none
      else
        (disposal.outcome winner).map fun settlement =>
          { disposer with
            disposals :=
              disposer.disposals.set index
                { disposal with settled := some settlement }
            promises := disposer.promises.delete index }

/-- `flush` at the head of its loop, with what it leaves in the set. -/
def flushLoop (promises : JsSet ℕ) : Flush × JsSet ℕ :=
  if 0 < promises.size then (.awaiting promises.values, .empty)
  else (.resolved, promises)

def flush (disposer : AmqpDisposer) : AmqpDisposer :=
  let (flush, promises) := flushLoop disposer.promises
  { disposer with
    promises := promises
    flushes := disposer.flushes ++ [flush] }

/-- The promise of a disposal has settled like this. -/
def settledWith (disposer : AmqpDisposer) (settlement : Settlement) (index : ℕ) :
    Bool :=
  (disposer.disposals[index]?).any (·.settled = some settlement)

/-- `Promise.all` rejects with the first rejection and else waits for all. -/
def flushResumed (disposer : AmqpDisposer) (index : ℕ) : Option AmqpDisposer :=
  match disposer.flushes[index]? with
  | some (.awaiting batch) =>
      if batch.any (disposer.settledWith .rejected) then
        some
          { disposer with flushes := disposer.flushes.set index .rejected }
      else if batch.all (disposer.settledWith .fulfilled) then
        let (flush, promises) := flushLoop disposer.promises
        some
          { disposer with
            promises := promises
            flushes := disposer.flushes.set index flush }
      else
        none
  | _ => none

def step (disposer : AmqpDisposer) : AmqpDisposerEvent → Option AmqpDisposer
  | .dispose kind => some (disposer.dispose kind)
  | .timedOut index =>
      disposer.progress index fun disposal =>
        { disposal with hasTimedOut := true }
  | .closeEmitted index =>
      disposer.progress index fun disposal => { disposal with hasClosed := true }
  | .closeSettled index outcome =>
      disposer.progress index fun disposal =>
        { disposal with closing := disposal.closing.or (some outcome) }
  | .settled index winner => disposer.settle index winner
  | .flush => some disposer.flush
  | .flushResumed index => disposer.flushResumed index

def machine : Machine AmqpDisposer AmqpDisposerEvent where
  initial := create
  step := step

/-! ## What a call of `flush` should do -/

def AllSettled (disposer : AmqpDisposer) : Prop :=
  ∀ disposal ∈ disposer.disposals, disposal.settled.isSome

/-- If the event resolves a call of `flush`, every disposal has settled that was
started before, be it before the call or while the call was pending. -/
def ResolvesAfterAll (disposer : AmqpDisposer) (event : AmqpDisposerEvent) :
    Prop :=
  ∀ (next : AmqpDisposer) (index : ℕ), disposer.step event = some next →
    next.flushes[index]? = some Flush.resolved →
      disposer.flushes[index]? ≠ some Flush.resolved → next.AllSettled

/-- What should hold of the calls of `flush` of a run. -/
structure FlushesWell
    (schedule : List AmqpDisposerEvent) (disposer : AmqpDisposer) : Prop where
  resolves_after_all : machine.Throughout ResolvesAfterAll create schedule
  never_rejects : ∀ flush ∈ disposer.flushes, flush ≠ .rejected
  /-- Once no disposal is pending, every call that still waits is about to be
  resolved. -/
  resolves :
    disposer.AllSettled →
      ∀ index batch, disposer.flushes[index]? = some (Flush.awaiting batch) →
        ∃ next, disposer.step (.flushResumed index) = some next ∧
          next.flushes[index]? = some Flush.resolved

/-- No other call of `flush` waits for a disposal that is still pending. -/
def OthersDone (disposer : AmqpDisposer) (index : ℕ) : Prop :=
  ∀ other batch, other ≠ index →
    disposer.flushes[other]? = some (Flush.awaiting batch) →
      ∀ place ∈ batch, ∀ disposal,
        disposer.disposals[place]? = some disposal → disposal.settled.isSome

/-- A call of `flush` that finds the set empty, at first or after its await, is
the only one that still had to wait for anything. -/
def LeavesAlone (disposer : AmqpDisposer) : AmqpDisposerEvent → Prop
  | .flush =>
      disposer.promises.size = 0 → disposer.OthersDone disposer.flushes.length
  | .flushResumed index =>
      disposer.promises.size = 0 → disposer.OthersDone index
  | _ => True

/-! ## What a step can do -/

inductive Steps (disposer : AmqpDisposer) :
    AmqpDisposerEvent → AmqpDisposer → Prop
  | disposed (kind : DisposalKind) :
      Steps disposer (.dispose kind) (disposer.dispose kind)
  | progressed {event : AmqpDisposerEvent} {index : ℕ} {old new : Disposal}
      (present : disposer.disposals[index]? = some old)
      (same : new.settled = old.settled)
      (notFlush : event ≠ .flush ∧ ∀ flush, event ≠ .flushResumed flush) :
      Steps disposer event
        { disposer with disposals := disposer.disposals.set index new }
  | settled {index : ℕ} {winner : Racer} {old : Disposal}
      (present : disposer.disposals[index]? = some old)
      (pending : old.settled = none) :
      Steps disposer (.settled index winner)
        { disposer with
          disposals :=
            disposer.disposals.set index { old with settled := some .fulfilled }
          promises := disposer.promises.delete index }
  | flushed : Steps disposer .flush disposer.flush
  | rejected {index : ℕ} {batch : List ℕ} {place : ℕ}
      (present : disposer.flushes[index]? = some (Flush.awaiting batch))
      (member : place ∈ batch)
      (failed : disposer.settledWith .rejected place = true) :
      Steps disposer (.flushResumed index)
        { disposer with flushes := disposer.flushes.set index .rejected }
  | resumed {index : ℕ} {batch : List ℕ}
      (present : disposer.flushes[index]? = some (Flush.awaiting batch))
      (fulfilled :
        ∀ place ∈ batch, disposer.settledWith .fulfilled place = true) :
      Steps disposer (.flushResumed index)
        { disposer with
          promises := (flushLoop disposer.promises).2
          flushes :=
            disposer.flushes.set index (flushLoop disposer.promises).1 }

/-- A race can only be won by a promise that is fulfilled. -/
theorem eq_fulfilled_of_outcome
    {disposal : Disposal} {winner : Racer} {settlement : Settlement}
    (won : disposal.outcome winner = some settlement) :
    settlement = .fulfilled := by
  have wrapped (inner : Settlement)
      (kept : Disposal.wrap inner = some settlement) :
      settlement = .fulfilled := by
    cases inner with
    | fulfilled => exact (Option.some.inj kept).symm
    | rejected => cases kept
  cases winner with
  | timer =>
      change (if disposal.hasTimedOut then some Settlement.fulfilled else none) =
        some settlement at won
      by_cases fired : disposal.hasTimedOut = true
      · rw [if_pos fired] at won
        exact (Option.some.inj won).symm
      · rw [if_neg fired] at won
        cases won
  | closeEvent =>
      change (if disposal.hasClosed then Disposal.wrap .fulfilled else none) =
        some settlement at won
      by_cases closed : disposal.hasClosed = true
      · rw [if_pos closed] at won
        exact wrapped .fulfilled won
      · rw [if_neg closed] at won
        cases won
  | closing =>
      obtain ⟨outcome, _, kept⟩ := Option.bind_eq_some_iff.mp won
      exact wrapped _ kept

theorem steps_of_progress
    {disposer next : AmqpDisposer} {event : AmqpDisposerEvent} {index : ℕ}
    {update : Disposal → Disposal}
    (progressed : disposer.progress index update = some next)
    (same : ∀ disposal, (update disposal).settled = disposal.settled)
    (notFlush : event ≠ .flush ∧ ∀ flush, event ≠ .flushResumed flush) :
    Steps disposer event next := by
  obtain ⟨old, present, itself⟩ := Option.map_eq_some_iff.mp progressed
  subst itself
  exact .progressed present (same old) notFlush

theorem steps_of_step
    {disposer next : AmqpDisposer} {event : AmqpDisposerEvent}
    (stepped : disposer.step event = some next) : Steps disposer event next := by
  cases event with
  | dispose kind =>
      cases stepped
      exact .disposed kind
  | timedOut index =>
      exact steps_of_progress stepped (fun _ => rfl) ⟨nofun, nofun⟩
  | closeEmitted index =>
      exact steps_of_progress stepped (fun _ => rfl) ⟨nofun, nofun⟩
  | closeSettled index outcome =>
      exact steps_of_progress stepped (fun _ => rfl) ⟨nofun, nofun⟩
  | settled index winner =>
      change disposer.settle index winner = some next at stepped
      unfold settle at stepped
      cases present : disposer.disposals[index]? with
      | none =>
          rw [present] at stepped
          cases stepped
      | some old =>
          rw [present] at stepped
          dsimp only at stepped
          by_cases isOver : old.settled.isSome = true
          · rw [if_pos isOver] at stepped
            cases stepped
          · rw [if_neg isOver] at stepped
            obtain ⟨settlement, won, itself⟩ := Option.map_eq_some_iff.mp stepped
            have fulfilled := eq_fulfilled_of_outcome won
            subst fulfilled itself
            have pending : old.settled = none := by
              cases present : old.settled with
              | none => rfl
              | some earlier => exact absurd (by rw [present]; rfl) isOver
            exact .settled present pending
  | flush =>
      cases stepped
      exact .flushed
  | flushResumed index =>
      change disposer.flushResumed index = some next at stepped
      unfold flushResumed at stepped
      cases present : disposer.flushes[index]? with
      | none =>
          rw [present] at stepped
          cases stepped
      | some flush =>
          rw [present] at stepped
          cases flush with
          | resolved => cases stepped
          | rejected => cases stepped
          | awaiting batch =>
              dsimp only at stepped
              by_cases failed :
                  batch.any (disposer.settledWith .rejected) = true
              · rw [if_pos failed] at stepped
                obtain ⟨place, member, rejected⟩ := List.any_eq_true.mp failed
                cases stepped
                exact .rejected present member rejected
              · rw [if_neg failed] at stepped
                by_cases done :
                    batch.all (disposer.settledWith .fulfilled) = true
                · rw [if_pos done] at stepped
                  cases stepped
                  exact .resumed present (List.all_eq_true.mp done)
                · rw [if_neg done] at stepped
                  cases stepped

/-! ## Where the pending disposals are -/

/-- A pending disposal is in the set, or a call of `flush` has taken it out and
waits for it. -/
structure Accounted (disposer : AmqpDisposer) : Prop where
  members :
    ∀ place ∈ disposer.promises, ∃ disposal,
      disposer.disposals[place]? = some disposal ∧ disposal.settled = none
  pending :
    ∀ (place : ℕ) (disposal : Disposal),
      disposer.disposals[place]? = some disposal → disposal.settled = none →
        place ∈ disposer.promises ∨
          ∃ batch, Flush.awaiting batch ∈ disposer.flushes ∧ place ∈ batch
  started :
    ∀ batch, Flush.awaiting batch ∈ disposer.flushes →
      ∀ place ∈ batch, ∃ disposal, disposer.disposals[place]? = some disposal
  fulfilled :
    ∀ disposal ∈ disposer.disposals, disposal.settled ≠ some .rejected
  not_rejected : ∀ flush ∈ disposer.flushes, flush ≠ .rejected

theorem accounted_create : Accounted create where
  members := fun place member => absurd member (JsSet.not_mem_empty place)
  pending := nofun
  started := nofun
  fulfilled := nofun
  not_rejected := nofun

section Steps

variable {disposer next : AmqpDisposer}

theorem Accounted.dispose
    (accounted : Accounted disposer) (kind : DisposalKind) :
    Accounted (disposer.dispose kind) where
  members := by
    intro place member
    rcases JsSet.mem_add_iff.mp member with last | earlier
    · subst last
      exact ⟨_, List.getElem?_concat_length, rfl⟩
    · obtain ⟨disposal, present, pending⟩ := accounted.members place earlier
      have inside := (List.getElem?_eq_some_iff.mp present).1
      refine ⟨disposal, ?_, pending⟩
      exact (List.getElem?_append_left inside).trans present
  pending := by
    intro place disposal present pending
    rcases concat_cases present with earlier | ⟨last, _⟩
    · rcases accounted.pending place disposal earlier pending with
        member | taken
      · exact Or.inl (JsSet.mem_add_iff.mpr (Or.inr member))
      · exact Or.inr taken
    · exact Or.inl (JsSet.mem_add_iff.mpr (Or.inl last))
  started := by
    intro batch awaiting place member
    obtain ⟨disposal, present⟩ := accounted.started batch awaiting place member
    have inside := (List.getElem?_eq_some_iff.mp present).1
    exact ⟨disposal, (List.getElem?_append_left inside).trans present⟩
  fulfilled := by
    intro disposal member
    rcases List.mem_append.mp member with earlier | last
    · exact accounted.fulfilled disposal earlier
    · rw [List.mem_singleton.mp last]
      nofun
  not_rejected := accounted.not_rejected

/-- A disposal is replaced; the set keeps what is still pending. -/
theorem Accounted.set
    (accounted : Accounted disposer) {index : ℕ} {old new : Disposal}
    {promises : JsSet ℕ}
    (present : disposer.disposals[index]? = some old)
    (kept :
      ∀ place, place ∈ promises ↔
        place ∈ disposer.promises ∧ (place = index → new.settled = none))
    (further : new.settled = none → old.settled = none)
    (fulfilled : new.settled ≠ some .rejected) :
    Accounted
      { disposer with
        disposals := disposer.disposals.set index new
        promises := promises } where
  members := by
    intro place member
    obtain ⟨earlier, pending⟩ := (kept place).mp member
    by_cases same : place = index
    · subst same
      have inside := (List.getElem?_eq_some_iff.mp present).1
      exact ⟨new, List.getElem?_set_self inside, pending rfl⟩
    · obtain ⟨disposal, itself, itsPending⟩ := accounted.members place earlier
      refine ⟨disposal, ?_, itsPending⟩
      exact (List.getElem?_set_ne (Ne.symm same)).trans itself
  pending := by
    intro place disposal itself pending
    rcases set_cases itself with ⟨same, isNew⟩ | ⟨different, earlier⟩
    · subst same isNew
      rcases accounted.pending place old present (further pending) with
        member | taken
      · exact Or.inl ((kept place).mpr ⟨member, fun _ => pending⟩)
      · exact Or.inr taken
    · rcases accounted.pending place disposal earlier pending with
        member | taken
      · refine Or.inl ((kept place).mpr ⟨member, ?_⟩)
        intro same
        exact absurd same different
      · exact Or.inr taken
  started := by
    intro batch awaiting place member
    obtain ⟨disposal, itself⟩ := accounted.started batch awaiting place member
    have inside := (List.getElem?_eq_some_iff.mp itself).1
    have stillInside : place < (disposer.disposals.set index new).length := by
      rw [List.length_set]
      exact inside
    exact ⟨_, List.getElem?_eq_getElem stillInside⟩
  fulfilled := by
    intro disposal member
    rcases List.mem_or_eq_of_mem_set member with earlier | isNew
    · exact accounted.fulfilled disposal earlier
    · rw [isNew]
      exact fulfilled
  not_rejected := accounted.not_rejected

theorem flushLoop_of_empty {promises : JsSet ℕ} (empty : promises.size = 0) :
    flushLoop promises = (.resolved, promises) := by
  unfold flushLoop
  rw [if_neg (by omega)]

theorem flushLoop_of_nonempty {promises : JsSet ℕ} (some : promises.size ≠ 0) :
    flushLoop promises = (.awaiting promises.values, .empty) := by
  unfold flushLoop
  rw [if_pos (by omega)]

/-- Calls of `flush` take the promises out of the set, and wait for everything
that was waited for before. -/
theorem Accounted.loop
    (accounted : Accounted disposer) {flushes : List Flush}
    (kept :
      ∀ (batch : List ℕ) (place : ℕ) (disposal : Disposal),
        Flush.awaiting batch ∈ disposer.flushes → place ∈ batch →
          disposer.disposals[place]? = some disposal →
            disposal.settled = none → Flush.awaiting batch ∈ flushes)
    (added : (flushLoop disposer.promises).1 ∈ flushes)
    (origin :
      ∀ flush ∈ flushes, flush ∈ disposer.flushes ∨
        flush = (flushLoop disposer.promises).1) :
    Accounted
      { disposer with
        promises := (flushLoop disposer.promises).2
        flushes := flushes } := by
  by_cases empty : disposer.promises.size = 0
  · rw [flushLoop_of_empty empty] at added origin ⊢
    have absent := JsSet.size_eq_zero_iff.mp empty
    refine ⟨accounted.members, ?_, ?_, accounted.fulfilled, ?_⟩
    · intro place disposal present pending
      rcases accounted.pending place disposal present pending with
        member | ⟨batch, awaiting, member⟩
      · exact absurd member (absent place)
      · exact Or.inr
          ⟨batch, kept batch place disposal awaiting member present pending,
            member⟩
    · intro batch awaiting
      rcases origin _ awaiting with earlier | isNew
      · exact accounted.started batch earlier
      · cases isNew
    · intro flush member
      rcases origin flush member with earlier | isNew
      · exact accounted.not_rejected flush earlier
      · rw [isNew]
        nofun
  · rw [flushLoop_of_nonempty empty] at added origin ⊢
    refine ⟨?_, ?_, ?_, accounted.fulfilled, ?_⟩
    · intro place member
      exact absurd member (JsSet.not_mem_empty place)
    · intro place disposal present pending
      rcases accounted.pending place disposal present pending with
        member | ⟨batch, awaiting, member⟩
      · exact Or.inr ⟨_, added, member⟩
      · exact Or.inr
          ⟨batch, kept batch place disposal awaiting member present pending,
            member⟩
    · intro batch awaiting place member
      rcases origin _ awaiting with earlier | isNew
      · exact accounted.started batch earlier place member
      · cases isNew
        obtain ⟨disposal, present, _⟩ := accounted.members place member
        exact ⟨disposal, present⟩
    · intro flush member
      rcases origin flush member with earlier | isNew
      · exact accounted.not_rejected flush earlier
      · rw [isNew]
        nofun

theorem settledWith_iff {settlement : Settlement} {place : ℕ} :
    disposer.settledWith settlement place = true ↔
      ∃ disposal, disposer.disposals[place]? = some disposal ∧
        disposal.settled = some settlement := by
  unfold settledWith
  cases disposer.disposals[place]? with
  | none => simp
  | some disposal => simp

theorem Accounted.not_settledWith_rejected
    (accounted : Accounted disposer) (place : ℕ) :
    ¬ disposer.settledWith .rejected place = true := by
  intro failed
  obtain ⟨disposal, present, rejected⟩ := settledWith_iff.mp failed
  exact accounted.fulfilled disposal (List.mem_of_getElem? present) rejected

theorem Accounted.steps
    {event : AmqpDisposerEvent} (accounted : Accounted disposer)
    (steps : Steps disposer event next) : Accounted next := by
  cases steps with
  | disposed kind => exact accounted.dispose kind
  | @progressed _ index old new present same notFlush =>
      refine accounted.set present ?_ (fun pending => same.symm.trans pending) ?_
      · intro place
        constructor
        · intro member
          refine ⟨member, ?_⟩
          intro itself
          subst itself
          obtain ⟨disposal, itself, pending⟩ := accounted.members place member
          rw [present] at itself
          cases itself
          exact same.trans pending
        · exact And.left
      · rw [same]
        exact accounted.fulfilled old (List.mem_of_getElem? present)
  | @settled index winner old present pending =>
      refine accounted.set present ?_ nofun nofun
      intro place
      rw [JsSet.mem_delete_iff]
      constructor
      · rintro ⟨member, different⟩
        exact ⟨member, fun same => absurd same different⟩
      · rintro ⟨member, impossible⟩
        refine ⟨member, ?_⟩
        intro same
        cases impossible same
  | flushed =>
      unfold flush
      apply accounted.loop
      · intro batch place disposal awaiting _ _ _
        exact List.mem_append_left _ awaiting
      · exact List.mem_append_right _ List.mem_cons_self
      · intro flush member
        rcases List.mem_append.mp member with earlier | last
        · exact Or.inl earlier
        · exact Or.inr (List.mem_singleton.mp last)
  | @rejected index batch place present member failed =>
      exact absurd failed (accounted.not_settledWith_rejected place)
  | @resumed index batch present fulfilled =>
      have inside := (List.getElem?_eq_some_iff.mp present).1
      apply accounted.loop
      · intro other place disposal awaiting member itself pending
        obtain ⟨position, there⟩ := List.mem_iff_getElem?.mp awaiting
        have different : position ≠ index := by
          intro same
          subst same
          rw [present] at there
          cases there
          obtain ⟨found, itsPlace, settled⟩ :=
            settledWith_iff.mp (fulfilled place member)
          rw [itself] at itsPlace
          cases itsPlace
          rw [pending] at settled
          cases settled
        have still :
            (disposer.flushes.set index
                (flushLoop disposer.promises).1)[position]? =
              some (Flush.awaiting other) :=
          (List.getElem?_set_ne (Ne.symm different)).trans there
        exact List.mem_of_getElem? still
      · exact List.mem_of_getElem? (List.getElem?_set_self inside)
      · intro flush member
        exact List.mem_or_eq_of_mem_set member

/-- With an empty set everything has settled exactly if nobody else waits for
something that has not. -/
theorem Accounted.allSettled_iff
    (accounted : Accounted disposer) (empty : disposer.promises.size = 0)
    {index : ℕ}
    (own :
      ∀ batch, disposer.flushes[index]? = some (Flush.awaiting batch) →
        ∀ place ∈ batch, disposer.settledWith .fulfilled place = true) :
    disposer.AllSettled ↔ disposer.OthersDone index := by
  have absent := JsSet.size_eq_zero_iff.mp empty
  constructor
  · intro all other batch _ _ place _ disposal present
    exact all disposal (List.mem_of_getElem? present)
  · intro done disposal member
    obtain ⟨place, present⟩ := List.mem_iff_getElem?.mp member
    by_contra unsettled
    have pending : disposal.settled = none := by
      cases itself : disposal.settled with
      | none => rfl
      | some settlement => exact absurd (by rw [itself]; rfl) unsettled
    rcases accounted.pending place disposal present pending with
      inSet | ⟨batch, awaiting, inBatch⟩
    · exact absent place inSet
    · obtain ⟨other, there⟩ := List.mem_iff_getElem?.mp awaiting
      by_cases same : other = index
      · subst same
        obtain ⟨found, itsPlace, settled⟩ :=
          settledWith_iff.mp (own batch there place inBatch)
        rw [present] at itsPlace
        cases itsPlace
        rw [pending] at settled
        cases settled
      · exact unsettled (done other batch same there place inBatch disposal present)

theorem resolvesAfterAll_iff_of_step
    {event : AmqpDisposerEvent} (stepped : disposer.step event = some next) :
    ResolvesAfterAll disposer event ↔
      ∀ index : ℕ, next.flushes[index]? = some Flush.resolved →
        disposer.flushes[index]? ≠ some Flush.resolved → next.AllSettled := by
  constructor
  · intro resolves index
    exact resolves next index stepped
  · intro resolves following index taken
    cases stepped.symm.trans taken
    exact resolves index

/-- A call that looks at the set is resolved only if the set is empty, and then too
early exactly if another call still waits. -/
theorem Accounted.loop_resolvesAfterAll_iff
    (accounted : Accounted disposer) {index : ℕ} {flushes : List Flush}
    (own :
      ∀ batch, disposer.flushes[index]? = some (Flush.awaiting batch) →
        ∀ place ∈ batch, disposer.settledWith .fulfilled place = true)
    (isOpen : disposer.flushes[index]? ≠ some Flush.resolved)
    (itself : flushes[index]? = some (flushLoop disposer.promises).1)
    (others :
      ∀ other : ℕ, other ≠ index → flushes[other]? = some Flush.resolved →
        disposer.flushes[other]? = some Flush.resolved) :
    (∀ other : ℕ, flushes[other]? = some Flush.resolved →
        disposer.flushes[other]? ≠ some Flush.resolved → disposer.AllSettled) ↔
      (disposer.promises.size = 0 → disposer.OthersDone index) := by
  by_cases empty : disposer.promises.size = 0
  · have decided := accounted.allSettled_iff empty own
    rw [flushLoop_of_empty empty] at itself
    constructor
    · intro resolves _
      exact decided.mp (resolves index itself isOpen)
    · intro alone _ _ _
      exact decided.mpr (alone empty)
  · refine iff_of_true ?_ (fun isEmpty => absurd isEmpty empty)
    rw [flushLoop_of_nonempty empty] at itself
    intro other resolved unresolved
    by_cases same : other = index
    · rw [same, itself] at resolved
      cases resolved
    · exact absurd (others other same resolved) unresolved

/-- A call of `flush` is resolved too early exactly if it leaves another one
waiting. -/
theorem Accounted.resolvesAfterAll_iff
    {event : AmqpDisposerEvent} (accounted : Accounted disposer)
    (stepped : disposer.step event = some next) :
    ResolvesAfterAll disposer event ↔ LeavesAlone disposer event := by
  rw [resolvesAfterAll_iff_of_step stepped]
  cases steps_of_step stepped with
  | disposed kind =>
      exact iff_of_true (fun _ resolved other => absurd resolved other) trivial
  | progressed present same notFlush =>
      refine iff_of_true (fun _ resolved other => absurd resolved other) ?_
      cases event with
      | flush => exact absurd rfl notFlush.1
      | flushResumed index => exact absurd rfl (notFlush.2 index)
      | dispose _ => trivial
      | timedOut _ => trivial
      | closeEmitted _ => trivial
      | closeSettled _ _ => trivial
      | settled _ _ => trivial
  | settled present pending =>
      exact iff_of_true (fun _ resolved other => absurd resolved other) trivial
  | flushed =>
      have isNew : disposer.flushes[disposer.flushes.length]? = none :=
        List.getElem?_eq_none (Nat.le_refl _)
      apply accounted.loop_resolvesAfterAll_iff
      · intro batch present
        rw [isNew] at present
        cases present
      · rw [isNew]
        exact (Option.some_ne_none _).symm
      · exact List.getElem?_concat_length
      · intro other different resolved
        rcases concat_cases resolved with earlier | ⟨same, _⟩
        · exact earlier
        · exact absurd same different
  | @rejected index batch place present member failed =>
      exact absurd failed (accounted.not_settledWith_rejected place)
  | @resumed index batch present fulfilled =>
      have inside := (List.getElem?_eq_some_iff.mp present).1
      apply accounted.loop_resolvesAfterAll_iff
      · intro own itself
        rw [present] at itself
        cases itself
        exact fulfilled
      · rw [present]
        nofun
      · exact List.getElem?_set_self inside
      · intro other different resolved
        rcases set_cases resolved with ⟨same, _⟩ | ⟨_, earlier⟩
        · exact absurd same different
        · exact earlier

/-- Without a pending disposal a call that waits goes on and is resolved. -/
theorem Accounted.resolves
    (accounted : Accounted disposer) (all : disposer.AllSettled) {index : ℕ}
    {batch : List ℕ}
    (present : disposer.flushes[index]? = some (Flush.awaiting batch)) :
    ∃ next, disposer.step (.flushResumed index) = some next ∧
      next.flushes[index]? = some Flush.resolved := by
  have inside := (List.getElem?_eq_some_iff.mp present).1
  have empty : disposer.promises.size = 0 := by
    apply JsSet.size_eq_zero_iff.mpr
    intro place member
    obtain ⟨disposal, itself, pending⟩ := accounted.members place member
    have settled := all disposal (List.mem_of_getElem? itself)
    rw [pending] at settled
    exact absurd settled Bool.false_ne_true
  have fulfilled : batch.all (disposer.settledWith .fulfilled) = true := by
    apply List.all_eq_true.mpr
    intro place member
    obtain ⟨disposal, itself⟩ :=
      accounted.started batch (List.mem_of_getElem? present) place member
    have isMember := List.mem_of_getElem? itself
    refine settledWith_iff.mpr ⟨disposal, itself, ?_⟩
    cases outcome : disposal.settled with
    | none =>
        have settled := all disposal isMember
        rw [outcome] at settled
        exact absurd settled Bool.false_ne_true
    | some settlement =>
        cases settlement with
        | fulfilled => rfl
        | rejected => exact absurd outcome (accounted.fulfilled disposal isMember)
  have intact : ¬ batch.any (disposer.settledWith .rejected) = true := by
    intro failed
    obtain ⟨place, _, rejected⟩ := List.any_eq_true.mp failed
    exact accounted.not_settledWith_rejected place rejected
  refine ⟨{ disposer with flushes := disposer.flushes.set index .resolved }, ?_,
    List.getElem?_set_self inside⟩
  change disposer.flushResumed index = _
  unfold flushResumed
  rw [present]
  dsimp only
  rw [if_neg intact, if_pos fulfilled, flushLoop_of_empty empty]

end Steps

theorem accounted_run
    {schedule : List AmqpDisposerEvent} {disposer : AmqpDisposer}
    (execution : machine.run create schedule = some disposer) :
    Accounted disposer := by
  have preserved : machine.Preserved Accounted :=
    fun _ _ _ accounted stepped => accounted.steps (steps_of_step stepped)
  exact Machine.run_invariant preserved accounted_create execution

/-- In every run the calls of `flush` do what they should exactly if no call
leaves while another one still waits for a disposal that it has taken. -/
theorem flushes_well_iff
    (schedule : List AmqpDisposerEvent) (disposer : AmqpDisposer)
    (execution : machine.run create schedule = some disposer) :
    FlushesWell schedule disposer ↔
      machine.Throughout LeavesAlone create schedule := by
  have accounted := accounted_run execution
  have decided :
      machine.Throughout ResolvesAfterAll create schedule ↔
        machine.Throughout LeavesAlone create schedule :=
    Machine.throughout_congr ResolvesAfterAll LeavesAlone
      (fun _ _ _ holds stepped => holds.steps (steps_of_step stepped))
      (fun _ _ _ holds stepped => holds.resolvesAfterAll_iff stepped)
      accounted_create execution
  constructor
  · intro well
    exact decided.mp well.resolves_after_all
  · intro alone
    refine ⟨decided.mpr alone, accounted.not_rejected, ?_⟩
    intro all index batch present
    exact accounted.resolves all present

/-- A connection is disposed of, and its disposal is waited for. -/
def flushedDisposal : List AmqpDisposerEvent :=
  [.dispose .connection, .flush, .closeSettled 0 .fulfilled, .settled 0 .closing,
    .flushResumed 0]

theorem flushes_well_iff_flushedDisposal :
    ∃ disposer, machine.run create flushedDisposal = some disposer ∧
      (FlushesWell flushedDisposal disposer ↔
        machine.Throughout LeavesAlone create flushedDisposal) :=
  ⟨_, rfl, flushes_well_iff flushedDisposal _ rfl⟩

/-- The second call of `flush` finds the set empty and is resolved at once, while
the disposal is still pending. -/
theorem secondFlush_resolves_early :
    ¬ ∀ (schedule : List AmqpDisposerEvent) (disposer : AmqpDisposer),
        machine.run create schedule = some disposer →
          FlushesWell schedule disposer := by
  intro always
  have well := always [.dispose .connection, .flush, .flush] _ rfl
  have throughout :
      machine.Throughout ResolvesAfterAll create
        ([.dispose .connection, .flush] ++ [.flush]) :=
    well.resolves_after_all
  have second : ResolvesAfterAll (create.dispose .connection).flush .flush :=
    Machine.throughout_last throughout rfl
  have settled := second _ 1 rfl rfl nofun
  exact absurd (settled _ List.mem_cons_self) Bool.false_ne_true

end AmqpDisposer

end Amq.Core
