import Amq.MessageRelevancyChecker
import Amq.Transition.Refinement
import Amq.Transition.StoredTags

/-!
# Servers that refine the keyed lock

What the job server and the RPC server have in common: they store the tags of
their deliveries while they listen, forget all of them when they hear of a new
channel, and acknowledge nothing once they are disposed.
-/


namespace Amq

open Amq.Transition

/-- A server with its reading as a keyed lock. -/
structure LockedServer (ς ες κ ℓ : Type) [DecidableEq κ] where
  machine : Machine ς ες
  refinement :
    Refinement machine
      (KeyedLock.machine : Machine (KeyedLock.State κ ℓ DeliveryTag) _)
  isReady : ς → Bool
  isDisposed : ς → Bool
  delivered : ες → Option DeliveryTag
  /-- The server hears of a new channel. -/
  isNotice : ες → Bool
  delivers :
    ∀ server event key label tag,
      .deliver key label tag ∈ refinement.translate server event →
        delivered event = some tag
  ready_of_step :
    ∀ server event next, machine.step server event = some next →
      isReady next = true → isReady server = true ∧ delivered event = none
  silent :
    ∀ server event next, machine.step server event = some next →
      isDisposed server = true →
        isDisposed next = true ∧
          (refinement.abstraction next).acknowledged =
            (refinement.abstraction server).acknowledged
  forgets :
    ∀ server event next, machine.step server event = some next →
      isNotice event = true →
        (refinement.abstraction next).acknowledged =
            (refinement.abstraction server).acknowledged ∧
          (isReady next = true ∨ isDisposed next = true ∨
            ∀ key, (refinement.abstraction next).stored key = none)

namespace LockedServer

variable {ς ες κ ℓ : Type} [DecidableEq κ]

/-- A server that has never listened stores nothing. -/
def Unlocked (locked : LockedServer ς ες κ ℓ) (server : ς) : Prop :=
  locked.isReady server = true →
    ∀ key, (locked.refinement.abstraction server).stored key = none

variable {locked : LockedServer ς ες κ ℓ} {server next : ς}

theorem unlocked_initial (locked : LockedServer ς ες κ ℓ) :
    locked.Unlocked locked.machine.initial := by
  intro _ key
  rw [locked.refinement.initial]
  rfl

omit [DecidableEq κ] in
theorem storesOnly_false_iff {lock : KeyedLock.State κ ℓ DeliveryTag} :
    (lock.StoresOnly fun _ => False) ↔ ∀ key, lock.stored key = none := by
  constructor
  · intro nothing key
    rw [Option.eq_none_iff_forall_ne_some]
    exact nothing key
  · intro nothing key tag stored
    rw [nothing key] at stored
    cases stored

theorem Unlocked.step
    {event : ες} (unlocked : locked.Unlocked server)
    (stepped : locked.machine.step server event = some next) :
    locked.Unlocked next := by
  intro ready
  obtain ⟨wasReady, undelivered⟩ := locked.ready_of_step server event next stepped ready
  have nothing := storesOnly_false_iff.mpr (unlocked wasReady)
  have execution := locked.refinement.step server event next stepped
  refine storesOnly_false_iff.mp (KeyedLock.storesOnly_run nothing ?_ execution).1
  intro key label tag member
  have delivered := locked.delivers server event key label tag member
  rw [undelivered] at delivered
  cases delivered

theorem Unlocked.run
    {schedule : List ες} (unlocked : locked.Unlocked server)
    (execution : locked.machine.run server schedule = some next) :
    locked.Unlocked next := by
  have preserved : locked.machine.Preserved locked.Unlocked :=
    fun _ _ _ holds stepped => holds.step stepped
  exact Machine.run_invariant preserved unlocked execution

/-- A disposed server keeps silent. -/
theorem silent_run
    {schedule : List ες}
    (execution : locked.machine.run server schedule = some next)
    (disposed : locked.isDisposed server = true) :
    locked.isDisposed next = true ∧
      (locked.refinement.abstraction next).acknowledged =
        (locked.refinement.abstraction server).acknowledged := by
  have preserved :
      locked.machine.Preserved fun current =>
        locked.isDisposed current = true ∧
          (locked.refinement.abstraction current).acknowledged =
            (locked.refinement.abstraction server).acknowledged := by
    intro current event following holds stepped
    obtain ⟨still, same⟩ :=
      locked.silent current event following stepped holds.1
    exact ⟨still, same.trans holds.2⟩
  exact Machine.run_invariant preserved ⟨disposed, rfl⟩ execution

/-- The lock is given the tags of deliveries only. -/
theorem delivered_of_mem
    {schedule : List ες} {key : κ} {label : Option ℓ} {tag : DeliveryTag}
    (member :
      .deliver key label tag ∈ locked.refinement.translateRun server schedule) :
    ∃ event ∈ schedule, locked.delivered event = some tag := by
  induction schedule generalizing server with
  | nil => cases member
  | cons event rest inductionHypothesis =>
      simp only [Refinement.translateRun] at member
      split at member
      · cases member
      · rename_i following stepped
        rcases List.mem_append.mp member with now | later
        · exact ⟨event, List.mem_cons_self,
            locked.delivers server event key label tag now⟩
        · obtain ⟨other, itself, delivered⟩ := inductionHypothesis later
          exact ⟨other, List.mem_cons_of_mem _ itself, delivered⟩

end LockedServer

end Amq
