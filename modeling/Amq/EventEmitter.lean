import Mathlib.Data.List.Perm.Basic

/-!
# Event emitters

The listeners of an emitter are kept in the order in which they were added.  A
listener can be added twice, and `removeListener` takes away the instance that
was added last.
-/

namespace Amq.EventEmitter

variable {ε κ : Type}

/-- The registrations of an emitter. -/
abbrev Registrations (ε κ : Type) : Type :=
  List (ε × κ)

def on (registered : Registrations ε κ) (event : ε) (listener : κ) :
    Registrations ε κ :=
  registered ++ [(event, listener)]

theorem foldl_on (registered entries : Registrations ε κ) :
    entries.foldl (fun registered entry => on registered entry.1 entry.2)
        registered = registered ++ entries := by
  induction entries generalizing registered with
  | nil => exact (List.append_nil registered).symm
  | cons entry rest inductionHypothesis =>
      rw [List.foldl_cons, inductionHypothesis]
      simp [on]

variable [DecidableEq ε] [DecidableEq κ]

def removeListener
    (registered : Registrations ε κ) (event : ε) (listener : κ) :
    Registrations ε κ :=
  (registered.reverse.erase (event, listener)).reverse

/-- The listeners that an emission of the event calls. -/
def listeners (registered : Registrations ε κ) (event : ε) : List κ :=
  (registered.filter fun entry => entry.1 = event).map Prod.snd

theorem removeListener_perm
    (registered : Registrations ε κ) (event : ε) (listener : κ) :
    (removeListener registered event listener).Perm
      (registered.erase (event, listener)) := by
  have reversed := List.reverse_perm registered
  exact (List.reverse_perm _).trans (reversed.erase _)

/-- Listeners that are all removed again leave nothing behind. -/
theorem foldl_removeListener
    {registered entries : Registrations ε κ} (same : registered.Perm entries) :
    entries.foldl
        (fun registered entry => removeListener registered entry.1 entry.2)
        registered = [] := by
  induction entries generalizing registered with
  | nil => exact List.perm_nil.mp same
  | cons entry rest inductionHypothesis =>
      rw [List.foldl_cons]
      apply inductionHypothesis
      have erased := same.erase entry
      rw [List.erase_cons_head] at erased
      exact (removeListener_perm registered entry.1 entry.2).trans erased

theorem listeners_of_distinct
    {events : List ε} (distinct : events.Nodup) (event : ε) :
    listeners (events.map fun name => (name, name)) event =
      if event ∈ events then [event] else [] := by
  induction events with
  | nil => rfl
  | cons first rest inductionHypothesis =>
      obtain ⟨absent, distinctRest⟩ := List.nodup_cons.mp distinct
      have later := inductionHypothesis distinctRest
      unfold listeners at later ⊢
      rw [List.map_cons]
      by_cases same : first = event
      · subst same
        rw [if_neg absent] at later
        rw [List.filter_cons_of_pos (by simp), List.map_cons, later]
        simp
      · rw [List.filter_cons_of_neg (by simp [same]), later]
        simp [Ne.symm same]

end Amq.EventEmitter
