import Mathlib.Data.List.Basic

/-!
# Records by their places

Parties keep their runs and their calls in lists, where a place is the name of a
record.  A record may be replaced, and new ones are put at the end.
-/

namespace Amq.Transition

universe u

section Records

variable {α : Type u} {records : List α} {new found : α} {place index : ℕ}

/-- A record of the longer list is an earlier one or the new one. -/
theorem concat_cases
    (present : (records ++ [new])[index]? = some found) :
    records[index]? = some found ∨ (index = records.length ∧ found = new) := by
  rcases Nat.lt_trichotomy index records.length with inside | last | outside
  · rw [List.getElem?_append_left inside] at present
    exact Or.inl present
  · subst last
    rw [List.getElem?_concat_length] at present
    exact Or.inr ⟨rfl, (Option.some.inj present).symm⟩
  · have inRange := (List.getElem?_eq_some_iff.mp present).1
    rw [List.length_append, List.length_singleton] at inRange
    omega

/-- After a replacement a record is the new one, or it was there before. -/
theorem set_cases
    (present : (records.set place new)[index]? = some found) :
    (index = place ∧ found = new) ∨
      (index ≠ place ∧ records[index]? = some found) := by
  by_cases same : index = place
  · subst same
    have inRange := (List.getElem?_eq_some_iff.mp present).1
    rw [List.length_set] at inRange
    rw [List.getElem?_set_self inRange] at present
    exact Or.inl ⟨rfl, (Option.some.inj present).symm⟩
  · rw [List.getElem?_set_ne (Ne.symm same)] at present
    exact Or.inr ⟨same, present⟩

/-- What holds of all records and of a new one holds after the new one has been
put into the list. -/
theorem forall_set
    (property : ℕ → α → Prop)
    (earlier : ∀ index found, records[index]? = some found → property index found)
    (holds : property place new) :
    ∀ index found, (records.set place new)[index]? = some found →
      property index found := by
  intro index found present
  rcases set_cases present with ⟨same, itself⟩ | ⟨_, kept⟩
  · rw [same, itself]
    exact holds
  · exact earlier index found kept

theorem forall_concat
    (property : ℕ → α → Prop)
    (earlier : ∀ index found, records[index]? = some found → property index found)
    (holds : property records.length new) :
    ∀ index found, (records ++ [new])[index]? = some found →
      property index found := by
  intro index found present
  rcases concat_cases present with kept | ⟨last, itself⟩
  · exact earlier index found kept
  · rw [last, itself]
    exact holds

end Records

end Amq.Transition
