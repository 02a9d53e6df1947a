import Mathlib.Data.List.Nodup

/-!
# Sets with a live iteration

A set keeps its values in the order of insertion.  An iteration stands at a
position among the entries; it comes to values that are added meanwhile and
passes over values that are deleted, which is why a deleted entry leaves its
place empty.
-/

namespace Amq

structure JsSet (α : Type) where
  /-- The places in the order of insertion, empty after a deletion. -/
  entries : List (Option α)
  nodup : (entries.filterMap id).Nodup

namespace JsSet

variable {α : Type}

def empty : JsSet α :=
  ⟨[], List.nodup_nil⟩

def values (set : JsSet α) : List α :=
  set.entries.filterMap id

instance : Membership α (JsSet α) :=
  ⟨fun set value => value ∈ set.values⟩

instance [DecidableEq α] (set : JsSet α) (value : α) : Decidable (value ∈ set) :=
  inferInstanceAs (Decidable (value ∈ set.values))

def size (set : JsSet α) : ℕ :=
  set.values.length

theorem mem_iff_entries {set : JsSet α} {value : α} :
    value ∈ set ↔ some value ∈ set.entries := by
  change value ∈ set.entries.filterMap id ↔ _
  simp

theorem size_eq_zero_iff {set : JsSet α} :
    set.size = 0 ↔ ∀ value, value ∉ set := by
  unfold size
  rw [List.length_eq_zero_iff]
  exact List.eq_nil_iff_forall_not_mem

@[simp]
theorem not_mem_empty (value : α) : value ∉ (empty : JsSet α) :=
  List.not_mem_nil

/-! ## Adding and deleting -/

section Updates

variable [DecidableEq α]

/-- `Set.prototype.add`: a value that is there keeps its place. -/
def add (set : JsSet α) (value : α) : JsSet α :=
  if absent : value ∉ set then
    { entries := set.entries ++ [some value]
      nodup := by
        rw [List.filterMap_append]
        refine List.Nodup.append set.nodup (List.nodup_singleton value) ?_
        exact List.disjoint_singleton.mpr absent }
  else
    set

/-- `Set.prototype.delete`. -/
def delete (set : JsSet α) (value : α) : JsSet α where
  entries :=
    set.entries.map fun entry => if entry = some value then none else entry
  nodup := by
    have kept :
        (set.entries.map fun entry =>
            if entry = some value then none else entry).filterMap id =
          (set.entries.filterMap id).filter fun other => other ≠ value := by
      induction set.entries with
      | nil => rfl
      | cons entry rest inductionHypothesis =>
          cases entry with
          | none => simpa using inductionHypothesis
          | some other =>
              by_cases same : other = value
              · simpa [same] using inductionHypothesis
              · simpa [same] using inductionHypothesis
    rw [kept]
    exact set.nodup.filter _

theorem some_mem_delete_iff {entries : List (Option α)} {value other : α} :
    some other ∈ entries.map (fun entry => if entry = some value then none else entry) ↔
      some other ∈ entries ∧ other ≠ value := by
  rw [List.mem_map]
  constructor
  · intro ⟨entry, member, same⟩
    split at same
    · cases same
    · rename_i different
      subst same
      exact ⟨member, fun equal => different (congrArg some equal)⟩
  · intro ⟨member, different⟩
    refine ⟨some other, member, if_neg ?_⟩
    exact fun same => different (Option.some.inj same)

theorem entries_add {set : JsSet α} {value : α} (absent : value ∉ set) :
    (set.add value).entries = set.entries ++ [some value] := by
  unfold add
  rw [dif_pos absent]

theorem mem_add_iff {set : JsSet α} {value other : α} :
    other ∈ set.add value ↔ other = value ∨ other ∈ set := by
  by_cases present : value ∈ set
  · have unchanged : set.add value = set := by
      unfold add
      rw [dif_neg (not_not_intro present)]
    rw [unchanged]
    constructor
    · exact Or.inr
    · intro either
      rcases either with same | member
      · rw [same]
        exact present
      · exact member
  · rw [mem_iff_entries, entries_add present, List.mem_append, mem_iff_entries]
    simp only [List.mem_singleton, Option.some.injEq]
    exact or_comm

@[simp]
theorem mem_delete_iff {set : JsSet α} {value other : α} :
    other ∈ set.delete value ↔ other ∈ set ∧ other ≠ value := by
  rw [mem_iff_entries, mem_iff_entries]
  exact some_mem_delete_iff

end Updates

/-! ## Iterating -/

/-- The first value among these entries, with the position after it. -/
def findNext : List (Option α) → ℕ → Option (α × ℕ)
  | [], _ => none
  | none :: rest, position => findNext rest (position + 1)
  | some value :: _, position => some (value, position + 1)

/-- The value that an iteration at this position comes to. -/
def next (set : JsSet α) (position : ℕ) : Option (α × ℕ) :=
  findNext (set.entries.drop position) position

/-- The values that an iteration at this position still comes to. -/
def ahead (set : JsSet α) (position : ℕ) : List α :=
  (set.entries.drop position).filterMap id

theorem mem_ahead_iff {set : JsSet α} {position : ℕ} {value : α} :
    value ∈ set.ahead position ↔ some value ∈ set.entries.drop position := by
  unfold ahead
  simp

theorem mem_of_mem_ahead
    {set : JsSet α} {position : ℕ} {value : α}
    (member : value ∈ set.ahead position) : value ∈ set :=
  mem_iff_entries.mpr (List.mem_of_mem_drop (mem_ahead_iff.mp member))

theorem findNext_eq_none_iff {entries : List (Option α)} {position : ℕ} :
    findNext entries position = none ↔ entries.filterMap id = [] := by
  induction entries generalizing position with
  | nil => exact iff_of_true rfl rfl
  | cons entry rest inductionHypothesis =>
      cases entry with
      | none => exact inductionHypothesis
      | some value => exact iff_of_false nofun nofun

theorem findNext_eq_some
    {entries : List (Option α)} {position following : ℕ} {value : α}
    (found : findNext entries position = some (value, following)) :
    ∃ skipped, following = position + skipped + 1 ∧
      skipped < entries.length ∧
        entries.filterMap id =
          value :: (entries.drop (skipped + 1)).filterMap id := by
  induction entries generalizing position with
  | nil => cases found
  | cons entry rest inductionHypothesis =>
      cases entry with
      | none =>
          obtain ⟨skipped, place, inside, values⟩ := inductionHypothesis found
          refine ⟨skipped + 1, ?_, Nat.succ_lt_succ inside, values⟩
          omega
      | some first =>
          cases found
          exact ⟨0, rfl, Nat.zero_lt_succ _, rfl⟩

theorem next_eq_none_iff {set : JsSet α} {position : ℕ} :
    set.next position = none ↔ set.ahead position = [] :=
  findNext_eq_none_iff

/-- An iteration goes on after the value that it has come to. -/
theorem ahead_of_next
    {set : JsSet α} {position following : ℕ} {value : α}
    (found : set.next position = some (value, following)) :
    set.ahead position = value :: set.ahead following ∧
      following ≤ set.entries.length := by
  obtain ⟨skipped, place, inside, values⟩ := findNext_eq_some found
  rw [List.length_drop] at inside
  rw [List.drop_drop] at values
  refine ⟨?_, by omega⟩
  unfold ahead
  rw [values, place, Nat.add_assoc]

section Updates

variable [DecidableEq α]

/-- A new value comes last. -/
theorem ahead_add
    {set : JsSet α} {value : α} (absent : value ∉ set) {position : ℕ}
    (inside : position ≤ set.entries.length) :
    (set.add value).ahead position = set.ahead position ++ [value] := by
  unfold ahead
  rw [entries_add absent, List.drop_append_of_le_length inside,
    List.filterMap_append]
  rfl

theorem mem_ahead_delete_iff
    {set : JsSet α} {value other : α} {position : ℕ} :
    other ∈ (set.delete value).ahead position ↔
      other ∈ set.ahead position ∧ other ≠ value := by
  rw [mem_ahead_iff, mem_ahead_iff]
  simp only [delete, ← List.map_drop]
  exact some_mem_delete_iff

@[simp]
theorem length_entries_delete (set : JsSet α) (value : α) :
    (set.delete value).entries.length = set.entries.length :=
  List.length_map _

theorem length_entries_add (set : JsSet α) (value : α) :
    set.entries.length ≤ (set.add value).entries.length := by
  unfold add
  split
  · simp
  · exact Nat.le_refl _

end Updates

end JsSet

end Amq
