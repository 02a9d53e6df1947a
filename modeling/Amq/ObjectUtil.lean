import Amq.JsHeap

/-!
# Removing blank fields

`removeBlankFields` deletes fields of an object in place, while it goes through
the names that the object had at the beginning.  A nested object is cleaned
before it is judged to be empty.
-/

namespace Amq.ObjectUtil

open JsTree (FieldsHold fieldReferences fieldDepth values)

variable {α : Type}

/-- An option that is missing is `false`. -/
structure RemoveBlankFieldsOptions where
  deep : Option Bool
  removeEmptyObjects : Option Bool
  removeNullValues : Option Bool
  deriving DecidableEq, Repr

namespace RemoveBlankFieldsOptions

def isDeep (options : RemoveBlankFieldsOptions) : Bool :=
  options.deep.getD false

def removesEmptyObjects (options : RemoveBlankFieldsOptions) : Bool :=
  options.removeEmptyObjects.getD false

def removesNullValues (options : RemoveBlankFieldsOptions) : Bool :=
  options.removeNullValues.getD false

end RemoveBlankFieldsOptions

/-- The engine has `Object.getPrototypeOf`, so the fallback is left out. -/
def isPlainObject (heap : JsHeap α) : JsValue α → Bool
  | .object reference => (heap reference).prototype != .other
  | _ => false

/-- `object[key] === undefined || (removeNullValues && object[key] === null)`. -/
def isBlankValue (options : RemoveBlankFieldsOptions) : JsValue α → Bool
  | .undefined => true
  | .null => options.removesNullValues
  | _ => false

/-- `Object.keys(value).length === 0` for an object. -/
def isEmptyObject (heap : JsHeap α) : JsValue α → Bool
  | .object reference => (heap reference).keys.isEmpty
  | _ => false

/-- The body of the loop.  The recursive call may find the stack exhausted. -/
def removeBlankField
    (recurse : JsHeap α → ℕ → Option (JsHeap α))
    (options : RemoveBlankFieldsOptions) (object : ℕ)
    (heap : JsHeap α) (key : String) : Option (JsHeap α) :=
  let value := (heap object).get key
  if isBlankValue options value then
    some (heap.delete object key)
  else if isPlainObject heap value then
    let cleaned :=
      match value with
      | .object nested =>
          if options.isDeep then recurse heap nested else some heap
      | _ => some heap
    cleaned.map fun heap =>
      if options.removesEmptyObjects &&
          isEmptyObject heap ((heap object).get key) then
        heap.delete object key
      else
        heap
  else
    some heap

/-- The function returns the object that it was given, so only the heap is of
interest.  So many calls fit on the stack. -/
def removeBlankFields (options : RemoveBlankFieldsOptions) :
    ℕ → JsHeap α → ℕ → Option (JsHeap α)
  | 0, _, _ => none
  | stack + 1, heap, object =>
      (heap object).keys.foldlM
        (removeBlankField (removeBlankFields options stack) options object) heap

/-! ## What should remain -/

/-- A field with this value, already cleaned, is removed. -/
def isBlank (options : RemoveBlankFieldsOptions) : JsTree α → Bool
  | .undefined => true
  | .null => options.removesNullValues
  | .object _ fields => options.removesEmptyObjects && fields.isEmpty
  | .primitive _ => false
  | .classInstance _ => false

mutual

/-- Only plain objects are cleaned, and only when `deep`. -/
def cleanValue (options : RemoveBlankFieldsOptions) : JsTree α → JsTree α
  | .object reference fields =>
      if options.isDeep then .object reference (cleanFields options fields)
      else .object reference fields
  | .undefined => .undefined
  | .null => .null
  | .primitive value => .primitive value
  | .classInstance reference => .classInstance reference

/-- The fields that are kept, in their order. -/
def cleanFields (options : RemoveBlankFieldsOptions) :
    List (String × JsTree α) → List (String × JsTree α)
  | [] => []
  | (key, tree) :: rest =>
      if isBlank options (cleanValue options tree) then
        cleanFields options rest
      else
        (key, cleanValue options tree) :: cleanFields options rest

end

section Cleaning

variable {options : RemoveBlankFieldsOptions}

theorem cleanFields_of_blank
    {key : String} {tree : JsTree α} (rest : List (String × JsTree α))
    (blank : isBlank options (cleanValue options tree) = true) :
    cleanFields options ((key, tree) :: rest) = cleanFields options rest := by
  rw [cleanFields, if_pos blank]

theorem cleanFields_of_kept
    {key : String} {tree : JsTree α} (rest : List (String × JsTree α))
    (kept : isBlank options (cleanValue options tree) = false) :
    cleanFields options ((key, tree) :: rest) =
      (key, cleanValue options tree) :: cleanFields options rest := by
  have notBlank : ¬ isBlank options (cleanValue options tree) = true := by
    rw [kept]
    exact Bool.false_ne_true
  rw [cleanFields, if_neg notBlank]

theorem cleanValue_of_deep
    (deep : options.isDeep = true) (reference : ℕ)
    (fields : List (String × JsTree α)) :
    cleanValue options (.object reference fields) =
      .object reference (cleanFields options fields) := by
  rw [cleanValue, if_pos deep]

theorem cleanValue_of_shallow
    (shallow : options.isDeep = false) (tree : JsTree α) :
    cleanValue options tree = tree := by
  cases tree with
  | object reference fields =>
      have notDeep : ¬ options.isDeep = true := by
        rw [shallow]
        exact Bool.false_ne_true
      rw [cleanValue, if_neg notDeep]
  | undefined => rw [cleanValue]
  | null => rw [cleanValue]
  | primitive value => rw [cleanValue]
  | classInstance reference => rw [cleanValue]

@[simp]
theorem value_cleanValue (tree : JsTree α) :
    (cleanValue options tree).value = tree.value := by
  cases tree with
  | object reference fields =>
      rw [cleanValue]
      split
      · rfl
      · rfl
  | undefined => rw [cleanValue]
  | null => rw [cleanValue]
  | primitive value => rw [cleanValue]
  | classInstance reference => rw [cleanValue]

mutual

/-- Cleaning takes objects away and adds none. -/
theorem references_cleanValue_sublist (options : RemoveBlankFieldsOptions) :
    (tree : JsTree α) →
      (cleanValue options tree).references.Sublist tree.references
  | .object reference fields => by
      rw [cleanValue]
      split
      · exact (fieldReferences_cleanFields_sublist options fields).cons_cons _
      · exact List.Sublist.refl _
  | .undefined => by
      rw [cleanValue]
  | .null => by
      rw [cleanValue]
  | .primitive _ => by
      rw [cleanValue]
  | .classInstance _ => by
      rw [cleanValue]

theorem fieldReferences_cleanFields_sublist
    (options : RemoveBlankFieldsOptions) :
    (fields : List (String × JsTree α)) →
      (fieldReferences (cleanFields options fields)).Sublist
        (fieldReferences fields)
  | [] => List.Sublist.refl _
  | (_, tree) :: rest => by
      have later := fieldReferences_cleanFields_sublist options rest
      rw [cleanFields]
      split
      · exact later.trans (List.sublist_append_right _ _)
      · exact (references_cleanValue_sublist options tree).append later

end

mutual

theorem depth_cleanValue_le (options : RemoveBlankFieldsOptions) :
    (tree : JsTree α) → (cleanValue options tree).depth ≤ tree.depth
  | .object reference fields => by
      rw [cleanValue]
      split
      · exact Nat.succ_le_succ (fieldDepth_cleanFields_le options fields)
      · exact Nat.le_refl _
  | .undefined => Nat.le_of_eq (by rw [cleanValue])
  | .null => Nat.le_of_eq (by rw [cleanValue])
  | .primitive _ => Nat.le_of_eq (by rw [cleanValue])
  | .classInstance _ => Nat.le_of_eq (by rw [cleanValue])

theorem fieldDepth_cleanFields_le (options : RemoveBlankFieldsOptions) :
    (fields : List (String × JsTree α)) →
      fieldDepth (cleanFields options fields) ≤ fieldDepth fields
  | [] => Nat.le_refl _
  | (_, tree) :: rest => by
      have first := depth_cleanValue_le options tree
      have later := fieldDepth_cleanFields_le options rest
      rw [cleanFields]
      split
      · exact Nat.le_trans later (Nat.le_max_right _ _)
      · unfold fieldDepth
        omega

end

mutual

/-- What has been cleaned is clean. -/
theorem cleanValue_idempotent (options : RemoveBlankFieldsOptions) :
    (tree : JsTree α) →
      cleanValue options (cleanValue options tree) = cleanValue options tree
  | .object reference fields => by
      by_cases deep : options.isDeep = true
      · have again := cleanFields_idempotent options fields
        rw [cleanValue_of_deep deep, cleanValue_of_deep deep, again]
      · have shallow : options.isDeep = false := Bool.eq_false_iff.mpr deep
        rw [cleanValue_of_shallow shallow, cleanValue_of_shallow shallow]
  | .undefined => by
      rw [cleanValue, cleanValue]
  | .null => by
      rw [cleanValue, cleanValue]
  | .primitive _ => by
      rw [cleanValue, cleanValue]
  | .classInstance _ => by
      rw [cleanValue, cleanValue]

theorem cleanFields_idempotent (options : RemoveBlankFieldsOptions) :
    (fields : List (String × JsTree α)) →
      cleanFields options (cleanFields options fields) =
        cleanFields options fields
  | [] => rfl
  | (key, tree) :: rest => by
      have later := cleanFields_idempotent options rest
      by_cases blank : isBlank options (cleanValue options tree) = true
      · rw [cleanFields_of_blank rest blank]
        exact later
      · have kept : isBlank options (cleanValue options tree) = false :=
          Bool.eq_false_iff.mpr blank
        have again := cleanValue_idempotent options tree
        have keptAgain :
            isBlank options
              (cleanValue options (cleanValue options tree)) = false := by
          rw [again]
          exact kept
        rw [cleanFields_of_kept rest kept, cleanFields_of_kept _ keptAgain,
          again, later]

end

end Cleaning

theorem cleanFields_cons
    (options : RemoveBlankFieldsOptions) (field : String × JsTree α)
    (rest : List (String × JsTree α)) :
    cleanFields options (field :: rest) =
      cleanFields options [field] ++ cleanFields options rest := by
  obtain ⟨key, tree⟩ := field
  rw [cleanFields, cleanFields]
  split
  · rfl
  · rfl

/-! ## The loop -/

/-- The value of one field has been cleaned, its field has not been touched. -/
structure ValueCleaned
    (options : RemoveBlankFieldsOptions) (heap heap' : JsHeap α)
    (tree : JsTree α) : Prop where
  holds : (cleanValue options tree).Holds heap'
  unchanged : heap.UnchangedOutside tree.references heap'
  prototypes : heap.SamePrototypes heap'

/-- These fields of the object, between the others, have been gone through. -/
structure FieldsCleaned
    (options : RemoveBlankFieldsOptions) (heap heap' : JsHeap α) (object : ℕ)
    (before : List (String × JsValue α)) (fields : List (String × JsTree α))
    (after : List (String × JsValue α)) : Prop where
  itself :
    (heap' object).fields =
      before ++ values (cleanFields options fields) ++ after
  hold : FieldsHold heap' (cleanFields options fields)
  unchanged : heap.UnchangedOutside (object :: fieldReferences fields) heap'
  prototypes : heap.SamePrototypes heap'

/-- The recursive call cleans the value of a field, if it is an object. -/
def Recurses
    (recurse : JsHeap α → ℕ → Option (JsHeap α))
    (options : RemoveBlankFieldsOptions) (tree : JsTree α) : Prop :=
  ∀ (heap : JsHeap α) (nested : ℕ) (fields : List (String × JsTree α)),
    tree = .object nested fields → options.isDeep = true →
      tree.references.Nodup → tree.Holds heap →
        ∃ heap', recurse heap nested = some heap' ∧
          ValueCleaned options heap heap' tree

section Field

variable {options : RemoveBlankFieldsOptions} {heap cleaned : JsHeap α}
variable {object : ℕ} {key : String} {tree : JsTree α}
variable {before after : List (String × JsValue α)}

theorem ValueCleaned.itself
    (valueCleaned : ValueCleaned options heap cleaned tree)
    (outside : object ∉ tree.references)
    (itself : (heap object).fields = before ++ (key, tree.value) :: after) :
    (cleaned object).fields = before ++ (key, tree.value) :: after := by
  rw [valueCleaned.unchanged object outside]
  exact itself

theorem ValueCleaned.unchangedAround
    (valueCleaned : ValueCleaned options heap cleaned tree) :
    heap.UnchangedOutside (object :: fieldReferences [(key, tree)]) cleaned := by
  apply valueCleaned.unchanged.mono
  intro reference member
  simp [fieldReferences, member]

theorem ValueCleaned.refl
    (holds : tree.Holds heap) (same : cleanValue options tree = tree) :
    ValueCleaned options heap heap tree where
  holds := by
    rw [same]
    exact holds
  unchanged := JsHeap.UnchangedOutside.refl _ _
  prototypes := fun _ => rfl

/-- Emptiness is judged after the cleaning. -/
theorem isEmptyObject_of_holds
    {nested : ℕ} {fields : List (String × JsTree α)}
    (holds : (cleanValue options (.object nested fields)).Holds cleaned) :
    (options.removesEmptyObjects && isEmptyObject cleaned (.object nested)) =
      isBlank options (cleanValue options (.object nested fields)) := by
  have judged (remaining : List (String × JsTree α))
      (itself : (cleaned nested).fields = values remaining) :
      isEmptyObject cleaned (.object nested) = remaining.isEmpty := by
    simp [isEmptyObject, JsObject.keys, itself, values]
  by_cases deep : options.isDeep = true
  · rw [cleanValue_of_deep deep] at holds ⊢
    rw [judged _ holds.2.1]
    rfl
  · have shallow := Bool.eq_false_iff.mpr deep
    rw [cleanValue_of_shallow shallow] at holds ⊢
    rw [judged _ holds.2.1]
    rfl

/-- The field of a blank value is deleted. -/
theorem ValueCleaned.delete
    (valueCleaned : ValueCleaned options heap cleaned tree)
    (outside : object ∉ tree.references)
    (itself : (heap object).fields = before ++ (key, tree.value) :: after)
    (blank : isBlank options (cleanValue options tree) = true) :
    FieldsCleaned options heap (cleaned.delete object key) object before
      [(key, tree)] after := by
  have nothing : cleanFields options [(key, tree)] = [] := by
    rw [cleanFields_of_blank [] blank]
    rfl
  have deleted := JsHeap.unchangedOutside_delete cleaned object key
  constructor
  · rw [nothing, JsHeap.delete_same]
    have remaining :=
      JsObject.delete_fields (valueCleaned.itself outside itself)
    rw [remaining]
    simp [values]
  · rw [nothing]
    trivial
  · exact valueCleaned.unchangedAround.trans (deleted.mono (by simp))
  · intro reference
    have earlier := valueCleaned.prototypes reference
    exact (JsHeap.samePrototypes_delete cleaned object key reference).trans
      earlier

/-- Any other field stays. -/
theorem ValueCleaned.keep
    (valueCleaned : ValueCleaned options heap cleaned tree)
    (outside : object ∉ tree.references)
    (itself : (heap object).fields = before ++ (key, tree.value) :: after)
    (kept : isBlank options (cleanValue options tree) = false) :
    FieldsCleaned options heap cleaned object before [(key, tree)] after := by
  have alone :
      cleanFields options [(key, tree)] = [(key, cleanValue options tree)] := by
    rw [cleanFields_of_kept [] kept]
    rfl
  constructor
  · rw [alone, valueCleaned.itself outside itself]
    simp [values]
  · rw [alone]
    exact ⟨valueCleaned.holds, trivial⟩
  · exact valueCleaned.unchangedAround
  · exact valueCleaned.prototypes

/-- What the loop does with a plain object. -/
theorem removeBlankField_of_plain
    (recurse : JsHeap α → ℕ → Option (JsHeap α)) {nested : ℕ}
    (read : (heap object).get key = .object nested)
    (plain : isPlainObject heap (.object nested) = true) :
    removeBlankField recurse options object heap key =
      (if options.isDeep then recurse heap nested else some heap).map
        fun heap =>
          if options.removesEmptyObjects &&
              isEmptyObject heap ((heap object).get key) then
            heap.delete object key
          else
            heap := by
  unfold removeBlankField
  rw [read]
  exact if_pos plain

/-- The call for a nested object, if there is one. -/
theorem Recurses.exists_valueCleaned
    {recurse : JsHeap α → ℕ → Option (JsHeap α)} {nested : ℕ}
    {fields : List (String × JsTree α)}
    (recurses : Recurses recurse options (.object nested fields))
    (distinct : (JsTree.object nested fields).references.Nodup)
    (holds : (JsTree.object nested fields).Holds heap) :
    ∃ cleaned : JsHeap α,
      (if options.isDeep = true then recurse heap nested else some heap) =
          some cleaned ∧
        ValueCleaned options heap cleaned (.object nested fields) := by
  by_cases deep : options.isDeep = true
  · rw [if_pos deep]
    exact recurses heap nested fields rfl deep distinct holds
  · rw [if_neg deep]
    have shallow := Bool.eq_false_iff.mpr deep
    exact ⟨heap, rfl, ValueCleaned.refl holds (cleanValue_of_shallow shallow _)⟩

/-- One round of the loop. -/
theorem fieldsCleaned_removeBlankField
    {recurse : JsHeap α → ℕ → Option (JsHeap α)}
    (recurses : Recurses recurse options tree) (distinct : tree.references.Nodup)
    (holds : tree.Holds heap) (outside : object ∉ tree.references)
    (itself : (heap object).fields = before ++ (key, tree.value) :: after) :
    ∃ heap',
      removeBlankField recurse options object heap key = some heap' ∧
        FieldsCleaned options heap heap' object before [(key, tree)] after := by
  have read : (heap object).get key = tree.value :=
    JsObject.get_of_fields itself
  cases tree with
  | undefined =>
      unfold removeBlankField
      rw [read]
      have valueCleaned : ValueCleaned options heap heap .undefined :=
        .refl holds (by rw [cleanValue])
      refine ⟨heap.delete object key, rfl, ?_⟩
      exact valueCleaned.delete outside itself (by rw [cleanValue]; rfl)
  | null =>
      unfold removeBlankField
      rw [read]
      have valueCleaned : ValueCleaned options heap heap .null :=
        .refl holds (by rw [cleanValue])
      by_cases removed : options.removesNullValues = true
      · refine ⟨heap.delete object key, if_pos removed, ?_⟩
        apply valueCleaned.delete outside itself
        rw [cleanValue]
        exact removed
      · refine ⟨heap, if_neg removed, ?_⟩
        apply valueCleaned.keep outside itself
        rw [cleanValue]
        exact Bool.eq_false_iff.mpr removed
  | primitive value =>
      unfold removeBlankField
      rw [read]
      have valueCleaned : ValueCleaned options heap heap (.primitive value) :=
        .refl holds (by rw [cleanValue])
      refine ⟨heap, rfl, ?_⟩
      exact valueCleaned.keep outside itself (by rw [cleanValue]; rfl)
  | classInstance reference =>
      unfold removeBlankField
      rw [read]
      have valueCleaned : ValueCleaned options heap heap (.classInstance reference) :=
        .refl holds (by rw [cleanValue])
      have notPlain :
          ¬ isPlainObject heap (.object reference) = true := by
        have prototype : (heap reference).prototype = .other := holds
        simp [isPlainObject, prototype]
      refine ⟨heap, if_neg notPlain, ?_⟩
      exact valueCleaned.keep outside itself (by rw [cleanValue]; rfl)
  | object nested fields =>
      have plain : isPlainObject heap (.object nested) = true := by
        have prototype : (heap nested).prototype ≠ .other := holds.1
        simp [isPlainObject, prototype]
      obtain ⟨cleaned, itsHeap, valueCleaned⟩ :=
        recurses.exists_valueCleaned distinct holds
      have stillThere : (cleaned object).get key = .object nested :=
        JsObject.get_of_fields (valueCleaned.itself outside itself)
      have judged :
          (options.removesEmptyObjects &&
              isEmptyObject cleaned ((cleaned object).get key)) =
            isBlank options (cleanValue options (.object nested fields)) := by
        rw [stillThere]
        exact isEmptyObject_of_holds valueCleaned.holds
      rw [removeBlankField_of_plain recurse read plain, itsHeap]
      refine ⟨_, rfl, ?_⟩
      dsimp only
      rw [judged]
      by_cases blank :
          isBlank options (cleanValue options (.object nested fields)) = true
      · rw [if_pos blank]
        exact valueCleaned.delete outside itself blank
      · rw [if_neg blank]
        exact valueCleaned.keep outside itself (Bool.eq_false_iff.mpr blank)

end Field

theorem fieldsHold_append
    {heap : JsHeap α} {first later : List (String × JsTree α)}
    (firstHold : FieldsHold heap first) (laterHold : FieldsHold heap later) :
    FieldsHold heap (first ++ later) := by
  induction first with
  | nil => exact laterHold
  | cons field rest inductionHypothesis =>
      exact ⟨firstHold.1, inductionHypothesis firstHold.2⟩

section Loop

variable {options : RemoveBlankFieldsOptions} {object : ℕ}
variable {before : List (String × JsValue α)}

theorem FieldsCleaned.nil
    {heap : JsHeap α} (itself : (heap object).fields = before) :
    FieldsCleaned options heap heap object before [] [] where
  itself := by
    rw [itself]
    simp [values, cleanFields]
  hold := trivial
  unchanged := JsHeap.UnchangedOutside.refl _ _
  prototypes := fun _ => rfl

/-- One round, and then the others. -/
theorem FieldsCleaned.cons
    {heap middle heap' : JsHeap α} {key : String} {tree : JsTree α}
    {rest : List (String × JsTree α)}
    (first :
      FieldsCleaned options heap middle object before [(key, tree)]
        (values rest))
    (later :
      FieldsCleaned options middle heap' object
        (before ++ values (cleanFields options [(key, tree)])) rest [])
    (outside : object ∉ tree.references)
    (disjoint :
      ∀ reference ∈ tree.references, reference ∉ fieldReferences rest) :
    FieldsCleaned options heap heap' object before ((key, tree) :: rest) [] := by
  constructor
  · rw [later.itself, cleanFields_cons options (key, tree) rest]
    simp [values]
  · rw [cleanFields_cons]
    apply fieldsHold_append _ later.hold
    apply FieldsHold.frame later.prototypes _ _ first.hold
    intro reference member
    have within : reference ∈ tree.references := by
      have included := fieldReferences_cleanFields_sublist options [(key, tree)]
      have present := included.subset member
      simpa [fieldReferences] using present
    apply later.unchanged
    rw [List.mem_cons, not_or]
    constructor
    · intro same
      exact outside (same ▸ within)
    · exact disjoint reference within
  · have earlier : heap.UnchangedOutside
        (object :: fieldReferences ((key, tree) :: rest)) middle := by
      apply first.unchanged.mono
      intro reference member
      simp only [fieldReferences, List.append_nil, List.mem_cons,
        List.mem_append] at member ⊢
      tauto
    apply earlier.trans
    apply later.unchanged.mono
    intro reference member
    simp only [fieldReferences, List.mem_cons, List.mem_append] at member ⊢
    tauto
  · intro reference
    exact (later.prototypes reference).trans (first.prototypes reference)

/-- The loop goes through the names of the fields, whichever of them it has
deleted before. -/
theorem fieldsCleaned_foldlM
    {recurse : JsHeap α → ℕ → Option (JsHeap α)}
    (fields : List (String × JsTree α))
    (recurses : ∀ field ∈ fields, Recurses recurse options field.2)
    (before : List (String × JsValue α)) (heap : JsHeap α)
    (itself : (heap object).fields = before ++ values fields)
    (hold : FieldsHold heap fields)
    (outside : object ∉ fieldReferences fields)
    (distinct : (fieldReferences fields).Nodup) :
    ∃ heap',
      (fields.map Prod.fst).foldlM
          (removeBlankField recurse options object) heap = some heap' ∧
        FieldsCleaned options heap heap' object before fields [] := by
  induction fields generalizing before heap with
  | nil =>
      refine ⟨heap, rfl, ?_⟩
      apply FieldsCleaned.nil
      rw [itself]
      exact List.append_nil _
  | cons field rest inductionHypothesis =>
      obtain ⟨key, tree⟩ := field
      have parts : tree.references.Nodup ∧ (fieldReferences rest).Nodup ∧
          ∀ reference ∈ tree.references,
            reference ∉ fieldReferences rest := by
        obtain ⟨first, later, apart⟩ := List.nodup_append.mp distinct
        refine ⟨first, later, ?_⟩
        intro reference member again
        exact apart reference member reference again rfl
      obtain ⟨distinctFirst, distinctRest, disjoint⟩ := parts
      have outsideFirst : object ∉ tree.references :=
        fun member => outside (List.mem_append_left _ member)
      have outsideRest : object ∉ fieldReferences rest :=
        fun member => outside (List.mem_append_right _ member)
      obtain ⟨middle, stepped, first⟩ :=
        fieldsCleaned_removeBlankField (recurses (key, tree) List.mem_cons_self)
          distinctFirst hold.1 outsideFirst itself
      have holdRest : FieldsHold middle rest := by
        apply FieldsHold.frame first.prototypes rest _ hold.2
        intro reference member
        apply first.unchanged
        simp only [fieldReferences, List.append_nil, List.mem_cons, not_or]
        constructor
        · intro same
          exact outsideRest (same ▸ member)
        · intro again
          exact disjoint reference again member
      obtain ⟨heap', looped, later⟩ :=
        inductionHypothesis
          (fun field member => recurses field (List.mem_cons_of_mem _ member))
          _ middle first.itself holdRest outsideRest distinctRest
      refine ⟨heap', ?_, first.cons later outsideFirst disjoint⟩
      rw [List.map_cons, List.foldlM_cons, stepped]
      exact looped

end Loop

/-! ## The whole object -/

/-- The object has become the cleaned one, and nothing else has changed. -/
structure ObjectCleaned
    (options : RemoveBlankFieldsOptions) (heap heap' : JsHeap α)
    (reference : ℕ) (fields : List (String × JsTree α)) : Prop where
  holds : (JsTree.object reference (cleanFields options fields)).Holds heap'
  unchanged :
    heap.UnchangedOutside (JsTree.object reference fields).references heap'
  prototypes : heap.SamePrototypes heap'

theorem depth_le_fieldDepth
    {fields : List (String × JsTree α)} {field : String × JsTree α}
    (member : field ∈ fields) : field.2.depth ≤ fieldDepth fields := by
  induction fields with
  | nil => cases member
  | cons first rest inductionHypothesis =>
      obtain ⟨key, tree⟩ := first
      unfold fieldDepth
      rcases List.mem_cons.mp member with same | later
      · subst same
        exact Nat.le_max_left _ _
      · exact Nat.le_trans (inductionHypothesis later) (Nat.le_max_right _ _)

/-- A stack on which the tree can be descended is enough. -/
theorem objectCleaned_removeBlankFields
    (options : RemoveBlankFieldsOptions) (stack : ℕ) (heap : JsHeap α)
    (reference : ℕ) (fields : List (String × JsTree α))
    (enough : (JsTree.object reference fields).depth ≤ stack)
    (distinct : (JsTree.object reference fields).references.Nodup)
    (holds : (JsTree.object reference fields).Holds heap) :
    ∃ heap', removeBlankFields options stack heap reference = some heap' ∧
      ObjectCleaned options heap heap' reference fields := by
  induction stack generalizing heap reference fields with
  | zero => exact absurd enough (Nat.not_succ_le_zero _)
  | succ stack inductionHypothesis =>
      have shallower : fieldDepth fields ≤ stack := Nat.le_of_succ_le_succ enough
      obtain ⟨outside, distinctFields⟩ := List.nodup_cons.mp distinct
      obtain ⟨plain, itself, hold⟩ := holds
      have recurses :
          ∀ field ∈ fields,
            Recurses (removeBlankFields options stack) options field.2 := by
        intro field member heap nested nestedFields isObject deep distinct holds
        have nestedEnough := depth_le_fieldDepth member
        rw [isObject] at nestedEnough distinct holds ⊢
        obtain ⟨heap', called, cleaned⟩ :=
          inductionHypothesis heap nested nestedFields
            (Nat.le_trans nestedEnough shallower) distinct holds
        refine ⟨heap', called, ?_, cleaned.unchanged, cleaned.prototypes⟩
        rw [cleanValue_of_deep deep]
        exact cleaned.holds
      have names : (heap reference).keys = fields.map Prod.fst := by
        unfold JsObject.keys
        rw [itself]
        simp [values]
      obtain ⟨heap', looped, cleaned⟩ :=
        fieldsCleaned_foldlM fields recurses [] heap itself hold outside
          distinctFields
      refine ⟨heap', ?_, ?_, cleaned.unchanged, cleaned.prototypes⟩
      · rw [removeBlankFields, names]
        exact looped
      · refine ⟨?_, ?_, cleaned.hold⟩
        · rw [cleaned.prototypes reference]
          exact plain
        · rw [cleaned.itself]
          simp

/-- For every tree of plain objects in a heap, the function cleans the tree in
place, leaves everything else alone, and finds nothing to do a second time. -/
theorem removeBlankFields_cleans
    (options : RemoveBlankFieldsOptions) (stack : ℕ) (heap : JsHeap α)
    (reference : ℕ) (fields : List (String × JsTree α))
    (enough : (JsTree.object reference fields).depth ≤ stack)
    (distinct : (JsTree.object reference fields).references.Nodup)
    (holds : (JsTree.object reference fields).Holds heap) :
    ∃ heap', removeBlankFields options stack heap reference = some heap' ∧
      ObjectCleaned options heap heap' reference fields ∧
        removeBlankFields options stack heap' reference = some heap' := by
  obtain ⟨heap', called, cleaned⟩ :=
    objectCleaned_removeBlankFields options stack heap reference fields enough
      distinct holds
  refine ⟨heap', called, cleaned, ?_⟩
  have fewer := fieldReferences_cleanFields_sublist options fields
  have distinctAgain :
      (JsTree.object reference
        (cleanFields options fields)).references.Nodup :=
    distinct.sublist (fewer.cons_cons reference)
  have enoughAgain :
      (JsTree.object reference (cleanFields options fields)).depth ≤ stack :=
    Nat.le_trans
      (Nat.succ_le_succ (fieldDepth_cleanFields_le options fields)) enough
  obtain ⟨heap'', calledAgain, cleanedAgain⟩ :=
    objectCleaned_removeBlankFields options stack heap' reference
      (cleanFields options fields) enoughAgain distinctAgain cleaned.holds
  have stillHolds := cleanedAgain.holds
  rw [cleanFields_idempotent] at stillHolds
  have nothingChanged : heap'' = heap' := by
    funext other
    by_cases member :
        other ∈ (JsTree.object reference (cleanFields options fields)).references
    · exact JsTree.Holds.determines cleanedAgain.prototypes _ cleaned.holds
        stillHolds other member
    · exact cleanedAgain.unchanged other member
  rw [calledAgain, nothingChanged]

/-- The arguments of a durable queue, without the options that were not given. -/
def queueArguments : JsHeap Bool
  | 0 =>
      { prototype := .objectPrototype
        fields :=
          [("durable", .primitive true), ("expires", .undefined),
            ("arguments", .object 1)]
        distinct := by decide }
  | 1 =>
      { prototype := .objectPrototype
        fields := [("x-single-active-consumer", .undefined)]
        distinct := by decide }
  | _ =>
      { prototype := .other
        fields := []
        distinct := by decide }

def queueArgumentFields : List (String × JsTree Bool) :=
  [("durable", .primitive true), ("expires", .undefined),
    ("arguments", .object 1 [("x-single-active-consumer", .undefined)])]

theorem removeBlankFields_cleans_queueArguments :
    ∃ heap',
      removeBlankFields ⟨some true, some true, none⟩ 2 queueArguments 0 =
          some heap' ∧
        ObjectCleaned ⟨some true, some true, none⟩ queueArguments heap' 0
            queueArgumentFields ∧
          removeBlankFields ⟨some true, some true, none⟩ 2 heap' 0 =
            some heap' :=
  removeBlankFields_cleans _ 2 queueArguments 0 queueArgumentFields
    (by decide) (by decide)
    ⟨by decide, rfl, trivial, trivial, ⟨by decide, rfl, trivial, trivial⟩,
      trivial⟩

example :
    (removeBlankFields ⟨some true, some true, none⟩ 2 queueArguments 0).map
        (fun heap => (heap 0).fields) =
      some [("durable", .primitive true)] := by
  decide

end Amq.ObjectUtil
