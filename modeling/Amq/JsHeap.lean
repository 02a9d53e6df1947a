import Mathlib.Data.List.Nodup
import Mathlib.Logic.Function.Basic

/-!
# Objects and their fields

Objects live in a heap and are known by their references.  A plain object is one
without a class; a tree of plain objects is described by the objects it consists
of, so that the description says which parts of a heap belong to the tree.
-/

namespace Amq

/-- What `Object.getPrototypeOf` returns. -/
inductive JsPrototype where
  | objectPrototype
  | null
  | other
  deriving DecidableEq

/-- A value; functions count as primitive values. -/
inductive JsValue (α : Type) where
  | undefined
  | null
  | primitive (value : α)
  | object (reference : ℕ)
  deriving DecidableEq

/-- An object with its own fields in the order of `Object.keys`. -/
@[ext]
structure JsObject (α : Type) where
  prototype : JsPrototype
  fields : List (String × JsValue α)
  distinct : (fields.map Prod.fst).Nodup

namespace JsObject

variable {α : Type}

def keys (object : JsObject α) : List String :=
  object.fields.map Prod.fst

/-- `object[key]` for a field of its own. -/
def get (object : JsObject α) (key : String) : JsValue α :=
  (object.fields.lookup key).getD .undefined

/-- `delete object[key]`. -/
def delete (object : JsObject α) (key : String) : JsObject α where
  prototype := object.prototype
  fields := object.fields.filter fun field => field.1 ≠ key
  distinct :=
    List.Nodup.sublist (List.Sublist.map Prod.fst List.filter_sublist)
      object.distinct

theorem lookup_of_not_mem
    {fields : List (String × JsValue α)} {key : String}
    (absent : key ∉ fields.map Prod.fst) (rest : List (String × JsValue α)) :
    (fields ++ rest).lookup key = rest.lookup key := by
  induction fields with
  | nil => rfl
  | cons field fields inductionHypothesis =>
      rw [List.map_cons, List.mem_cons, not_or] at absent
      have different : (key == field.1) = false := beq_false_of_ne absent.1
      rw [List.cons_append, List.lookup_cons, different]
      exact inductionHypothesis absent.2

theorem filter_of_not_mem
    {fields : List (String × JsValue α)} {key : String}
    (absent : key ∉ fields.map Prod.fst) :
    (fields.filter fun field => field.1 ≠ key) = fields := by
  rw [List.filter_eq_self]
  intro field member
  have different : field.1 ≠ key := by
    intro same
    exact absent (same ▸ List.mem_map_of_mem member)
  exact decide_eq_true different

section Field

variable {object : JsObject α} {key : String} {value : JsValue α}
variable {before after : List (String × JsValue α)}

/-- The names before and after a field differ from its own. -/
theorem absent_around
    (itself : object.fields = before ++ (key, value) :: after) :
    key ∉ before.map Prod.fst ∧ key ∉ after.map Prod.fst := by
  have distinct := object.distinct
  rw [itself, List.map_append, List.map_cons] at distinct
  have parts := List.nodup_append.mp distinct
  constructor
  · intro member
    exact parts.2.2 key member key List.mem_cons_self rfl
  · exact (List.nodup_cons.mp parts.2.1).1

theorem get_of_fields
    (itself : object.fields = before ++ (key, value) :: after) :
    object.get key = value := by
  have absent := (absent_around itself).1
  unfold get
  rw [itself, lookup_of_not_mem absent, List.lookup_cons, beq_self_eq_true]
  rfl

theorem delete_fields
    (itself : object.fields = before ++ (key, value) :: after) :
    (object.delete key).fields = before ++ after := by
  obtain ⟨absentBefore, absentAfter⟩ := absent_around itself
  unfold delete
  dsimp only
  rw [itself, List.filter_append, List.filter_cons_of_neg (by simp),
    filter_of_not_mem absentBefore, filter_of_not_mem absentAfter]

end Field

end JsObject

/-- The objects that exist, by their references. -/
abbrev JsHeap (α : Type) : Type :=
  ℕ → JsObject α

namespace JsHeap

variable {α : Type}

/-- `delete object[key]`. -/
def delete (heap : JsHeap α) (object : ℕ) (key : String) : JsHeap α :=
  Function.update heap object ((heap object).delete key)

/-- No object has got another prototype. -/
def SamePrototypes (heap heap' : JsHeap α) : Prop :=
  ∀ reference, (heap' reference).prototype = (heap reference).prototype

/-- Only these objects have changed. -/
def UnchangedOutside (references : List ℕ) (heap heap' : JsHeap α) : Prop :=
  ∀ reference, reference ∉ references → heap' reference = heap reference

theorem UnchangedOutside.refl (references : List ℕ) (heap : JsHeap α) :
    UnchangedOutside references heap heap :=
  fun _ _ => rfl

theorem UnchangedOutside.mono
    {fewer more : List ℕ} {heap heap' : JsHeap α}
    (unchanged : UnchangedOutside fewer heap heap') (included : fewer ⊆ more) :
    UnchangedOutside more heap heap' :=
  fun reference outside =>
    unchanged reference fun member => outside (included member)

theorem UnchangedOutside.trans
    {references : List ℕ} {first second third : JsHeap α}
    (earlier : UnchangedOutside references first second)
    (later : UnchangedOutside references second third) :
    UnchangedOutside references first third :=
  fun reference outside =>
    (later reference outside).trans (earlier reference outside)

theorem delete_same (heap : JsHeap α) (object : ℕ) (key : String) :
    heap.delete object key object = (heap object).delete key :=
  Function.update_self _ _ _

theorem unchangedOutside_delete
    (heap : JsHeap α) (object : ℕ) (key : String) :
    UnchangedOutside [object] heap (heap.delete object key) := by
  intro reference outside
  have different : reference ≠ object := by
    intro same
    exact outside (List.mem_singleton.mpr same)
  exact Function.update_of_ne different _ _

theorem samePrototypes_delete
    (heap : JsHeap α) (object : ℕ) (key : String) :
    SamePrototypes heap (heap.delete object key) := by
  intro reference
  by_cases same : reference = object
  · rw [same, delete_same]
    rfl
  · have outside : reference ∉ [object] :=
      fun member => same (List.mem_singleton.mp member)
    rw [unchangedOutside_delete heap object key reference outside]

end JsHeap

/-! ## Trees of plain objects -/

/-- A tree of plain objects.  All other values are its leaves. -/
inductive JsTree (α : Type) where
  | undefined
  | null
  | primitive (value : α)
  /-- An array or an instance of a class. -/
  | classInstance (reference : ℕ)
  | object (reference : ℕ) (fields : List (String × JsTree α))

namespace JsTree

variable {α : Type}

def value : JsTree α → JsValue α
  | .undefined => .undefined
  | .null => .null
  | .primitive value => .primitive value
  | .classInstance reference => .object reference
  | .object reference _ => .object reference

def values (fields : List (String × JsTree α)) : List (String × JsValue α) :=
  fields.map fun field => (field.1, field.2.value)

mutual

/-- The plain objects of a tree. -/
def references : JsTree α → List ℕ
  | .object reference fields => reference :: fieldReferences fields
  | .undefined => []
  | .null => []
  | .primitive _ => []
  | .classInstance _ => []

def fieldReferences : List (String × JsTree α) → List ℕ
  | [] => []
  | (_, tree) :: rest => references tree ++ fieldReferences rest

end

mutual

/-- How deep the plain objects of a tree are nested. -/
def depth : JsTree α → ℕ
  | .object _ fields => fieldDepth fields + 1
  | .undefined => 0
  | .null => 0
  | .primitive _ => 0
  | .classInstance _ => 0

def fieldDepth : List (String × JsTree α) → ℕ
  | [] => 0
  | (_, tree) :: rest => max (depth tree) (fieldDepth rest)

end

mutual

/-- The tree is in the heap. -/
def Holds (heap : JsHeap α) : JsTree α → Prop
  | .object reference fields =>
      (heap reference).prototype ≠ .other ∧
        (heap reference).fields = values fields ∧ FieldsHold heap fields
  | .classInstance reference => (heap reference).prototype = .other
  | .undefined => True
  | .null => True
  | .primitive _ => True

def FieldsHold (heap : JsHeap α) : List (String × JsTree α) → Prop
  | [] => True
  | (_, tree) :: rest => Holds heap tree ∧ FieldsHold heap rest

end

/-! ### Changes elsewhere -/

section Frame

variable {heap heap' : JsHeap α}

mutual

/-- A tree stays in the heap as long as none of its objects changes. -/
theorem Holds.frame
    (prototypes : heap.SamePrototypes heap') :
    (tree : JsTree α) →
      (∀ reference ∈ tree.references, heap' reference = heap reference) →
        tree.Holds heap → tree.Holds heap'
  | .object reference fields, unchanged, holds => by
      obtain ⟨plain, itself, fieldsHold⟩ := holds
      have same : heap' reference = heap reference :=
        unchanged reference List.mem_cons_self
      refine ⟨?_, ?_, ?_⟩
      · rw [same]
        exact plain
      · rw [same]
        exact itself
      · apply FieldsHold.frame prototypes fields _ fieldsHold
        intro other member
        exact unchanged other (List.mem_cons_of_mem reference member)
  | .classInstance reference, _, holds => (prototypes reference).trans holds
  | .undefined, _, _ => trivial
  | .null, _, _ => trivial
  | .primitive _, _, _ => trivial

theorem FieldsHold.frame
    (prototypes : heap.SamePrototypes heap') :
    (fields : List (String × JsTree α)) →
      (∀ reference ∈ fieldReferences fields,
          heap' reference = heap reference) →
        FieldsHold heap fields → FieldsHold heap' fields
  | [], _, _ => trivial
  | (_, tree) :: rest, unchanged, holds => by
      constructor
      · apply Holds.frame prototypes tree _ holds.1
        intro reference member
        exact unchanged reference (List.mem_append_left _ member)
      · apply FieldsHold.frame prototypes rest _ holds.2
        intro reference member
        exact unchanged reference (List.mem_append_right _ member)

end

mutual

/-- A tree says everything about its objects but their prototypes. -/
theorem Holds.determines
    (prototypes : heap.SamePrototypes heap') :
    (tree : JsTree α) → tree.Holds heap → tree.Holds heap' →
      ∀ reference ∈ tree.references, heap' reference = heap reference
  | .object root fields, holds, holds', reference, member => by
      rcases List.mem_cons.mp member with same | nested
      · subst same
        apply JsObject.ext
        · exact prototypes reference
        · exact holds'.2.1.trans holds.2.1.symm
      · exact FieldsHold.determines prototypes fields holds.2.2 holds'.2.2
          reference nested
  | .classInstance _, _, _, _, member => absurd member List.not_mem_nil
  | .undefined, _, _, _, member => absurd member List.not_mem_nil
  | .null, _, _, _, member => absurd member List.not_mem_nil
  | .primitive _, _, _, _, member => absurd member List.not_mem_nil

theorem FieldsHold.determines
    (prototypes : heap.SamePrototypes heap') :
    (fields : List (String × JsTree α)) →
      FieldsHold heap fields → FieldsHold heap' fields →
        ∀ reference ∈ fieldReferences fields, heap' reference = heap reference
  | [], _, _, _, member => absurd member List.not_mem_nil
  | (_, tree) :: rest, holds, holds', reference, member => by
      rcases List.mem_append.mp member with first | later
      · exact Holds.determines prototypes tree holds.1 holds'.1 reference first
      · exact FieldsHold.determines prototypes rest holds.2 holds'.2 reference
          later

end

end Frame

end JsTree

end Amq
