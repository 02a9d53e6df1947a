import Amq.JsNumber

/-!
# JSON values

What `JSON.parse` can return.  The fields of an object keep their order; a field
that an object does not have reads as `undefined`, which is no JSON value.
-/

namespace Amq

inductive Json where
  | null
  | boolean (value : Bool)
  | number (value : ℚ)
  | string (value : String)
  | array (elements : List Json)
  | object (fields : List (String × Json))

namespace Json

/-! Equality is decided along the structure of two values. -/

mutual

def decEq : (left right : Json) → Decidable (left = right)
  | .null, .null => isTrue rfl
  | .boolean left, .boolean right =>
      decidable_of_iff (left = right) (by simp)
  | .number left, .number right =>
      decidable_of_iff (left = right) (by simp)
  | .string left, .string right =>
      decidable_of_iff (left = right) (by simp)
  | .array left, .array right =>
      have := decEqElements left right
      decidable_of_iff (left = right) (by simp)
  | .object left, .object right =>
      have := decEqFields left right
      decidable_of_iff (left = right) (by simp)
  | .null, .boolean _ | .null, .number _ | .null, .string _
  | .null, .array _ | .null, .object _
  | .boolean _, .null | .boolean _, .number _ | .boolean _, .string _
  | .boolean _, .array _ | .boolean _, .object _
  | .number _, .null | .number _, .boolean _ | .number _, .string _
  | .number _, .array _ | .number _, .object _
  | .string _, .null | .string _, .boolean _ | .string _, .number _
  | .string _, .array _ | .string _, .object _
  | .array _, .null | .array _, .boolean _ | .array _, .number _
  | .array _, .string _ | .array _, .object _
  | .object _, .null | .object _, .boolean _ | .object _, .number _
  | .object _, .string _ | .object _, .array _ => isFalse nofun

def decEqElements : (left right : List Json) → Decidable (left = right)
  | [], [] => isTrue rfl
  | [], _ :: _ => isFalse nofun
  | _ :: _, [] => isFalse nofun
  | left :: lefts, right :: rights =>
      have := decEq left right
      have := decEqElements lefts rights
      decidable_of_iff (left = right ∧ lefts = rights) (by simp)

def decEqFields : (left right : List (String × Json)) → Decidable (left = right)
  | [], [] => isTrue rfl
  | [], _ :: _ => isFalse nofun
  | _ :: _, [] => isFalse nofun
  | (name, left) :: lefts, (name', right) :: rights =>
      have := decEq left right
      have := decEqFields lefts rights
      decidable_of_iff (name = name' ∧ left = right ∧ lefts = rights)
        (by simp [and_assoc])

end

instance : DecidableEq Json :=
  decEq

/-- `Boolean(value)`. -/
def truthy : Json → Bool
  | .null => false
  | .boolean value => value
  | .number value => decide (value ≠ 0)
  | .string value => decide (value ≠ "")
  | .array _ => true
  | .object _ => true

/-- `value.name` for a field that only objects have; reading it from `null`
throws, which the callers see to. -/
def field (value : Json) (name : String) : Option Json :=
  match value with
  | .object fields => fields.lookup name
  | _ => none

/-- `JSON.stringify` drops the fields that are `undefined`. -/
def ofFields (fields : List (String × Option Json)) : Json :=
  .object <|
    fields.filterMap fun entry => entry.2.map fun value => (entry.1, value)

end Json

/-! ## Serializers -/

/-- `JSON.parse` after `JSON.stringify` is the identity. -/
def RoundTrips {Buffer : Type} (serializer : JsonBufferSerializer Buffer Json) :
    Prop :=
  ∀ value, ∃ content, serializer.serialize value = some content ∧
    serializer.deserialize content = some value

/-- Values as their own contents. -/
def jsonSerializer : JsonBufferSerializer Json Json :=
  ⟨some, some⟩

theorem jsonSerializer_roundTrips : RoundTrips jsonSerializer :=
  fun value => ⟨value, rfl, rfl⟩

end Amq
