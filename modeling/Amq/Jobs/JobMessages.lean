import Amq.Json
import Amq.Jobs.JobClient
import Amq.Jobs.JobServer

/-!
# Job messages as JSON

The fields of a message are JSON values or missing, whoever wrote the message.
A client and the servers only have to share the serializer.
-/

namespace Amq.Jobs

/-- A JSON value, or `undefined`. -/
abbrev JobValue : Type :=
  Option Json

namespace JobValue

def emptyObject : JobValue :=
  some (.object [])

def isPlainObject : JobValue → Bool
  | some (.object _) => true
  | _ => false

def isObject : JobValue → Bool
  | some (.object _) => true
  | some (.array _) => true
  | _ => false

/-- `value || {}`. -/
def orEmptyObject : Option JobValue → JobValue
  | some (some value) => if value.truthy then some value else emptyObject
  | _ => emptyObject

theorem orEmptyObject_of_isObject
    {value : JobValue} (itsObject : value.isObject = true) :
    orEmptyObject (some value) = value := by
  unfold isObject at itsObject
  split at itsObject
  · rfl
  · rfl
  · cases itsObject

end JobValue

/-- What the engine does with operands that are no numbers. -/
structure Coercions where
  /-- `Number(value)`, which throws for some objects. -/
  toNumber : JobValue → Option JsNumber
  /-- `value + 1`, as it would be written to a message. -/
  addOne : JobValue → Option JobValue
  toText : JobValue → String
  numberText : JsNumber → String

namespace Coercions

def operators (coercions : Coercions) : JsOperators JobValue where
  greaterThan value number :=
    match value with
    | some (.number value) => some (number.lessThan (.finite value))
    | value => (coercions.toNumber value).map number.lessThan
  addOne value :=
    match value with
    | some (.number value) => some (some (.number (value + 1)))
    | value => coercions.addOne value
  one := some (.number 1)
  orEmptyObject := JobValue.orEmptyObject
  isObject := JobValue.isObject
  toText := coercions.toText
  numberText := coercions.numberText

end Coercions

namespace SerializedContext

def toJson (context : SerializedContext JobValue) : Json :=
  .ofFields
    [("job", context.job), ("data", context.data),
      ("retryContext", context.retryContext), ("attempt", context.attempt)]

/-- The destructuring of a parsed message, which throws on `null`. -/
def ofJson : Json → Option (SerializedContext JobValue)
  | .null => none
  | value =>
      some
        { job := value.field "job"
          data := value.field "data"
          retryContext := value.field "retryContext"
          attempt := value.field "attempt" }

theorem ofJson_toJson (context : SerializedContext JobValue) :
    ofJson context.toJson = some context := by
  obtain ⟨job, data, retryContext, attempt⟩ := context
  cases job <;> cases data <;> cases retryContext <;> cases attempt <;>
    simp [toJson, ofJson, Json.ofFields, Json.field, List.lookup_cons]

end SerializedContext

section Serializer

variable {κ Buffer : Type}

/-- The serializer of a client or a server, on the fields of a message. -/
def contextSerializer
    (serializer : JsonBufferSerializer Buffer Json) :
    JsonBufferSerializer Buffer (SerializedContext JobValue) where
  serialize context := serializer.serialize context.toJson
  deserialize content :=
    (serializer.deserialize content).bind SerializedContext.ofJson

/-- What one process writes, another one reads. -/
theorem contextSerializer_roundTrips
    {serializer : JsonBufferSerializer Buffer Json}
    (roundTrips : RoundTrips serializer)
    {context : SerializedContext JobValue} {content : Buffer}
    (serialized : (contextSerializer serializer).serialize context = some content) :
    (contextSerializer serializer).deserialize content = some context := by
  obtain ⟨written, wrote, read⟩ := roundTrips context.toJson
  have same : written = content :=
    Option.some.inj (wrote.symm.trans serialized)
  subst same
  simp only [contextSerializer, read, Option.bind_some]
  exact SerializedContext.ofJson_toJson context

def Coercions.clientConfig
    (coercions : Coercions) (serializer : JsonBufferSerializer Buffer Json)
    (exchange : String) (generateId : ℕ → κ) :
    JobClientConfig κ Buffer JobValue where
  exchange := exchange
  serialize := (contextSerializer serializer).serialize
  text value := some (.string value)
  absent := none
  emptyObject := JobValue.emptyObject
  one := some (.number 1)
  isPlainObject := JobValue.isPlainObject
  toText := coercions.toText
  numberText := coercions.numberText
  generateId := generateId

def Coercions.serverConfig
    (coercions : Coercions) (serializer : JsonBufferSerializer Buffer Json)
    (defaultRetryDelayCalculator : RetryDelayCalculator JobValue)
    (defaultMaxAttemptCount : JsNumber) :
    JobServerConfig Buffer JobValue where
  operators := coercions.operators
  jsonBufferSerializer := contextSerializer serializer
  defaultRetryDelayCalculator := defaultRetryDelayCalculator
  defaultMaxAttemptCount := defaultMaxAttemptCount

end Serializer

end Amq.Jobs
