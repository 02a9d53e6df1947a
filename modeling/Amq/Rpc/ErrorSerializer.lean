import Amq.Json
import Amq.Rpc.FirstOutcome
import Amq.Rpc.RpcServer

/-!
# Outcomes on the wire

The outcome of a handler is put into a reply, written as JSON, read again and
told apart by its state.  `ErrorSerializer.serialize` asks whether a rejection is
an `Error`, `ErrorSerializer.deserialize` asks whether the data is truthy.
-/


namespace Amq.Rpc

open Function Amq.Transition

/-! ## From the handler to the buffer -/

def ErrorData.toJson (data : ErrorData) : Json :=
  .ofFields
    [("message", some (.string data.message)), ("name", some (.string data.name)),
      ("stack", data.stack.map .string), ("code", data.code.map .string)]

def ReplyData.toJson : ReplyData Json → Option Json
  | .error data => some data.toJson
  | .value data => data

def ReplyState.text : ReplyState → String
  | .success => "success"
  | .error => "error"

/-- The argument `{ state, data }` of the serializer. -/
def Reply.toJson (reply : Reply Json) : Json :=
  .ofFields [("state", some (.string reply.state.text)), ("data", reply.data.toJson)]

/-- `jsonBufferSerializer.serialize` on a reply. -/
def Reply.serialize {Buffer : Type}
    (serializer : JsonBufferSerializer Buffer Json) (reply : Reply Json) :
    Option Buffer :=
  serializer.serialize reply.toJson

/-! ## From the buffer to the command -/

/-- The error that `ErrorSerializer.deserialize` makes; its fields other than the
message are whatever the data has under these names. -/
structure ReceivedError where
  message : String
  name : Option Json
  stack : Option Json
  code : Option Json

/-- What a reply can settle a command with. -/
inductive ReceivedValue where
  | json (value : Json)
  | error (error : ReceivedError)

/-- What the engine adds: the text of values that are no strings, which can
throw, and the errors that it throws itself. -/
structure Engine where
  toText : Json → Option String
  syntaxError : JsError
  typeError : JsError

/-- The message of `new Error(message)`. -/
def Engine.errorMessage (engine : Engine) : Option Json → Except JsError String
  | none => .ok ""
  | some (.string text) => .ok text
  | some value =>
      match engine.toText value with
      | none => .error engine.typeError
      | some text => .ok text

def ErrorSerializer.deserialize
    (engine : Engine) (data : Option Json) :
    Except JsError (Option ReceivedValue) :=
  match data with
  | none => .ok none
  | some value =>
      if value.truthy then do
        let message ← engine.errorMessage (value.field "message")
        pure <|
          some <|
            .error
              { message := message
                name := value.field "name"
                stack := value.field "stack"
                code := value.field "code" }
      else
        .ok (some (.json value))

/-- `state === 'success'`. -/
def isSuccess : Option Json → Bool
  | some (.string state) => state = "success"
  | _ => false

/-- `handleReplyQueueMessage` on the content of a reply. -/
def readReply {Buffer : Type}
    (serializer : JsonBufferSerializer Buffer Json) (engine : Engine)
    (content : Buffer) :
    Except (Rejection ReceivedValue) (Option ReceivedValue) :=
  match serializer.deserialize content with
  | none => .error (.error engine.syntaxError)
  | some .null => .error (.error engine.typeError)
  | some reply =>
      if isSuccess (reply.field "state") then
        .ok ((reply.field "data").map .json)
      else
        match ErrorSerializer.deserialize engine (reply.field "data") with
        | .ok value => .error (.value value)
        | .error thrown => .error (.error thrown)

/-! ## The round trip -/

/-- The call of `sendCommand` has settled as the handler did. -/
def Received (outcome : HandlerOutcome Json) (result : SendResult ReceivedValue) :
    Prop :=
  match outcome with
  | .resolved value => result = .resolved (value.map .json)
  | .rejected (.value value) =>
      result = .rejected (.rejection (.value (value.map .json)))
  | .rejected (.error error) =>
      ∃ received : ReceivedError,
        result = .rejected (.rejection (.value (some (.error received)))) ∧
          received.name = some (.string error.name) ∧
          received.message = error.message ∧
          received.stack = error.stack.map .string ∧
          ∀ code, error.appErrorCode = some code →
            received.code = some (.string code)

/-- The handler has not rejected with a truthy value that is no `Error`. -/
def Survives : HandlerOutcome Json → Prop
  | .rejected (.value (some value)) => value.truthy = false
  | _ => True

theorem field_state (reply : Reply Json) :
    reply.toJson.field "state" = some (.string reply.state.text) := by
  cases data : reply.data.toJson <;>
    simp [Reply.toJson, Json.ofFields, Json.field, data]

theorem field_data (reply : Reply Json) :
    reply.toJson.field "data" = reply.data.toJson := by
  cases data : reply.data.toJson <;>
    simp [Reply.toJson, Json.ofFields, Json.field, data, List.lookup_cons]

theorem errorData_fields (data : ErrorData) :
    data.toJson.field "message" = some (.string data.message) ∧
      data.toJson.field "name" = some (.string data.name) ∧
      data.toJson.field "stack" = data.stack.map .string ∧
      data.toJson.field "code" = data.code.map .string := by
  obtain ⟨message, name, stack, code⟩ := data
  refine ⟨?_, ?_, ?_, ?_⟩
  · simp [ErrorData.toJson, Json.ofFields, Json.field]
  · simp [ErrorData.toJson, Json.ofFields, Json.field, List.lookup_cons]
  · cases stack <;> cases code <;>
      simp [ErrorData.toJson, Json.ofFields, Json.field, List.lookup_cons]
  · cases stack <;> cases code <;>
      simp [ErrorData.toJson, Json.ofFields, Json.field, List.lookup_cons]

/-- What the client makes of a reply that the server has written. -/
theorem readReply_serialize
    {Buffer : Type} {serializer : JsonBufferSerializer Buffer Json}
    (roundTrips : RoundTrips serializer) (engine : Engine)
    {reply : Reply Json} {content : Buffer}
    (replied : reply.serialize serializer = some content) :
    readReply serializer engine content =
      match reply.state with
      | .success => .ok (reply.data.toJson.map .json)
      | .error =>
          match ErrorSerializer.deserialize engine reply.data.toJson with
          | .ok value => .error (.value value)
          | .error thrown => .error (.error thrown) := by
  obtain ⟨written, serialized, parsed⟩ := roundTrips reply.toJson
  have same : written = content :=
    Option.some.inj (serialized.symm.trans replied)
  subst same
  have isObject : ∃ fields, reply.toJson = .object fields := ⟨_, rfl⟩
  have state := field_state reply
  have data := field_data reply
  unfold readReply
  rw [parsed]
  obtain ⟨fields, written⟩ := isObject
  rw [written] at state data ⊢
  dsimp only
  rw [state, data]
  cases reply.state with
  | success => rfl
  | error => rfl

/-- An error arrives with its name, its message, its stack and its code. -/
theorem deserialize_errorData (engine : Engine) (data : ErrorData) :
    ErrorSerializer.deserialize engine (some data.toJson) =
      .ok
        (some
          (.error
            { message := data.message
              name := some (.string data.name)
              stack := data.stack.map .string
              code := data.code.map .string })) := by
  obtain ⟨message, name, stack, code⟩ := errorData_fields data
  have truthy : data.toJson.truthy = true := rfl
  unfold ErrorSerializer.deserialize
  dsimp only
  rw [if_pos truthy, message, name, stack, code]
  rfl

/-- A truthy value that is no error does not arrive as itself. -/
theorem deserialize_truthy
    (engine : Engine) {value : Json} (truthy : value.truthy = true) :
    ErrorSerializer.deserialize engine (some value) ≠
      .ok (some (.json value)) := by
  unfold ErrorSerializer.deserialize
  dsimp only
  rw [if_pos truthy]
  cases engine.errorMessage (value.field "message") with
  | error thrown =>
      intro same
      cases same
  | ok message =>
      intro same
      cases same

/-- What `sendCommand` settles with when this reply is the first outcome of its
command. -/
def replyResult {Buffer V : Type}
    (readReply : Buffer → Except (Rejection V) (Option V)) (content : Buffer) :
    SendResult V :=
  match readReply content with
  | .ok data => .resolved data
  | .error rejection => .rejected (.rejection rejection)

theorem statusResult_replyOutcome {Buffer V : Type}
    (readReply : Buffer → Except (Rejection V) (Option V)) (content : Buffer)
    (command : Command V) :
    CommandSender.statusResult
        ((replyOutcome (readReply content)).status command) =
      some (replyResult readReply content) := by
  unfold replyResult
  cases readReply content with
  | ok data => rfl
  | error rejection => rfl

/-- The outcome of a handler reaches the client unless it is a truthy value that
is no error. -/
theorem received_iff
    {Buffer : Type} {serializer : JsonBufferSerializer Buffer Json}
    (roundTrips : RoundTrips serializer) (engine : Engine)
    {outcome : HandlerOutcome Json} {content : Buffer}
    (replied : outcome.reply.serialize serializer = some content) :
    Received outcome (replyResult (readReply serializer engine) content) ↔
      Survives outcome := by
  have read := readReply_serialize roundTrips engine replied
  unfold replyResult
  rw [read]
  cases outcome with
  | resolved value => exact iff_of_true rfl trivial
  | rejected rejection =>
      cases rejection with
      | error error =>
          refine iff_of_true ?_ trivial
          have arrived :=
            deserialize_errorData engine
              { message := error.message
                name := error.name
                stack := error.stack
                code := error.appErrorCode }
          simp only [HandlerOutcome.reply, ErrorSerializer.serialize,
            ReplyData.toJson, arrived]
          refine ⟨_, rfl, rfl, rfl, rfl, ?_⟩
          intro code itsCode
          rw [itsCode]
          rfl
      | value value =>
          cases value with
          | none => exact iff_of_true rfl trivial
          | some value =>
              cases truthy : value.truthy with
              | false =>
                  refine iff_of_true ?_ truthy
                  simp only [HandlerOutcome.reply, ErrorSerializer.serialize,
                    ReplyData.toJson, ErrorSerializer.deserialize, truthy]
                  rfl
              | true =>
                  refine iff_of_false ?_ ?_
                  · have changed := deserialize_truthy engine truthy
                    simp only [HandlerOutcome.reply, ErrorSerializer.serialize,
                      ReplyData.toJson]
                    intro same
                    cases arrived :
                        ErrorSerializer.deserialize engine (some value) with
                    | error thrown =>
                        rw [arrived] at same
                        cases same
                    | ok received =>
                        rw [arrived] at same
                        cases same
                        exact changed arrived
                  · intro falsy
                    exact Bool.false_ne_true (falsy.symm.trans truthy)

/-- A call of `sendCommand` whose command gets the reply of a handler before any
other outcome settles as the handler did, exactly when the handler has not
rejected with a truthy value that is no error. -/
theorem outcome_received_iff
    {κ Buffer : Type} [DecidableEq κ]
    (serializer : JsonBufferSerializer Buffer Json)
    (roundTrips : RoundTrips serializer) (engine : Engine)
    (config : CommandSenderConfig κ Buffer ReceivedValue)
    (reads : config.readReply = readReply serializer engine)
    (unique : Injective config.generateId)
    (outcome : HandlerOutcome Json) (content : Buffer)
    (replied : outcome.reply.serialize serializer = some content)
    (earlier schedule : List (CommandSenderEvent κ Buffer ReceivedValue))
    (sender final : CommandSender κ Buffer ReceivedValue)
    (before :
      (CommandSender.machine config).run (CommandSender.create config) earlier =
        some sender)
    (execution :
      (CommandSender.machine config).run sender schedule = some final)
    (index command : ℕ) (call call' : SendCall κ ReceivedValue)
    (object : Command ReceivedValue) (result : SendResult ReceivedValue)
    (present : sender.calls[index]? = some call)
    (inFlight : call.phase.correlationId? = some (config.generateId command))
    (itsCommand : sender.commandManager.commands[command]? = some object)
    (ready : object.status = .ready)
    (first :
      (outcomesFor (config.generateId command)
          (sender.recordedAlong config schedule)).head? =
        some (replyOutcome (config.readReply content)))
    (present' : final.calls[index]? = some call')
    (settled : call'.phase = .settled result)
    (sent : result ≠ .sendingFailed)
    (kept : result ≠ CommandSender.interrupted config call) :
    Received outcome result ↔ Survives outcome := by
  have correlated := CommandSender.correlated_run unique before
  obtain ⟨waiter, placed⟩ :=
    CommandSender.commands_run unique correlated execution itsCommand
  have status :
      (object.settleAll
          (outcomesFor (config.generateId command)
            (sender.recordedAlong config schedule))).status =
        (replyOutcome (config.readReply content)).status object := by
    cases outcomes :
        outcomesFor (config.generateId command)
          (sender.recordedAlong config schedule) with
    | nil =>
        rw [outcomes] at first
        cases first
    | cons decisive later =>
        rw [outcomes] at first
        rw [Command.settleAll_of_ready ready, Option.some.inj first]
  have itsResult : result = replyResult config.readReply content := by
    rcases CommandSender.settledBy_run unique correlated execution present
        inFlight present' settled with failed | ⟨_, interrupted⟩ | answered
    · exact absurd failed sent
    · exact absurd interrupted kept
    · obtain ⟨finally_, found, decided⟩ := answered
      cases Option.some.inj (placed.symm.trans found)
      dsimp only at decided
      rw [status, statusResult_replyOutcome] at decided
      exact (Option.some.inj decided).symm
  rw [itsResult, reads]
  exact received_iff roundTrips engine replied

/-! ## A concrete client -/

/-- An engine that never has to turn an object into a string. -/
def plainEngine : Engine where
  toText := fun _ => none
  syntaxError := ⟨"", "SyntaxError", none, none⟩
  typeError := ⟨"", "TypeError", none, none⟩

def jsonConfig : CommandSenderConfig ℕ Json ReceivedValue where
  queue := "commands"
  timeoutMs := .ofNat 30000
  replyQueueDisuseExpireMs := .ofNat 60000
  replyQueueId := "id"
  generateId := id
  text := fun text => .json (.string text)
  serialize := fun _ => some .null
  readReply := readReply jsonSerializer plainEngine

/-- A command waits for its reply. -/
def waitingForReply : List (CommandSenderEvent ℕ Json ReceivedValue) :=
  [.sendCommand "first" (.json .null), .consumeRun 0 (.queueAsserted .fulfilled),
    .consumeRun 0 (.queueConsumed 7), .initialized 0,
    .sendSettled 0 .fulfilled]

/-- The reply to a handler that has settled like this, and the answer. -/
def repliedWith (outcome : HandlerOutcome Json) :
    List (CommandSenderEvent ℕ Json ReceivedValue) :=
  [.replyQueueMessage outcome.reply.toJson 0 1, .answered 0]

/-- The handler has thrown an `AppError`. -/
def appErrorThrown : HandlerOutcome Json :=
  .rejected (.error ⟨"Not enough", "StockError", some "at", some "STOCK"⟩)

/-- What the call rejects with then. -/
def stockError : ReceivedError where
  message := "Not enough"
  name := some (.string "StockError")
  stack := some (.string "at")
  code := some (.string "STOCK")

theorem outcome_received_iff_appErrorThrown :
    ∃ final : CommandSender ℕ Json ReceivedValue,
      (CommandSender.machine jsonConfig).run (CommandSender.create jsonConfig)
          (waitingForReply ++ repliedWith appErrorThrown) = some final ∧
        final.calls.map SendCall.phase =
          [.settled (.rejected (.rejection (.value (some (.error stockError)))))] ∧
        Received appErrorThrown
          (.rejected (.rejection (.value (some (.error stockError))))) := by
  have decided :=
    outcome_received_iff jsonSerializer jsonSerializer_roundTrips plainEngine
      jsonConfig rfl injective_id appErrorThrown _ rfl waitingForReply
      (repliedWith appErrorThrown) _ _ rfl rfl 0 0 _ _ _ _ rfl rfl rfl rfl rfl
      rfl rfl nofun nofun
  exact ⟨_, rfl, rfl, decided.mpr trivial⟩

/-- The handler has thrown a string. -/
def stringThrown : HandlerOutcome Json :=
  .rejected (.value (some (.string "boom")))

/-- The string arrives as an error without a message. -/
theorem stringThrown_becomes_error :
    ¬ ∀ (outcome : HandlerOutcome Json)
        (final : CommandSender ℕ Json ReceivedValue)
        (call : SendCall ℕ ReceivedValue) (result : SendResult ReceivedValue),
        (CommandSender.machine jsonConfig).run (CommandSender.create jsonConfig)
            (waitingForReply ++ repliedWith outcome) = some final →
          final.calls[0]? = some call → call.phase = .settled result →
          Received outcome result := by
  intro always
  have received := always stringThrown _ _ _ rfl rfl rfl
  cases received

end Amq.Rpc
