import Amq.JsNumber
import Mathlib.Logic.Function.Basic

/-!
# Command handlers and serialized errors

A command handler can reject with anything.  `ErrorSerializer` keeps the fields
of an `Error`, with the code of an `AppError`, and passes any other value on.
-/

namespace Amq.Rpc

open Function

/-- An instance of `Error`; `code` is read from instances of `AppError` only. -/
structure JsError where
  message : String
  name : String
  stack : Option String
  appErrorCode : Option String
  deriving DecidableEq, Repr

structure ErrorData where
  message : String
  name : String
  stack : Option String
  code : Option String
  deriving DecidableEq, Repr

/-- What a command handler rejects with; `undefined` is no value. -/
inductive Rejection (V : Type) where
  | error (error : JsError)
  | value (value : Option V)
  deriving DecidableEq

/-- The field `data` of a reply. -/
inductive ReplyData (V : Type) where
  | error (data : ErrorData)
  | value (value : Option V)
  deriving DecidableEq

def ErrorSerializer.serialize {V : Type} : Rejection V → ReplyData V
  | .error error =>
      .error
        { message := error.message
          name := error.name
          stack := error.stack
          code := error.appErrorCode }
  | .value value => .value value

/-- `new UnknownCommandError(commandName)`; its stack is not modelled. -/
def unknownCommandError (commandName : String) : JsError where
  message := "Handler for command \"" ++ commandName ++ "\" is not registered"
  name := "UnknownCommandError"
  stack := none
  appErrorCode := some "UNKNOWN_COMMAND"

inductive CommandHandler where
  | function
  | object (hasHandle : Bool)
  deriving DecidableEq, Repr

/-- `CommandHandlerValidator.validate` on a function or an object. -/
def CommandHandlerValidator.validate
    (value : CommandHandler) (context : String) : Except String Unit :=
  match value with
  | .function => .ok ()
  | .object true => .ok ()
  | .object false =>
      .error <|
        "Command handler is invalid: must have a #handle method (" ++ context ++
          ")"

structure CommandHandlerManager (V : Type) where
  commandHandlers : V → Option CommandHandler

namespace CommandHandlerManager

variable {V : Type} [DecidableEq V]

def set
    (manager : CommandHandlerManager V) (toText : V → String)
    (commandName : V) (handler : CommandHandler) :
    Except String (CommandHandlerManager V) :=
  match manager.commandHandlers commandName with
  | some _ =>
      .error ("Command handler already exists: " ++ toText commandName)
  | none => do
      CommandHandlerValidator.validate handler (toText commandName)
      pure ⟨update manager.commandHandlers commandName (some handler)⟩

/-- The user code that `handle` calls, or the error it rejects with. -/
def handle
    (manager : CommandHandlerManager V) (toText : V → String)
    (commandName : V) : Except JsError CommandHandler :=
  match manager.commandHandlers commandName with
  | none => .error (unknownCommandError (toText commandName))
  | some handler => .ok handler

def deleteAll (_manager : CommandHandlerManager V) : CommandHandlerManager V :=
  ⟨fun _ => none⟩

end CommandHandlerManager

end Amq.Rpc
