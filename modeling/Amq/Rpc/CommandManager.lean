import Amq.Rpc.CommandHandlerManager
import Mathlib.Data.List.Basic

/-!
# Commands in flight

`CommandManager` keeps a `Command` for each correlation id that has been sent and
not yet answered.  A command changes its status once; `wait` hands out a promise
which settles with that status.
-/

namespace Amq.Rpc

/-- The codes of the errors that end a command on the client. -/
inductive ErrorCode where
  | commandInterrupted
  | commandTimedOut
  | commandCancelled
  | commandDismissed
  deriving DecidableEq, Repr

def ErrorCode.text : ErrorCode → String
  | .commandInterrupted => "COMMAND_INTERRUPTED"
  | .commandTimedOut => "COMMAND_TIMED_OUT"
  | .commandCancelled => "COMMAND_CANCELLED"
  | .commandDismissed => "COMMAND_DISMISSED"

/-- What a command fails with. -/
inductive CommandFailure (V : Type) where
  /-- `new CommandError({ code, queue, commandName, args })`. -/
  | commandError (code : ErrorCode) (queue commandName : String) (args : V)
  /-- Read from a reply, or thrown while it was read. -/
  | rejection (rejection : Rejection V)
  deriving DecidableEq

inductive CommandStatus (V : Type) where
  | ready
  | succeeded (response : Option V)
  | failed (error : CommandFailure V)
  deriving DecidableEq

structure Command (V : Type) where
  queue : String
  commandName : String
  args : V
  status : CommandStatus V
  /-- The call that holds the promise whose `resolve` and `reject` are kept. -/
  waiter : Option ℕ
  deriving DecidableEq

namespace Command

variable {V : Type}

def create (queue commandName : String) (args : V) : Command V where
  queue := queue
  commandName := commandName
  args := args
  status := .ready
  waiter := none

/-- `succeed` and `fail`: only a command that is ready changes its status. -/
def settle (command : Command V) (status : CommandStatus V) : Command V :=
  match command.status with
  | .ready => { command with status := status }
  | _ => command

/-- `wait`: a settled command answers at once, and otherwise the callbacks of the
promise are kept. -/
def wait (command : Command V) (call : ℕ) : Command V :=
  match command.status with
  | .ready => { command with waiter := some call }
  | _ => command

/-- The error which `failOneWithCode` and `failAllWithCode` make. -/
def failureWithCode (command : Command V) (code : ErrorCode) : CommandFailure V :=
  .commandError code command.queue command.commandName command.args

end Command

/-- A manager with its container; `commands` keeps the `Command` objects, to
which the container refers by their place. -/
structure CommandManager (κ V : Type) where
  /-- How many ids have been generated. -/
  generated : ℕ
  commands : List (Command V)
  /-- The `CommandContainer`: a map in the order of insertion. -/
  container : List (κ × ℕ)
  deriving DecidableEq

namespace CommandManager

variable {κ V : Type} [DecidableEq κ]

def empty : CommandManager κ V where
  generated := 0
  commands := []
  container := []

/-- `commandContainer.get`. -/
def get (manager : CommandManager κ V) (correlationId : κ) : Option ℕ :=
  (manager.container.find? fun entry => entry.1 = correlationId).map Prod.snd

/-- `commandContainer.set`. -/
def set
    (manager : CommandManager κ V) (correlationId : κ) (command : ℕ) :
    CommandManager κ V :=
  { manager with
    container :=
      if manager.container.any fun entry => entry.1 = correlationId then
        manager.container.map fun entry =>
          if entry.1 = correlationId then (correlationId, command) else entry
      else
        manager.container ++ [(correlationId, command)] }

/-- `commandContainer.delete`. -/
def delete (manager : CommandManager κ V) (correlationId : κ) :
    CommandManager κ V :=
  { manager with
    container :=
      manager.container.filter fun entry => entry.1 ≠ correlationId }

/-- `create`: the manager, and the correlation id of the new command. -/
def create
    (generateId : ℕ → κ) (manager : CommandManager κ V)
    (queue commandName : String) (args : V) : CommandManager κ V × κ :=
  let correlationId := generateId manager.generated
  ({ manager with
      generated := manager.generated + 1
      commands := manager.commands ++ [Command.create queue commandName args] }.set
        correlationId manager.commands.length,
    correlationId)

/-- Apply an operation to one of the `Command` objects. -/
def update
    (manager : CommandManager κ V) (command : ℕ)
    (operation : Command V → Command V) : CommandManager κ V :=
  { manager with
    commands :=
      match manager.commands[command]? with
      | none => manager.commands
      | some object => manager.commands.set command (operation object) }

/-- `succeed`; an id that is not in the container is ignored. -/
def succeed
    (manager : CommandManager κ V) (correlationId : κ) (data : Option V) :
    CommandManager κ V :=
  match manager.get correlationId with
  | none => manager
  | some command => manager.update command (·.settle (.succeeded data))

def failOneWithError
    (manager : CommandManager κ V) (correlationId : κ) (error : Rejection V) :
    CommandManager κ V :=
  match manager.get correlationId with
  | none => manager
  | some command =>
      manager.update command (·.settle (.failed (.rejection error)))

def failOneWithCode
    (manager : CommandManager κ V) (correlationId : κ) (code : ErrorCode) :
    CommandManager κ V :=
  match manager.get correlationId with
  | none => manager
  | some command =>
      manager.update command fun object =>
        object.settle (.failed (object.failureWithCode code))

def failAllWithCode (manager : CommandManager κ V) (code : ErrorCode) :
    CommandManager κ V :=
  { manager with
    commands :=
      manager.commands.mapIdx fun index object =>
        if manager.container.any fun entry => entry.2 = index then
          object.settle (.failed (object.failureWithCode code))
        else
          object }

end CommandManager

end Amq.Rpc
