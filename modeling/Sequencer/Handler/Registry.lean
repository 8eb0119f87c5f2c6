import Sequencer.Event
import Sequencer.Failure
import Sequencer.Table

/-!
# Registries — handlers by command name

A registry holds at most one handler for a command. The outcome of a dispatched command is told as
an event and then reported under the id of the command; a command without a handler is refused, and
nothing is told.
-/

namespace Sequencer

/-- Handlers by the name of their command. -/
structure Registry (α : Type) where
  handlers : Table String α := {}

namespace Registry

variable {α : Type}

/-- The registry with a handler for `command`; there must be none yet. -/
def register (registry : Registry α) (command : String) (handler : α) :
    Except Refusal (Registry α) :=
  if registry.handlers.contains command then .error (.duplicateHandler command)
  else .ok { handlers := registry.handlers.set command handler }

/-- The handler for `command`. -/
def get? (registry : Registry α) (command : String) : Option α := registry.handlers.get? command

/-- The handler that a dispatch of `command` executes. -/
def find (registry : Registry α) (command : String) : Except Refusal α :=
  match registry.get? command with
  | some handler => .ok handler
  | none => .error (.unknownCommand command)

/-- The outcome of the command `command` with the id `id`, as an event. -/
def outcomeEvent (id command : String) : Option Failure → Event
  | none => { kind := .commandCompleted, name := some command, source := some id }
  | some failure =>
    { kind := .commandFailed, name := some command, source := some id,
      reason := some failure.text }

end Registry

end Sequencer
