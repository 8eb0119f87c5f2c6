import Sequencer.Duration
import Sequencer.Text.Quoted

/-!
# Failures — why an operation or the host gave up

`Failure` is what an operation ends with: a handler attempt, a parallel task, a loop, a machine
refresh. `Refusal` is what the host answers when it is misused or cannot stop in time. Each has a
stable label, a short message, a full sentence and its fields as text.
-/

namespace Sequencer

/-! ## 1. Operations -/

/-- Why an operation ended without a value. -/
inductive Failure where
  /-- It failed and may succeed if it is tried again. -/
  | failed (error : String)
  /-- It failed for good. -/
  | fatal (error : String)
  /-- A bounded wait ran out. -/
  | timedOut (timeout : Duration)
  /-- A task that ran beside it panicked. -/
  | panicked (task reason : String)
  /-- The subscription to a key ended before it gave a value. -/
  | channelClosed (key : String)
  /-- A value could not be written as a document or read from one. -/
  | codec (key error : String)
  /-- The machine takes no more refreshes. -/
  | machineStopped (machine : String)
  /-- The enclosing work was cancelled. -/
  | cancelled
  deriving DecidableEq, Repr, Inhabited

namespace Failure

/-- The stable name of the kind of failure. -/
def label : Failure → String
  | failed _ => "script_failed"
  | fatal _ => "script_fatal"
  | timedOut _ => "script_timeout"
  | panicked .. => "script_panicked"
  | channelClosed _ => "channel_closed"
  | codec .. => "codec_error"
  | machineStopped _ => "machine_stopped"
  | cancelled => "script_canceled"

/-- A short message with the details. -/
def message : Failure → String
  | failed error => "error: " ++ error
  | fatal error => "fatal: " ++ error
  | timedOut timeout => "timeout: " ++ timeout.text
  | panicked task reason => "panic in " ++ task ++ ": " ++ reason
  | channelClosed key => "channel closed: " ++ key
  | codec key error => "codec: " ++ key ++ ": " ++ error
  | machineStopped machine => "machine stopped: " ++ machine
  | cancelled => "context cancelled"

/-- The full sentence, as events and callers see it. -/
def text : Failure → String
  | failed error => "execution failed: " ++ error
  | fatal error => "fatal error (no retry): " ++ error
  | timedOut timeout => "timed out after " ++ timeout.text
  | panicked task reason => "task " ++ task ++ " panicked: " ++ reason
  | channelClosed key => "channel closed for key " ++ key
  | codec key error => "codec error for key " ++ key ++ ": " ++ error
  | machineStopped machine => "machine " ++ machine ++ " is stopped"
  | cancelled => "context cancelled"

/-- The constructor and its fields. -/
def shown : Failure → String
  | failed error => Text.record "Fail" [("error", Text.quote error)]
  | fatal error => Text.record "Fatal" [("error", Text.quote error)]
  | timedOut timeout => Text.record "Timeout" [("timeout", timeout.text)]
  | panicked task reason =>
    Text.record "Panicked" [("task", Text.quote task), ("reason", Text.quote reason)]
  | channelClosed key => Text.record "ChannelClosed" [("key", Text.quote key)]
  | codec key error => Text.record "Codec" [("key", Text.quote key), ("error", Text.quote error)]
  | machineStopped machine => Text.record "MachineStopped" [("machine", Text.quote machine)]
  | cancelled => Text.record "Canceled" []

/-- Whether another attempt may be spent on it. -/
def isRetryable : Failure → Bool
  | fatal _ => false
  | cancelled => false
  | panicked .. => false
  | _ => true

end Failure

/-! ## 2. The end of a loop body -/

/-- Why a loop body ended early: the stop signal, which is no failure, or a failure. -/
inductive LoopExit where
  | stop
  | failed (failure : Failure)
  deriving DecidableEq, Repr

/-- The constructor and its fields. -/
def LoopExit.shown : LoopExit → String
  | stop => "Stop"
  | failed failure => Text.wrapped "Failed" failure.shown

/-! ## 3. The host -/

/-- Why the host refused a request. -/
inductive Refusal where
  /-- A handler is configured after its first execution started. -/
  | handlerStarted (handler : String)
  /-- A command name is registered twice. -/
  | duplicateHandler (command : String)
  /-- No handler is registered under the name of a dispatched command. -/
  | unknownCommand (command : String)
  /-- Background work was still running when the grace period of a shutdown ran out. -/
  | graceExceeded (grace : Duration) (stuck : List String)
  deriving DecidableEq, Repr

namespace Refusal

/-- Names between brackets, each one quoted. -/
def names (stuck : List String) : String :=
  Text.bracketed (stuck.map Text.quote)

/-- The stable name of the kind of refusal. -/
def label : Refusal → String
  | handlerStarted _ => "runtime_handler_started"
  | duplicateHandler _ => "runtime_duplicate_handler"
  | unknownCommand _ => "runtime_unknown_command"
  | graceExceeded .. => "runtime_grace_exceeded"

/-- A short message with the details. -/
def message : Refusal → String
  | handlerStarted handler => "handler " ++ handler ++ " reconfigured after start"
  | duplicateHandler command => "duplicate command: " ++ command
  | unknownCommand command => "unknown command: " ++ command
  | graceExceeded grace stuck =>
    "grace exceeded after " ++ grace.text ++ "; stuck=" ++ names stuck

/-- The full sentence. -/
def text : Refusal → String
  | handlerStarted handler =>
    "handler " ++ handler ++ " already started; retry/on_error must be set before execute"
  | duplicateHandler command => "handler for command " ++ command ++ " is already registered"
  | unknownCommand command => "no handler registered for command " ++ command
  | graceExceeded grace stuck =>
    "shutdown timeout " ++ grace.text ++ " exceeded; stuck: " ++ names stuck

/-- The constructor and its fields. -/
def shown : Refusal → String
  | handlerStarted handler => Text.record "HandlerStarted" [("handler", Text.quote handler)]
  | duplicateHandler command => Text.record "DuplicateHandler" [("command", Text.quote command)]
  | unknownCommand command => Text.record "UnknownCommand" [("command", Text.quote command)]
  | graceExceeded grace stuck =>
    Text.record "GraceExceeded" [("grace", grace.text), ("stuck", names stuck)]

end Refusal

/-! ## 4. Panics -/

/-- What a panic carries: a text, or something that is no text. -/
inductive Payload where
  | text (message : String)
  | other
  deriving DecidableEq, Repr

/-- The reason that is reported for a caught panic. -/
def Payload.reason : Payload → String
  | text message => message
  | other => "unknown panic"

end Sequencer
