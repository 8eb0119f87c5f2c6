import Sequencer.Backoff
import Sequencer.Event
import Sequencer.Handler.Execution

/-!
# Handlers — one operation with a bounded number of retries

A handler runs its operation again and again until it gives a value, fails for good, or has no
retry left. Every failed attempt is shown to the observer before it is decided what comes next.
Retries, backoff and observer are settings of the handler; they are fixed once its first execution
has started.

The operation and the observer run outside: an execution is a sequence of turns, each of which
tells its events and what is to be done next.
-/

namespace Sequencer

/-- A handler. The type `η` is that of its observers. -/
structure Handler (η : Type) where
  name : String
  /-- How many attempts may follow the first one. -/
  retries : Nat := 0
  backoff : Backoff := .immediate
  observer : Option η := none
  /-- Whether an execution has started. -/
  started : Bool := false
  /-- Where the execution that moved last stands. -/
  last : ExecutionState := .idle

/-- A setting of a handler. -/
inductive Setting (η : Type) where
  | retry (count : Nat)
  | retryInterval (count : Nat) (interval : Duration)
  | retryBackoff (count : Nat) (backoff : Backoff)
  | onError (observer : η)

namespace Handler

variable {η : Type}

/-! ## 1. Settings -/

/-- The handler with the parts that a setting names replaced. -/
def apply (handler : Handler η) : Setting η → Handler η
  | .retry count => { handler with retries := count }
  | .retryInterval count interval =>
    { handler with retries := count, backoff := .constant interval }
  | .retryBackoff count backoff => { handler with retries := count, backoff }
  | .onError observer => { handler with observer := some observer }

/-- The handler after a setting, which a handler that has started refuses. -/
def configure (handler : Handler η) (setting : Setting η) : Except Refusal (Handler η) :=
  if handler.started then .error (.handlerStarted handler.name) else .ok (handler.apply setting)

/-- The handler after settings in order, up to the first refusal. -/
def configureAll (handler : Handler η) : List (Setting η) → Handler η × Except Refusal Unit
  | [] => (handler, .ok ())
  | setting :: settings =>
    match handler.configure setting with
    | .ok handler => handler.configureAll settings
    | .error refusal => (handler, .error refusal)

/-! ## 2. Executions -/

/-- What an execution does next. -/
inductive Move where
  /-- The operation runs. -/
  | attempt
  /-- The observer, if there is one, sees a failure. -/
  | observe (failure : Failure)
  /-- Time passes before the next attempt. -/
  | pause (delay : Duration)
  /-- The execution ends with the value of its operation. -/
  | succeed
  /-- The execution ends with its last failure. -/
  | giveUp (failure : Failure)
  /-- The delay cannot be told. -/
  | broken (fault : SecondsOutOfRange)

/-- A step of an execution: where it stands, what it tells and what it does next. -/
structure Turn (η : Type) where
  handler : Handler η
  state : ExecutionState
  events : List Event
  move : Move

/-- An event of the attempt in `state`. -/
def event (handler : Handler η) (state : ExecutionState) (kind : EventKind) : Event :=
  { kind, name := some handler.name, attempt := some state.attempts }

/-- The handler remembers where the execution stands. -/
def record (handler : Handler η) (state : ExecutionState) : Handler η :=
  { handler with last := state }

/-- The attempt of `state` starts. -/
def attempt (handler : Handler η) (state : ExecutionState) : Turn η :=
  { handler := handler.record state, state, events := [handler.event state .handlerStarting],
    move := .attempt }

/-- An execution begins. -/
def begin (handler : Handler η) : Turn η := attempt { handler with started := true } .begun

/-- The operation came back, with a failure or without. -/
def attempted (handler : Handler η) (state : ExecutionState) : Option Failure → Turn η
  | none =>
    { handler := handler.record state.succeed, state := state.succeed,
      events := [handler.event state .handlerSucceeded], move := .succeed }
  | some failure =>
    { handler, state,
      events := [{ handler.event state .handlerFailed with reason := some failure.text }],
      move := .observe failure }

/-- Whether no attempt may follow the one in `state` that ended with `failure`. -/
def isLast (handler : Handler η) (state : ExecutionState) (failure : Failure) : Bool :=
  !failure.isRetryable || decide (handler.retries ≤ state.attempts - 1)

/-- The observer has seen the failure of the attempt. -/
def observed (handler : Handler η) (state : ExecutionState) (failure : Failure) (draw : Nat) :
    Turn η :=
  if handler.isLast state failure then
    { handler := handler.record state.giveUp, state := state.giveUp,
      events := [{ handler.event state .handlerExhausted with reason := some failure.text }],
      move := .giveUp failure }
  else match handler.backoff.next (state.attempts - 1) with
    | .error fault => { handler, state, events := [], move := .broken fault }
    | .ok spread =>
      let delay := spread.pick draw
      { handler, state,
        events := [{ handler.event state .retryScheduled with
                     delayMs := some (Event.delayField delay) }],
        move := .pause delay }

/-- The delay is over. -/
def resumed (handler : Handler η) (state : ExecutionState) : Turn η :=
  handler.attempt state.retry

end Handler

end Sequencer
