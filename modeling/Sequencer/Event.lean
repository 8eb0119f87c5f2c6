import Sequencer.Failure

/-!
# Events — what handlers, loops, machines and the host report

An event is a kind and the fields that the kind sets. Events are never acted upon; they only tell
observers what happened, in the order in which they were published.
-/

namespace Sequencer

/-- What an event tells. -/
inductive EventKind where
  /-- An attempt of a handler starts. -/
  | handlerStarting
  /-- It failed. -/
  | handlerFailed
  /-- Another attempt follows after a delay. -/
  | retryScheduled
  /-- The handler has a value. -/
  | handlerSucceeded
  /-- The handler gave up with its last failure. -/
  | handlerExhausted
  /-- A dispatched command completed. -/
  | commandCompleted
  /-- A dispatched command failed. -/
  | commandFailed
  /-- One of several parallel tasks failed and the others were cancelled. -/
  | parFailed
  /-- The body of a loop raised the stop signal. -/
  | loopStopped
  /-- The body of a loop failed. -/
  | loopFailed
  /-- A loop was cancelled between iterations. -/
  | loopCancelled
  /-- One dispatch of the logic of a machine starts. -/
  | machineTick
  /-- The logic failed. -/
  | machineFailed
  /-- The logic completed the machine. -/
  | machineCompleted
  /-- The machine ended. -/
  | machineStopped
  /-- A refresh was dropped because the mailbox was full. -/
  | mailboxOverflow
  /-- A variable took a value from the channel. -/
  | varUpdated
  /-- A monitored value does not have the type of the variable. -/
  | varRejected
  /-- A shutdown of the host began. -/
  | shutdownRequested
  /-- All background work stopped in time. -/
  | allStoppedWithin
  /-- Background work was still running when the grace period ran out. -/
  | graceExceeded
  /-- An observer lost an event. -/
  | subscriberOverflow
  /-- An observer panicked on an event. -/
  | subscriberPanicked
  deriving DecidableEq, Repr

namespace EventKind

/-- Every kind, in the order of the lifecycle it belongs to. -/
def all : List EventKind :=
  [handlerStarting, handlerFailed, retryScheduled, handlerSucceeded, handlerExhausted,
   commandCompleted, commandFailed, parFailed, loopStopped, loopFailed, loopCancelled,
   machineTick, machineFailed, machineCompleted, machineStopped, mailboxOverflow,
   varUpdated, varRejected, shutdownRequested, allStoppedWithin, graceExceeded,
   subscriberOverflow, subscriberPanicked]

/-- The name of a kind. -/
def name : EventKind → String
  | handlerStarting => "HandlerStarting"
  | handlerFailed => "HandlerFailed"
  | retryScheduled => "RetryScheduled"
  | handlerSucceeded => "HandlerSucceeded"
  | handlerExhausted => "HandlerExhausted"
  | commandCompleted => "CommandCompleted"
  | commandFailed => "CommandFailed"
  | parFailed => "ParFailed"
  | loopStopped => "LoopStopped"
  | loopFailed => "LoopFailed"
  | loopCancelled => "LoopCanceled"
  | machineTick => "MachineTick"
  | machineFailed => "MachineFailed"
  | machineCompleted => "MachineCompleted"
  | machineStopped => "MachineStopped"
  | mailboxOverflow => "MailboxOverflow"
  | varUpdated => "VarUpdated"
  | varRejected => "VarRejected"
  | shutdownRequested => "ShutdownRequested"
  | allStoppedWithin => "AllStoppedWithin"
  | graceExceeded => "GraceExceeded"
  | subscriberOverflow => "SubscriberOverflow"
  | subscriberPanicked => "SubscriberPanicked"

/-- The kind of that name. -/
def ofName? (name : String) : Option EventKind :=
  all.find? fun kind => kind.name = name

end EventKind

/-- An event. A field is set only if the kind has a use for it. -/
structure Event where
  kind : EventKind
  /-- The handler, loop, machine, command or observer. -/
  name : Option String := none
  /-- The attempt or iteration, counted from one. -/
  attempt : Option Nat := none
  /-- The delay before the next attempt, in milliseconds. -/
  delayMs : Option Nat := none
  /-- The state of the machine. -/
  state : Option String := none
  /-- The state of the machine when its refresh was requested. -/
  previous : Option String := none
  /-- What caused it: a channel key, a label of the caller, a command id. -/
  source : Option String := none
  /-- The reason, for a reader. -/
  reason : Option String := none
  deriving DecidableEq, Repr

namespace Event

/-- A delay in milliseconds as events carry it, at most `2 ^ 32 - 1`. -/
def delayField (delay : Duration) : Nat := Nat.min delay.millis (maxWord 32)

/-- An observer lost an event. -/
def overflowOf (observer reason : String) : Event :=
  { kind := .subscriberOverflow, name := some observer, reason := some reason }

/-- An observer panicked on an event. -/
def panicOf (observer info : String) : Event :=
  { kind := .subscriberPanicked, name := some observer, reason := some info }

/-- Whether it tells of an event that an observer lost. -/
def isOverflow (event : Event) : Bool := event.kind = .subscriberOverflow

/-- Whether it is about an observer itself. -/
def isReport (event : Event) : Bool :=
  event.kind = .subscriberOverflow || event.kind = .subscriberPanicked

/-- The observer that a report is about. -/
def about? (event : Event) : Option String :=
  if event.isReport then event.name else none

end Event

end Sequencer
