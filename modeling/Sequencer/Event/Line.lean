import Sequencer.Event
import Sequencer.Text.Lines

/-!
# Event lines — one printed record per event

The line of an event is its tag in brackets and the fields that its kind uses. Fields are quoted,
so that a text with newlines stays on the line, except the name of parallel work and the two fields
of a panicked observer, which are printed as they are.
-/

namespace Sequencer.Event

/-- A text field, or a dash. -/
def fieldText (field : Option String) : String := field.getD "-"

/-- A field between quotes, or a quoted dash. -/
def quoted (field : Option String) : String := Text.quote (fieldText field)

/-- A number field. -/
def counted (field : Option Nat) : String := Text.optional (field.map toString)

/-- A tag and its fields. -/
def lineOf (tag : String) (fields : List (String × String)) : String :=
  Text.separated " " (("[" ++ tag ++ "]") :: fields.map fun field => field.1 ++ "=" ++ field.2)

/-- The printed record of an event, without the newline after it. -/
def line (e : Event) : String :=
  match e.kind with
  | .handlerStarting =>
    lineOf "attempt" [("handler", quoted e.name), ("attempt", counted e.attempt)]
  | .handlerFailed =>
    lineOf "failed"
      [("handler", quoted e.name), ("attempt", counted e.attempt), ("err", quoted e.reason)]
  | .retryScheduled =>
    lineOf "retry"
      [("handler", quoted e.name), ("delay_ms", counted e.delayMs),
       ("after_attempt", counted e.attempt)]
  | .handlerSucceeded =>
    lineOf "succeeded" [("handler", quoted e.name), ("attempt", counted e.attempt)]
  | .handlerExhausted =>
    lineOf "exhausted"
      [("handler", quoted e.name), ("attempts", counted e.attempt), ("err", quoted e.reason)]
  | .commandCompleted =>
    lineOf "completed" [("command", quoted e.name), ("id", quoted e.source)]
  | .commandFailed =>
    lineOf "command-failed"
      [("command", quoted e.name), ("id", quoted e.source), ("err", quoted e.reason)]
  | .parFailed => "[par-failed] " ++ fieldText e.name ++ " err=" ++ quoted e.reason
  | .loopStopped =>
    lineOf "loop-stopped" [("loop", quoted e.name), ("iterations", counted e.attempt)]
  | .loopFailed =>
    lineOf "loop-failed"
      [("loop", quoted e.name), ("iterations", counted e.attempt), ("err", quoted e.reason)]
  | .loopCancelled =>
    lineOf "loop-canceled" [("loop", quoted e.name), ("iterations", counted e.attempt)]
  | .machineTick =>
    lineOf "tick"
      [("machine", quoted e.name), ("prev", quoted e.previous), ("state", quoted e.state),
       ("source", quoted e.source)]
  | .machineFailed =>
    lineOf "machine-failed"
      [("machine", quoted e.name), ("state", quoted e.state), ("err", quoted e.reason)]
  | .machineCompleted =>
    lineOf "machine-completed" [("machine", quoted e.name), ("state", quoted e.state)]
  | .machineStopped =>
    lineOf "machine-stopped" [("machine", quoted e.name), ("state", quoted e.state)]
  | .mailboxOverflow =>
    lineOf "mailbox-full" [("machine", quoted e.name), ("source", quoted e.source)]
  | .varUpdated => lineOf "var" [("machine", quoted e.name), ("key", quoted e.source)]
  | .varRejected =>
    lineOf "var-rejected"
      [("machine", quoted e.name), ("key", quoted e.source), ("err", quoted e.reason)]
  | .shutdownRequested => "[shutdown-requested]"
  | .allStoppedWithin => "[all-stopped-within-grace]"
  | .graceExceeded => lineOf "grace-exceeded" [("stuck", quoted e.reason)]
  | .subscriberOverflow =>
    lineOf "subscriber-overflow" [("subscriber", quoted e.name), ("reason", quoted e.reason)]
  | .subscriberPanicked =>
    lineOf "subscriber-panicked"
      [("subscriber", fieldText e.name), ("info", fieldText e.reason)]

/-- What is printed for a run of events: every record followed by a newline. -/
def printed (events : List Event) : String :=
  events.foldl (fun text event => text ++ event.line ++ "\n") ""

end Sequencer.Event
