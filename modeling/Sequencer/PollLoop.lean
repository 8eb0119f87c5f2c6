import Sequencer.Config
import Sequencer.Event

/-!
# Poll loops — a body at a least interval

An iteration runs the body and waits until the interval has passed since its start, whichever takes
longer. The body raises the stop signal or fails to end the loop; the iteration that ends it waits
out its interval too. Cancellation is looked at between iterations only.
-/

namespace Sequencer

/-- A loop between two iterations. -/
structure PollLoop where
  name : String
  interval : Duration
  /-- How many iterations have begun, counted in 32 bits up to the greatest number. -/
  iterations : Nat := 0

/-- How a loop ends: what it tells, and its result. -/
structure LoopEnd where
  event : Event
  result : Except Failure Unit

namespace PollLoop

/-- The greatest count of iterations. -/
def maxIterations : Nat := maxWord 32

/-- A loop with a requested interval, never below the least one. -/
def ofInterval (name : String) (requested : Duration) : PollLoop :=
  { name, interval := requested.max minLoopInterval }

/-- A loop of a host, under the floor of its configuration as well. -/
def hosted (config : Config) (name : String) (requested : Duration) : PollLoop :=
  ofInterval name (config.effectiveInterval requested)

/-- An event of the current iteration. -/
def event (loop : PollLoop) (kind : EventKind) : Event :=
  { kind, name := some loop.name, attempt := some loop.iterations }

/-- The next iteration begins, or the loop ends because it was cancelled. -/
def next (loop : PollLoop) (cancelled : Bool) : Except LoopEnd PollLoop :=
  if cancelled then .error ⟨loop.event .loopCancelled, .error .cancelled⟩
  else .ok { loop with iterations := Nat.min (loop.iterations + 1) maxIterations }

/-- The time at which an iteration that begins at `now` has waited out its interval. Timers go off
at whole milliseconds: it is the first one that is not before the deadline. -/
def due (loop : PollLoop) (now : Duration) : Duration := (now + loop.interval).ceiled

/-- An iteration is over: the loop ends, or it goes on. -/
def settle (loop : PollLoop) : Except LoopExit Unit → Option LoopEnd
  | .ok () => none
  | .error .stop => some ⟨loop.event .loopStopped, .ok ()⟩
  | .error (.failed failure) =>
    some ⟨{ loop.event .loopFailed with reason := some failure.text }, .error failure⟩

/-- What a loop does whose body came back. -/
inductive Pace where
  /-- It waits out the interval of the iteration. -/
  | waiting
  | ended (ended : LoopEnd)
  /-- It goes on to the next iteration. -/
  | going

/-- A loop looks at an iteration that is due at `due` and whose body came back. -/
def pace (loop : PollLoop) (now due : Duration) (exit : Except LoopExit Unit) : Pace :=
  if now < due then .waiting
  else match loop.settle exit with
    | some ended => .ended ended
    | none => .going

end PollLoop

end Sequencer
