import Sequencer.Event
import Sequencer.Roster

/-!
# Shutdown — what a host tells when it stops

A shutdown is told before anything is cancelled. Then the host waits until nobody holds a token of
its background work, and tells that all of it has stopped. If the grace period is over before, it
looks up which work is stuck, and tells that.
-/

namespace Sequencer

namespace Shutdown

/-- The shutdown begins. -/
def requestedEvent : Event := { kind := .shutdownRequested }

/-- How the wait for the background work ended. -/
structure Verdict where
  event : Event
  result : Except Refusal Unit

/-- The verdict when all tokens were dropped in time. -/
def inTime : Verdict := ⟨{ kind := .allStoppedWithin }, .ok ()⟩

/-- The verdict when the grace period ran out before. -/
def exceeded (grace : Duration) (roster : Roster) : Verdict :=
  ⟨{ kind := .graceExceeded, reason := some (Text.separated "," roster.names) },
    .error (.graceExceeded grace roster.names)⟩

/-- How the wait for the tokens ends. -/
inductive Wait where
  | settled
  /-- The grace period is over. -/
  | overdue

/-- How the wait ends of a host that looks at its tokens, once it does. Tokens that were dropped
count even if the grace period is over by then. -/
def look (tracker : Tracker) (elapsed : Bool) : Option Wait :=
  if tracker.settled then some .settled
  else if elapsed then some .overdue
  else none

/-- The verdict of a host whose wait has ended. -/
def verdict (grace : Duration) (roster : Roster) : Wait → Verdict
  | .settled => inTime
  | .overdue => exceeded grace roster

/-- The verdict of a host that looks at its tokens and at its registrations in one go, once there is
one. -/
def verdict? (grace : Duration) (roster : Roster) (elapsed : Bool) : Option Verdict :=
  (look roster.tracker elapsed).map (verdict grace roster)

end Shutdown

end Sequencer
