import Sequencer.Number.Word
import Sequencer.Text.Quoted

/-!
# Executions — the lifecycle of one run of a handler

An execution begins with attempt one, goes on to the next attempt after each retry, and ends in a
success or a failure that keeps the number of attempts. Attempts are counted in 32 bits, and the
count stays at the greatest number once it is there.
-/

namespace Sequencer

/-- Where an execution stands. -/
inductive ExecutionState where
  /-- Nothing has run yet. -/
  | idle
  /-- An attempt is in flight, counted from one. -/
  | running (attempt : Nat)
  /-- An attempt gave a value. -/
  | success (attempts : Nat)
  /-- No attempt is left. -/
  | failed (attempts : Nat)
  deriving DecidableEq, Repr, Inhabited

namespace ExecutionState

/-- The greatest count of attempts. -/
def maxAttempts : Nat := maxWord 32

/-- The current or final number of attempts. -/
def attempts : ExecutionState → Nat
  | idle => 0
  | running attempt => attempt
  | success attempts => attempts
  | failed attempts => attempts

/-- Whether the execution is over. -/
def isTerminal : ExecutionState → Bool
  | success _ => true
  | failed _ => true
  | _ => false

/-- The first attempt. -/
def begun : ExecutionState := running 1

/-- The next attempt of a running execution. -/
def retry : ExecutionState → ExecutionState
  | running attempt => running (Nat.min (attempt + 1) maxAttempts)
  | other => other

/-- The attempt gave a value. -/
def succeed (state : ExecutionState) : ExecutionState := success state.attempts

/-- The attempt was the last one and failed. -/
def giveUp (state : ExecutionState) : ExecutionState := failed state.attempts

/-- The constructor and its count. -/
def shown : ExecutionState → String
  | idle => Text.record "Idle" []
  | running attempt => Text.record "Running" [("attempt", toString attempt)]
  | success attempts => Text.record "Success" [("attempts", toString attempts)]
  | failed attempts => Text.record "Failed" [("attempts", toString attempts)]

end ExecutionState

end Sequencer
