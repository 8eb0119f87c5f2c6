import Sequencer.Failure
import Sequencer.Event

/-!
# Machine cores — the state of a machine between and within dispatches

A dispatch runs the logic once, in the current state. The logic may move the machine to another
state, open transitions and complete the machine. Every transition that closes queues one more
dispatch, of the state in which its body left the machine.
-/

namespace Sequencer

/-- What others see of a machine. -/
structure Snapshot where
  name : String
  current : String
  /-- The state when the last refresh began; none before the first one. -/
  previous : Option String
  /-- How many dispatches ran so far, chained ones included. -/
  ticks : Nat
  deriving DecidableEq, Repr

/-- The state of a machine. -/
structure Core where
  name : String
  current : String
  previous : Option String := none
  /-- The state of the latest dispatch. -/
  lastDispatched : Option String := none
  /-- Whether the running dispatch is the first one since the machine came into its state. -/
  entered : Bool := false
  /-- The states queued by the transitions of the running dispatch, in order. -/
  pending : List String := []
  completed : Bool := false
  ticks : Nat := 0
  deriving DecidableEq, Repr

namespace Core

/-- A machine that was never dispatched. -/
def ofState (name initial : String) : Core := { name, current := initial }

/-- What others see of it. -/
def snapshot (core : Core) : Snapshot :=
  { name := core.name, current := core.current, previous := core.previous, ticks := core.ticks }

/-- A refresh begins: the current state becomes the previous one of the whole refresh. -/
def beginRefresh (core : Core) : Core := { core with previous := some core.current }

/-- A dispatch of the current state begins. -/
def beginTick (core : Core) : Core :=
  { core with
    entered := decide (core.lastDispatched ≠ some core.current)
    lastDispatched := some core.current
    pending := []
    ticks := core.ticks + 1 }

/-- The logic moves the machine to `state`. -/
def become (core : Core) (state : String) : Core := { core with current := state }

/-- A transition closes: the state it leaves is queued for a dispatch. -/
def closeTransition (core : Core) : Core := { core with pending := core.pending ++ [core.current] }

/-- The logic completes the machine. -/
def complete (core : Core) : Core := { core with completed := true }

/-- What a caller hears from a machine that takes no more refreshes. -/
def stopped (core : Core) : Failure := .machineStopped core.name

/-- What becomes of a delay before a transition. -/
inductive Delayed where
  /-- The machine was cancelled, and no transition opens. -/
  | interrupted
  /-- The transition opens. -/
  | opened
  | waiting
  deriving DecidableEq, Repr

/-- A delay is looked at. A machine may be cancelled just when its delay is over; `cancelFirst` says
which of the two it sees then. -/
def delayed (cancelled elapsed cancelFirst : Bool) : Delayed :=
  match cancelled, elapsed with
  | true, true => if cancelFirst then .interrupted else .opened
  | true, false => .interrupted
  | false, true => .opened
  | false, false => .waiting

/-! ## Its events -/

/-- A dispatch starts, asked for by `source`. -/
def tickEvent (core : Core) (source : String) : Event :=
  { kind := .machineTick, name := some core.name, state := some core.current,
    previous := core.previous, source := some source }

/-- A dispatch of `state` failed. -/
def failedEvent (core : Core) (state : String) (failure : Failure) : Event :=
  { kind := .machineFailed, name := some core.name, state := some state,
    reason := some failure.text }

/-- The machine completed. -/
def completedEvent (core : Core) : Event :=
  { kind := .machineCompleted, name := some core.name, state := some core.current }

/-- A refresh asked for by `source` was dropped. -/
def overflowEvent (core : Core) (source : String) : Event :=
  { kind := .mailboxOverflow, name := some core.name, source := some source }

/-- The machine ended. -/
def stoppedEvent (core : Core) : Event :=
  { kind := .machineStopped, name := some core.name, state := some core.current }

end Core

end Sequencer
