import Sequencer.Event

/-!
# Fan-out — independent tasks side by side

The tasks of a fan-out run beside each other and are collected as they end. Their values come back
in the order of the tasks. The first task that ends without a value decides the failure of all, and
the tasks that still run are cancelled.
-/

namespace Sequencer

/-- How a task ended. -/
inductive TaskEnd (α : Type) where
  | value (value : α)
  | failed (failure : Failure)
  | panicked (payload : Payload)
  | aborted

/-- The result of the task at `index`: a panic is a failure that names the index. -/
def TaskEnd.result {α : Type} (index : Nat) : TaskEnd α → Except Failure α
  | value a => .ok a
  | failed failure => .error failure
  | panicked payload => .error (.panicked (toString index) payload.reason)
  | aborted => .error .cancelled

/-- A fan-out in progress. -/
structure FanOut (α : Type) where
  /-- The values collected so far, in the places of their tasks. -/
  slots : List (Option α)
  /-- The places of the tasks that are not collected yet. -/
  running : List Nat

namespace FanOut

variable {α : Type}

/-- What becomes of a fan-out. -/
inductive Step (α : Type) where
  /-- It goes on. -/
  | going (fan : FanOut α)
  /-- It fails, and the tasks in some places are cancelled. -/
  | failed (failure : Failure) (cancelled : List Nat)

/-- A fan-out of `size` tasks, all of which run. -/
def ofSize (size : Nat) : FanOut α := ⟨List.replicate size none, List.range size⟩

/-- The end of the task at `index` is taken. -/
def take (fan : FanOut α) (index : Nat) (ended : TaskEnd α) : Step α :=
  let running := fan.running.erase index
  match ended.result index with
  | .ok a => .going { slots := fan.slots.set index (some a), running }
  | .error failure => .failed failure running

/-- Whether every task is collected. -/
def isOver (fan : FanOut α) : Bool := fan.running.isEmpty

/-- The collected values, in the order of the tasks. -/
def values (fan : FanOut α) : List α := fan.slots.filterMap id

/-- What is told of a fan-out that failed. -/
def failedEvent (failure : Failure) : Event :=
  { kind := .parFailed, name := some "par", reason := some failure.text }

end FanOut

end Sequencer
