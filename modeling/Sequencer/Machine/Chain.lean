import Sequencer.Machine.Core

/-!
# Chains — one refresh of a machine, dispatch by dispatch

A refresh dispatches the current state and then every state that was queued meanwhile, depth first:
the states queued by a dispatch come before those that its callers queued earlier. The states that
are still to come lie on a work stack, so that a chain of any length runs in constant depth. A
cancelled machine starts no dispatch; a failure or a completion ends the chain.
-/

namespace Sequencer

/-- The source of the dispatches that follow a transition. -/
def chainedSource : String := "when"

/-- A refresh in progress. -/
structure Chain where
  /-- The source of the next dispatch. -/
  source : String
  /-- The states that follow it, the next one first. -/
  work : List String := []
  deriving DecidableEq, Repr

namespace Chain

/-- What comes next in a refresh. -/
inductive Step where
  /-- The current state is dispatched, after the event. -/
  | dispatch (core : Core) (chain : Chain) (event : Event)
  /-- The refresh ends. -/
  | ended (core : Core) (result : Except Failure Unit)

/-- A dispatch starts, unless the machine was cancelled. -/
def start (core : Core) (chain : Chain) (cancelled : Bool) : Step :=
  if cancelled then .ended core (.error core.stopped)
  else
    let core := core.beginTick
    .dispatch core chain (core.tickEvent chain.source)

/-- A refresh for `source` begins. -/
def begin (core : Core) (source : String) : Core × Chain := (core.beginRefresh, { source })

/-- What a dispatch leads to: its event, whether it ends the machine, and how the refresh ends or
with what it goes on. -/
structure Aftermath where
  core : Core
  event : Option Event := none
  cancels : Bool := false
  next : Except (Except Failure Unit) Chain

/-- The dispatch of `state` came back with `result`. -/
def settle (core : Core) (chain : Chain) (state : String) (result : Except Failure Unit) :
    Aftermath :=
  match result with
  | .error failure =>
    { core, event := some (core.failedEvent state failure), cancels := core.completed,
      next := .error (.error failure) }
  | .ok () =>
    if core.completed then
      { core, event := some core.completedEvent, cancels := true, next := .error (.ok ()) }
    else
      match core.pending ++ chain.work with
      | [] => { core := { core with pending := [] }, next := .error (.ok ()) }
      | state :: work =>
        { core := { core with pending := [], current := state },
          next := .ok { source := chainedSource, work } }

end Chain

end Sequencer
