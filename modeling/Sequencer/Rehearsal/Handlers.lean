import Sequencer.Rehearsal.Acts

/-!
# Handling — executions of handlers, turn by turn
-/

namespace Sequencer.Stage

/-- The body of the next call of a handler. -/
def callBody (cell : HandlerCell) : List Act :=
  match cell.calls[cell.made]? with
  | some body => body
  | none => cell.calls.getLast?.getD []

/-- A handler is changed. -/
def setHandler (stage : Stage) (h : Nat) (handler : Handler (List Act)) : Stage :=
  { stage with handlers := stage.handlers.modify h fun cell => { cell with handler } }

/-- What a turn of an execution leads to. The value is that of the execution, if it ends with
one. -/
def follow (stage : Stage) (h : Nat) (turn : Handler.Turn (List Act)) (input value : Json)
    (below : List Frame) : Stage × Flow :=
  let stage := (stage.setHandler h turn.handler).emitAll turn.events
  match turn.move with
  | .attempt =>
    let body := (stage.handlers[h]?.map callBody).getD []
    let stage := { stage.note (.call input) with
      handlers := stage.handlers.modify h fun cell => { cell with made := cell.made + 1 } }
    (stage, .run (.acts body .plain :: .attempting h turn.state input :: below))
  | .observe failure =>
    let observing := Frame.observing h turn.state input failure :: below
    match turn.handler.observer with
    | some acts => (stage.note (.failure failure.text), .run (.acts acts .plain :: observing))
    | none => (stage, .give .finished observing)
  | .pause delay =>
    let pausing := Frame.pausing h turn.state input :: below
    if delay.isZero then (stage, .give .finished pausing)
    else
      let (stage, timer, deadline) := stage.timer delay.ceilMillis
      (stage, .run (.asleep timer deadline :: pausing))
  | .succeed => (stage, .give (.returned value) below)
  | .giveUp failure => (stage, .give (.failed failure) below)
  | .broken fault => (stage, .unwind (.text fault.text) below)

/-- A handler executes its operation for an input. -/
def execute (stage : Stage) (h : Nat) (input : Json) (below : List Frame) : Stage × Flow :=
  match stage.handlers[h]? with
  | none => (stage, .give .finished below)
  | some cell => stage.follow h cell.handler.begin input .null below

/-- The operation of an execution came back. -/
def attempted (stage : Stage) (h : Nat) (state : ExecutionState) (input : Json) (value : Return)
    (below : List Frame) : Stage × Flow :=
  match stage.handlers[h]? with
  | none => (stage, .give .finished below)
  | some cell =>
    match value with
    | .failed failure =>
      stage.follow h (cell.handler.attempted state (some failure)) input .null below
    | .returned document =>
      stage.follow h (cell.handler.attempted state none) input document below
    | _ => stage.follow h (cell.handler.attempted state none) input input below

/-- The observer of an execution has seen a failure. -/
def observed (stage : Stage) (h : Nat) (state : ExecutionState) (input : Json) (failure : Failure)
    (below : List Frame) : Stage × Flow :=
  match stage.handlers[h]? with
  | none => (stage, .give .finished below)
  | some cell => stage.follow h (cell.handler.observed state failure 0) input .null below

/-- The delay before the next attempt of an execution is over. -/
def resumed (stage : Stage) (h : Nat) (state : ExecutionState) (input : Json)
    (below : List Frame) : Stage × Flow :=
  match stage.handlers[h]? with
  | none => (stage, .give .finished below)
  | some cell => stage.follow h (cell.handler.resumed state) input .null below

/-- A dispatched command came back, and its outcome is reported. -/
def report (stage : Stage) (id command : String) (value : Return) (below : List Frame) :
    Stage × Flow :=
  let failure : Option Failure :=
    match value with
    | .failed failure => some failure
    | _ => none
  ((stage.emit (Registry.outcomeEvent id command failure)).note (.outcome id failure),
    .give .finished below)

end Sequencer.Stage
