import Sequencer.Rehearsal.Acts

/-!
# Ticking — machines, their callers and their variables
-/

namespace Sequencer.Stage

/-- A rehearsal sees a cancellation after whatever comes together with it. -/
def cancelFirst : Bool := false

/-! ## 1. Actors -/

/-- A dispatch of a machine starts. -/
def startLogic (stage : Stage) (m : Nat) (below : List Frame) : Stage × Flow :=
  match stage.machines[m]? with
  | none => (stage, .give .finished below)
  | some cell =>
    let core := cell.actor.core
    let stage := if cell.quiet then stage
      else stage.note (.dispatch core.name core.current core.previous core.entered)
    (stage, .run (.acts (logicOf cell) (.logic m) :: .dispatching m :: below))

/-- An actor looks at its token and its mailbox. -/
def actorTurn (stage : Stage) (m : Nat) (below : List Frame) : Stage × Flow :=
  match stage.machines[m]? with
  | none => (stage, .give .finished below)
  | some cell =>
    let (actor, effects, doing) :=
      cell.actor.turn (stage.isCancelled (some cell.token)) (isOrphan cell)
    let stage := stage.updateMachine m actor effects
    match doing with
    | .dispatch => stage.startLogic m (.actor m :: below)
    | .served => (stage, .run (.actor m :: below))
    | .waiting => (stage, .wait [.token cell.token, .mail m] (.actor m :: below))
    | .left => (stage.release cell.token, .give .finished below)

/-- The logic of a machine came back. -/
def settleLogic (stage : Stage) (m : Nat) (value : Return) (below : List Frame) : Stage × Flow :=
  match stage.machines[m]? with
  | none => (stage, .give .finished below)
  | some cell =>
    let result : Except Failure Unit :=
      match value with
      | .failed failure => .error failure
      | _ => .ok ()
    let (actor, effects, doing) :=
      cell.actor.settle result (stage.isCancelled (some cell.token))
    let stage := stage.updateMachine m actor effects
    match doing with
    | .dispatch => stage.startLogic m below
    | _ => (stage, .run below)

/-- The logic of a machine panicked. -/
def collapseActor (stage : Stage) (m : Nat) : Stage :=
  match stage.machines[m]? with
  | none => stage
  | some cell =>
    let (actor, effects) := cell.actor.collapse
    (stage.updateMachine m actor effects).release cell.token

/-- A delay of a machine is looked at. -/
def delayedTransition (stage : Stage) (m timer deadline : Nat) (acts : List Act)
    (below : List Frame) : Stage × Flow :=
  let token := stage.machines[m]?.map (·.token)
  match Core.delayed (stage.isCancelled token) (deadline ≤ stage.clock) cancelFirst with
  | .interrupted => (stage.note .interrupted, .give .finished below)
  | .opened => (stage, .run (.acts acts (.logic m) :: .transition m :: below))
  | .waiting =>
    (stage, .wait ((token.map Signal.token).toList ++ [.time timer deadline])
      (.delayed m timer deadline acts :: below))

/-! ## 2. Callers -/

/-- A refresh asks for a place in the mailbox. -/
def request (stage : Stage) (m sender : Nat) (request : Request) (below : List Frame) :
    Stage × Flow :=
  match stage.machines[m]? with
  | none => (stage, .give .finished below)
  | some cell =>
    let (actor, effects, posting) := cell.actor.request sender request
    (stage.updateMachine m actor effects,
      match posting, request.reply with
      | .entered, some reply => .run (.expecting m reply :: below)
      | .entered, none => .give .finished below
      | .full, _ => .wait [.room m sender] (.requesting m sender request :: below)
      | .closed, _ => .give (.failed cell.actor.core.stopped) below)

/-- A refresh looks for its answer. -/
def expect (stage : Stage) (m reply : Nat) (below : List Frame) : Stage × Flow :=
  match stage.machines[m]?, stage.replies[reply]? with
  | _, some (.answered (.ok ())) => (stage, .give .finished below)
  | _, some (.answered (.error failure)) => (stage, .give (.failed failure) below)
  | _, some .awaited => (stage, .wait [.reply reply] (.expecting m reply :: below))
  | some cell, _ => (stage, .give (.failed cell.actor.core.stopped) below)
  | none, _ => (stage, .give .finished below)

/-- A refresh is given up before it had a place in the mailbox. -/
def abandon (stage : Stage) (m sender : Nat) : Stage :=
  match stage.machines[m]? with
  | none => stage
  | some cell =>
    let (actor, effects) := cell.actor.abandon sender
    stage.updateMachine m actor effects

/-! ## 3. Variables -/

/-- The name of the machine of a variable. -/
def ownerName (stage : Stage) (cell : VariableCell) : String :=
  (stage.machines[cell.machine]?.map (·.actor.core.name)).getD ""

/-- A variable took a value. It is told, and the machine is refreshed. -/
def take (stage : Stage) (v : Nat) (cell : VariableCell) (content : Variable) (event : Event) :
    Stage × Except Failure Unit :=
  let stage :=
    { stage with
      variableCells := stage.variableCells.modify v fun cell => { cell with content } }
  (stage.emit event).notify cell.machine content.key

/-- A variable looks for its sample. -/
def awaitSample (stage : Stage) (v : Nat) (stream : Stream) (bound : Option (Nat × Nat))
    (below : List Frame) : Stage × Flow :=
  match stage.variableCells[v]? with
  | none => (stage, .give .finished below)
  | some cell =>
    let expired : Option Duration :=
      if bound.any fun timer => decide (timer.2 ≤ stage.clock) then some stage.config.getTimeout
      else none
    match cell.content.fetch (stage.ownerName cell) (stage.medium.poll stream) expired with
    | .stored value content event =>
      match stage.take v cell content event with
      | (stage, .ok ()) => (stage, .give (.returned value.display) below)
      | (stage, .error failure) => (stage, .give (.failed failure) below)
    | .failed failure => (stage, .give (.failed failure) below)
    | .panicked payload => (stage, .unwind payload below)
    | .waiting =>
      let timer := (bound.map fun timer => Signal.time timer.1 timer.2).toList
      (stage, .wait (.topic cell.content.key :: timer) (.fetching v stream bound :: below))

/-- A standing subscription ends. -/
def endMonitor (stage : Stage) (v token : Nat) : Stage :=
  let stage := stage.release token
  match (stage.variableCells[v]?).bind fun cell => stage.machines[cell.machine]? with
  | some machine => stage.release machine.token
  | none => stage

/-- A standing subscription looks for its next sample. -/
def watchSamples (stage : Stage) (v token : Nat) (stream : Stream) (below : List Frame) :
    Stage × Flow :=
  match stage.variableCells[v]? with
  | none => (stage, .give .finished below)
  | some cell =>
    match cell.content.monitor (stage.ownerName cell) (stage.isCancelled (some token))
        cancelFirst (stage.medium.poll stream) with
    | .stored content event stream =>
      match stage.take v cell content event with
      | (stage, .ok ()) => (stage, .run (.monitoring v token stream :: below))
      | (stage, .error _) => (stage.endMonitor v token, .give .finished below)
    | .rejected event stream => (stage.emit event, .run (.monitoring v token stream :: below))
    | .over => (stage.endMonitor v token, .give .finished below)
    | .panicked payload => (stage.endMonitor v token, .unwind payload below)
    | .waiting =>
      (stage, .wait [.token token, .topic cell.content.key]
        (.monitoring v token stream :: below))

end Sequencer.Stage
