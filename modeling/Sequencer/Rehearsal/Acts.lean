import Sequencer.Rehearsal.Stage

/-!
# Acting — what one act does to the stage

An act either is over at once, or puts frames on the stack of its task that go on with it.
-/

namespace Sequencer.Stage

/-! ## 1. Conditions -/

/-- The core of the machine in whose logic a list of acts runs. -/
def core? (stage : Stage) : Scope → Option Core
  | .logic m => stage.machines[m]?.map (·.actor.core)
  | _ => none

/-- The variable under an id, and its number. -/
def findVariable? (stage : Stage) (id : String) : Option (Nat × VariableCell) := do
  let v ← stage.variableIds.get? id
  return (v, ← stage.variableCells[v]?)

/-- The machine under an id, and its number. -/
def machine? (stage : Stage) (id : String) : Option (Nat × MachineCell) := do
  let m ← stage.machineIds.get? id
  return (m, ← stage.machines[m]?)

/-- The value of a variable as a document, if it has one. -/
def documentOf (v : Variable) : Option Json := v.value.map (·.display)

/-- Whether a condition holds. -/
def holds (stage : Stage) (scope : Scope) : Condition → Bool
  | .always holds => holds
  | .counter id comparison document => comparison.holds (.int (stage.counter id)) document
  | .value id comparison document =>
    let found := (stage.findVariable? id).bind fun entry => documentOf entry.2.content
    comparison.holds (found.getD .null) document
  | .time comparison document => comparison.holds (.int stage.clock) document
  | .negation condition => !stage.holds scope condition
  | .entry => (stage.core? scope).any (·.entered)
  | .state state => (stage.core? scope).any fun core => decide (core.current = state)
  | .previous state => (stage.core? scope).any fun core => decide (core.previous = some state)
  | .stateBelow bound =>
    (stage.core? scope).any fun core =>
      match readCount core.current with
      | .ok n => decide ((n : Int) < bound)
      | .error _ => false

/-! ## 2. Operations that acts and steps share -/

/-- An operation on the medium is over. -/
def concluded (stage : Stage) (rest : List Frame) : Except MediumFault Stage → Stage × Flow
  | .ok changed => (changed, .give .finished rest)
  | .error (.failed failure) => (stage, .give (.failed failure) rest)
  | .error (.panicked payload) => (stage, .unwind payload rest)

/-- A variable has a new value. -/
def assign (stage : Stage) (v : Nat) (value : Value) : Stage :=
  { stage with
    variableCells := stage.variableCells.modify v fun cell =>
      { cell with content := cell.content.assign value } }

/-- A variable gets a value that is written as a document. -/
def assignDocument (stage : Stage) (id : String) (document : Json) : Stage :=
  match stage.findVariable? id with
  | none => stage
  | some (v, cell) =>
    match cell.content.shape.ofHand? document with
    | some value => stage.assign v value
    | none => stage

/-- A variable is published, if it has a value. -/
def put (stage : Stage) (v : Variable) : Except MediumFault Stage :=
  match v.sample with
  | .error failure => .error (.failed failure)
  | .ok none => .ok stage
  | .ok (some sample) => stage.publish sample

/-- A variable waits for a sample. -/
def fetch (stage : Stage) (v : Nat) (key : String) (rest : List Frame) : Stage × Flow :=
  match stage.medium.subscribe key with
  | .error fault => concluded stage rest (.error fault)
  | .ok (medium, stream) =>
    let stage := { stage with medium }
    match stage.config.fetchBound with
    | none => (stage, .run (.fetching v stream none :: rest))
    | some limit =>
      let (stage, bound) := stage.timer limit.ceilMillis
      (stage, .run (.fetching v stream (some bound) :: rest))

/-- A standing subscription of a variable starts; it gives its key. -/
def monitor (stage : Stage) (v : Nat) (cell : VariableCell) (id : String) (rest : List Frame) :
    Stage × Flow :=
  match stage.machines[cell.machine]?, stage.medium.subscribe cell.content.key with
  | none, _ => (stage, .give .finished rest)
  | _, .error fault => concluded stage rest (.error fault)
  | some machine, .ok (medium, stream) =>
    let (stage, token) := { stage with medium }.childToken machine.token
    let stage := { stage with
      cancellation := (stage.cancellation.retain token).retain machine.token }
    let (stage, task) := stage.spawnBackground (cell.content.monitorName machine.actor.core.name)
      (.monitoring v token stream)
    ({ stage with
        monitors := stage.monitors.set id { name := cell.content.key, task, token := some token } },
      .give (.returned (.string cell.content.key)) rest)

/-- Tasks are spawned, one after the other, and then collected. -/
def fanOut (stage : Stage) (tasks : List (List Act)) (tells : Bool) (rest : List Frame) :
    Stage × Flow :=
  let spawned := tasks.foldl (fun stage acts => (stage.spawn [.acts acts .plain]).1) stage
  (spawned,
    .run (.gathering (FanOut.ofSize tasks.length) stage.agenda.tasks.size tells :: rest))

/-! ## 3. Acts -/

/-- What is told of the stop signal outside the body of a loop. -/
def strayStop : Failure := .failed "stop outside a loop"

/-- An act of the logic of a machine. -/
def logicAct (stage : Stage) (m : Nat) (core : Core) (rest : List Frame) : Act → Stage × Flow
  | .become state => (stage.modifyCore m (·.become state), .run rest)
  | .countUp =>
    match readCount core.current with
    | .ok n => (stage.modifyCore m (·.become (toString (n + 1))), .run rest)
    | .error fault => (stage, .give (.failed (.fatal fault.text)) rest)
  | .complete => (stage.modifyCore m (·.complete), .run rest)
  | .locate =>
    (stage.note (.place core.name core.current core.previous core.entered), .run rest)
  | .transition condition acts =>
    if stage.holds (.logic m) condition then
      (stage, .run (.acts acts (.logic m) :: .transition m :: rest))
    else (stage, .run rest)
  | .transitionAfter millis acts =>
    let (stage, timer, deadline) := stage.timer millis
    (stage, .run (.delayed m timer deadline acts :: rest))
  | _ => (stage, .run rest)

/-- An act, above the frames that go on after it. -/
def act (stage : Stage) (scope : Scope) (rest : List Frame) : Act → Stage × Flow
  | .log document => (stage.note (.document document), .run rest)
  | .sleep millis =>
    let (stage, timer, deadline) := stage.timer millis
    (stage, .run (.asleep timer deadline :: rest))
  | .yield => (stage, .run (.yielding false :: rest))
  | .add id amount => (stage.count id amount, .run rest)
  | .fail failure => (stage, .give (.failed failure) rest)
  | .panic payload => (stage, .unwind payload rest)
  | .ret document => (stage, .give (.returned document) rest)
  | .branch condition yes no =>
    (stage, .run (.acts (if stage.holds scope condition then yes else no) scope :: rest))
  | .stopWhen condition =>
    if stage.holds scope condition then
      match scope with
      | .loopBody => (stage, .give .stopped rest)
      | _ => (stage, .give (.failed strayStop) rest)
    else (stage, .run rest)
  | .publish key document => concluded stage rest (stage.publish { key, value := document })
  | .set id document => (stage.assignDocument id document, .run rest)
  | .put id =>
    match stage.findVariable? id with
    | some (_, cell) => concluded stage rest (stage.put cell.content)
    | none => (stage, .run rest)
  | .get id =>
    match stage.findVariable? id with
    | some (v, cell) => stage.fetch v cell.content.key (.valueless :: rest)
    | none => (stage, .run rest)
  | .reveal id =>
    match stage.findVariable? id with
    | some (_, cell) => (stage.note (.document (.string cell.content.shown)), .run rest)
    | none => (stage, .run rest)
  | .monitor source id =>
    match stage.findVariable? source with
    | some (v, cell) => stage.monitor v cell id (.valueless :: rest)
    | none => (stage, .run rest)
  | .fanOut tasks => stage.fanOut tasks false (.noteValues :: rest)
  | .trigger id source =>
    match stage.machine? id with
    | none => (stage, .run rest)
    | some (m, _) =>
      match stage.notify m source with
      | (stage, .ok ()) => (stage, .run rest)
      | (stage, .error failure) => (stage, .give (.failed failure) rest)
  | .stopMachine id =>
    match stage.machine? id with
    | some (_, cell) => (stage.cancel cell.token, .run rest)
    | none => (stage, .run rest)
  | .cancelLoop id =>
    match (stage.loops.get? id).bind (·.token) with
    | some token => (stage.cancel token, .run rest)
    | none => (stage, .run rest)
  | other =>
    match scope, stage.core? scope with
    | .logic m, some core => stage.logicAct m core rest other
    | _, _ => (stage, .run rest)

end Sequencer.Stage
