import Sequencer.Rehearsal.Handlers
import Sequencer.Rehearsal.Host
import Sequencer.Rehearsal.Loops
import Sequencer.Rehearsal.Machines

/-!
# Stepping — what one step does to the stage

A step has its answer at once, or puts frames on the stack of its task that end in its answer. A
step that names something that is not there says so.
-/

namespace Sequencer.Stage

/-- A step has its answer. -/
def reply (stage : Stage) (below : List Frame) (answer : Answer) : Stage × Flow :=
  (stage, .give (.answered answer) below)

/-- A step that needs what is found under an id. -/
def withFound {α : Type} (stage : Stage) (below : List Frame) (id : String) (found : Option α)
    (go : α → Stage × Flow) : Stage × Flow :=
  match found with
  | some a => go a
  | none => stage.reply below (.unknown id)

/-! ## 1. Handlers -/

/-- The handler under an id, and its number. -/
def handler? (stage : Stage) (id : String) : Option (Nat × HandlerCell) := do
  let h ← stage.handlerIds.get? id
  return (h, ← stage.handlers[h]?)

/-- What a handler is like. -/
def statusOf (cell : HandlerCell) : HandlerStatus :=
  { name := cell.handler.name, retries := cell.handler.retries, last := cell.handler.last }

/-- A handler with the backoff of its host. -/
def newHandler (stage : Stage) (name : String) : Handler (List Act) :=
  { name, backoff := if stage.hosted then stage.config.backoff else .immediate }

/-- A new handler with its settings. -/
def addHandler (stage : Stage) (name : String) (calls : List (List Act))
    (settings : List (Setting (List Act))) : Stage × Nat × Except Refusal Unit :=
  let (handler, result) := (stage.newHandler name).configureAll settings
  ({ stage with handlers := stage.handlers.push { handler, calls } }, stage.handlers.size, result)

/-- A step about handlers and registries. -/
def handlerStep (stage : Stage) (below : List Frame) : HandlerStep → Stage × Flow
  | .make id name calls settings =>
    let (stage, h, result) := stage.addHandler name calls settings
    { stage with handlerIds := stage.handlerIds.set id h }.reply below
      (.verdict (result.map fun _ => none))
  | .configure id settings =>
    stage.withFound below id (stage.handler? id) fun (h, cell) =>
      let (handler, result) := cell.handler.configureAll settings
      (stage.setHandler h handler).reply below (.verdict (result.map fun _ => none))
  | .execute id input =>
    stage.withFound below id (stage.handlerIds.get? id) fun h =>
      stage.execute h input (.result :: below)
  | .status id =>
    stage.withFound below id (stage.handler? id) fun (_, cell) =>
      stage.reply below (.handler (statusOf cell))
  | .registry id =>
    { stage with registries := stage.registries.set id {} }.reply below .nothing
  | .register id command calls settings =>
    stage.withFound below id (stage.registries.get? id) fun registry =>
      match registry.register command stage.handlers.size with
      | .error refusal => stage.reply below (.verdict (.error refusal))
      | .ok registry =>
        let (stage, _, result) := stage.addHandler command calls settings
        { stage with registries := stage.registries.set id registry }.reply below
          (.verdict (result.map fun _ => some command))
  | .dispatch id commandId command input =>
    stage.withFound below id (stage.registries.get? id) fun registry =>
      match registry.find command with
      | .error refusal => stage.reply below (.verdict (.error refusal))
      | .ok h => stage.execute h input (.reporting commandId command :: .result :: below)
  | .lookup id command =>
    stage.withFound below id (stage.registries.get? id) fun registry =>
      let cell := (registry.get? command).bind fun h => stage.handlers[h]?
      stage.reply below (.lookup (cell.map statusOf))

/-! ## 2. Loops -/

/-- A loop with a requested interval. -/
def newLoop (stage : Stage) (name : String) (requested : Duration) : PollLoop :=
  if stage.hosted then PollLoop.hosted stage.config name requested
  else PollLoop.ofInterval name requested

/-- The interval of a loop that does not request one. -/
def defaultInterval (stage : Stage) : Duration :=
  if stage.hosted then stage.config.loopInterval else minLoopInterval

/-- The token of a new loop: under that of the host, or on its own. -/
def loopToken (stage : Stage) : Stage × Nat :=
  if stage.hosted then stage.childToken stage.root else stage.freshToken

/-- A step about loops. -/
def loopStep (stage : Stage) (below : List Frame) : LoopStep → Stage × Flow
  | .run body interval =>
    let (stage, token) := stage.loopToken
    let loop := stage.newLoop "loop" (interval.getD stage.defaultInterval)
    (stage, .run (.looping { loop, token := some token, body } :: .result :: below))
  | .waitFor body condition =>
    let (stage, token) := stage.loopToken
    let loop := stage.newLoop (if stage.hosted then "wait_for" else "loop") stage.defaultInterval
    (stage, .run (.looping { loop, token := some token, body, condition := some condition }
      :: .result :: below))
  | .start id name interval body =>
    let name := if stage.hosted then name else "bg_loop"
    let (stage, token) := stage.loopToken
    let loop := stage.newLoop name interval
    let stage := { stage with cancellation := stage.cancellation.retain token }
    let (stage, task) :=
      stage.spawnBackground name (.looping { loop, token := some token, body })
    { stage with loops := stage.loops.set id { name, task, token := some token } }.reply below
      (.text name)
  | .cancel id =>
    stage.withFound below id (stage.loops.get? id) fun background =>
      (background.token.elim stage stage.cancel).reply below .nothing
  | .drop id =>
    stage.withFound below id (stage.loops.get? id) fun background =>
      { stage.drop (.token background.token) with loops := stage.loops.erase id }.reply below
        .nothing
  | .isFinished id =>
    stage.withFound below id (stage.loops.get? id) fun background =>
      stage.reply below (.truth (stage.agenda.hasEnded background.task))
  | .join id =>
    stage.withFound below id (stage.loops.get? id) fun background =>
      ({ stage with loops := stage.loops.erase id },
        .run (.joining background.task background.name (.token background.token)
          :: .result :: below))

/-! ## 3. Machines -/

/-- The variables of a new machine. -/
def addVariables (stage : Stage) (m : Nat) (specs : List VariableSpec) : Stage :=
  specs.foldl
    (fun stage spec =>
      let content : Variable := { key := spec.key, shape := spec.shape, value := spec.initial }
      { stage with
        variableCells := stage.variableCells.push { content, machine := m }
        variableIds := stage.variableIds.set spec.id stage.variableCells.size
        cancellation :=
          (stage.machines[m]?.map (·.token)).elim stage.cancellation stage.cancellation.retain })
    stage

/-- A new machine. -/
def addMachine (stage : Stage) (spec : MachineSpec) : Stage :=
  let m := stage.machines.size
  let (stage, token) := if stage.hosted then stage.childToken stage.root else stage.freshToken
  let cell : MachineCell :=
    { actor := Actor.ofState spec.name spec.initial stage.config.mailboxSlots
      token
      logic := spec.logic
      otherwise := spec.otherwise
      quiet := spec.quiet
      hasVariables := !spec.variableSpecs.isEmpty }
  let stage :=
    { stage with
      machines := stage.machines.push cell
      machineIds := stage.machineIds.set spec.id m }.addVariables m spec.variableSpecs
  match spec.launch with
  | .started =>
    let stage := { stage with cancellation := stage.cancellation.retain token }
    let (stage, task) := stage.spawnBackground spec.name (.actor m)
    stage.modifyMachine m fun cell => { cell with task := some task }
  | .kept => stage
  | .dropped =>
    (stage.modifyMachine m fun cell =>
      { cell with
        held := false
        actor := { cell.actor with mailbox := cell.actor.mailbox.close.1 } }).release token

/-- Whether a machine changed since it was last looked at; it is looked at now. -/
def watch (stage : Stage) (m : Nat) (cell : MachineCell) : Stage × Answer :=
  let gone := cell.task.all stage.agenda.hasEnded
  let changed := if gone then none else some (decide (cell.looked ≠ cell.actor.version))
  (stage.modifyMachine m fun cell => { cell with looked := cell.actor.version },
    .watch changed cell.actor.seen)

/-- A step about machines. -/
def machineStep (stage : Stage) (below : List Frame) : MachineStep → Stage × Flow
  | .make spec => (stage.addMachine spec).reply below (.text spec.name)
  | .refresh id source =>
    stage.withFound below id (stage.machineIds.get? id) fun m =>
      let request : Request := { source, reply := some stage.replies.size }
      ({ stage with replies := stage.replies.push .awaited, senders := stage.senders + 1 },
        .run (.requesting m stage.senders request :: .result :: below))
  | .trigger id source =>
    stage.withFound below id (stage.machineIds.get? id) fun m =>
      let (stage, result) := stage.notify m source
      stage.reply below (.result (result.map fun _ => none))
  | .snapshot id =>
    stage.withFound below id (stage.machine? id) fun (_, cell) =>
      stage.reply below (.snapshot cell.actor.core.name cell.actor.seen)
  | .watch id =>
    stage.withFound below id (stage.machine? id) fun (m, cell) =>
      let (stage, answer) := stage.watch m cell
      stage.reply below answer
  | .stop id =>
    stage.withFound below id (stage.machine? id) fun (_, cell) =>
      (stage.cancel cell.token).reply below .nothing
  | .isFinished id =>
    stage.withFound below id (stage.machine? id) fun (_, cell) =>
      stage.reply below (.truth (cell.task.all stage.agenda.hasEnded))
  | .join id =>
    stage.withFound below id (stage.machine? id) fun (m, cell) =>
      match cell.task with
      | none => stage.reply below (.unknown id)
      | some task =>
        (stage, .run (.joining task cell.actor.core.name (.machine m) :: .result :: below))

/-! ## 4. Variables -/

/-- A step about variables and the medium. -/
def variableStep (stage : Stage) (below : List Frame) : VariableStep → Stage × Flow
  | .set id document => (stage.assignDocument id document).reply below .nothing
  | .get id =>
    stage.withFound below id (stage.findVariable? id) fun (_, cell) =>
      stage.reply below (.value
        { key := cell.content.key, value := documentOf cell.content, shown := cell.content.shown })
  | .put id =>
    stage.withFound below id (stage.findVariable? id) fun (_, cell) =>
      concluded stage (.result :: below) (stage.put cell.content)
  | .fetch id =>
    stage.withFound below id (stage.findVariable? id) fun (v, cell) =>
      stage.fetch v cell.content.key (.result :: below)
  | .monitor source id =>
    stage.withFound below source (stage.findVariable? source) fun (v, cell) =>
      stage.monitor v cell id (.result :: below)
  | .cancelMonitor id =>
    stage.withFound below id (stage.monitors.get? id) fun background =>
      (background.token.elim stage stage.cancel).reply below .nothing
  | .dropMonitor id =>
    stage.withFound below id (stage.monitors.get? id) fun background =>
      { stage.drop (.token background.token) with monitors := stage.monitors.erase id }.reply below
        .nothing
  | .isMonitorFinished id =>
    stage.withFound below id (stage.monitors.get? id) fun background =>
      stage.reply below (.truth (stage.agenda.hasEnded background.task))
  | .joinMonitor id =>
    stage.withFound below id (stage.monitors.get? id) fun background =>
      ({ stage with monitors := stage.monitors.erase id },
        .run (.joining background.task background.name (.token background.token)
          :: .result :: below))
  | .publish key document =>
    concluded stage (.result :: below) (stage.publish { key, value := document })
  | .latest key => stage.reply below (.sample (stage.medium.latest key))

/-! ## 5. Every step -/

/-- The frames of a step within a bound. -/
def boundedStep (stage : Stage) (bound : Option Nat) (below : List Frame) :
    Stage × List Frame :=
  match bound with
  | none => (stage, .bounded none :: below)
  | some millis =>
    let (stage, timer) := stage.timer millis
    (stage, .bounded (some timer) :: below)

/-- A step about the host and its observers. -/
def hostStep (stage : Stage) (below : List Frame) : HostStep → Stage × Flow
  | .config =>
    stage.reply below (.host stage.config.grace stage.config.loopInterval
      (stage.isCancelled (some stage.root)))
  | .announce event => (stage.announce event).reply below .nothing
  | .cancel => (stage.cancel stage.root).reply below .nothing
  | .shutdown => stage.beginShutdown below
  | .offer events => (events.foldl offer stage).reply below .nothing
  | .census => stage.reply below (.census stage.audience.observers.length)
  | .dismiss => (stage.dismiss, .run (.dismissing stage.workers .nothing :: below))

/-- A step, above the frames that get its answer. -/
def step (stage : Stage) (below : List Frame) : Step → Stage × Flow
  | .sleep millis =>
    let (stage, timer, deadline) := stage.timer millis
    (stage, .run (.asleep timer deadline :: .silent :: below))
  | .settle => (stage, .wait [.quiet] (.settling :: below))
  | .counter id => stage.reply below (.count (stage.counter id))
  | .burst steps => (stage, .run (.burst [] steps :: below))
  | .spawn id step bound =>
    let (stage, task) := stage.spawn [.launching step bound]
    { stage with spawned := stage.spawned.set id task }.reply below .nothing
  | .await id =>
    stage.withFound below id (stage.spawned.get? id) fun task =>
      (stage, .run (.awaiting task :: below))
  | .abort id =>
    stage.withFound below id (stage.spawned.get? id) fun task =>
      { stage with agenda := stage.agenda.abort task }.reply below .nothing
  | .isDone id =>
    stage.withFound below id (stage.spawned.get? id) fun task =>
      stage.reply below (.truth (stage.agenda.hasEnded task))
  | .fanOut tasks => stage.fanOut tasks stage.hosted (.result :: below)
  | .handler step => stage.handlerStep below step
  | .loop step => stage.loopStep below step
  | .machine step => stage.machineStep below step
  | .value step => stage.variableStep below step
  | .host step => stage.hostStep below step

end Sequencer.Stage
