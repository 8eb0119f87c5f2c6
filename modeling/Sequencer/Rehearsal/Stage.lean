import Sequencer.Audience
import Sequencer.Cancellation
import Sequencer.Handler.Registry
import Sequencer.Rehearsal.Frame
import Sequencer.Variable

/-!
# Stages — everything that a rehearsal keeps

A stage holds the tasks of a rehearsal and what they share: the audience, the medium, the tokens,
the machines and their variables, the handlers, and the notes taken so far. Every change that
somebody may wait for wakes those who do.
-/

namespace Sequencer

/-- The answer to a refresh. -/
inductive Reply where
  | awaited
  | answered (result : Except Failure Unit)
  /-- There will be none. -/
  | forgotten

/-- A machine of a scenario. -/
structure MachineCell where
  actor : Actor
  token : Nat
  logic : List (String × List Act)
  otherwise : List Act
  quiet : Bool
  /-- Its task, if it was started. -/
  task : Option Nat := none
  /-- Whether its handle is still held. -/
  held : Bool := true
  /-- Whether it has variables. -/
  hasVariables : Bool
  /-- The version at which it was last looked at. -/
  looked : Nat := 0

/-- A variable of a scenario, and its machine. -/
structure VariableCell where
  content : Variable
  machine : Nat

/-- A handler of a scenario. -/
structure HandlerCell where
  handler : Handler (List Act)
  /-- The bodies of its calls; the last one serves all later calls. -/
  calls : List (List Act)
  /-- How many calls were made. -/
  made : Nat := 0

/-- Background work under an id. -/
structure Background where
  name : String
  task : Nat
  token : Option Nat

/-- The state of a rehearsal. -/
structure Stage where
  agenda : Agenda (List Frame) Ending := {}
  hosted : Bool
  config : Config
  /-- The bus, its listener and its observers. -/
  audience : Audience
  /-- What the watcher of the bus reads next. -/
  watched : Nat := 0
  medium : Medium
  cancellation : Cancellation := {}
  /-- The token of the host. -/
  root : Nat := 0
  /-- The token that ends the listener. -/
  listenerStop : Nat := 0
  listener : Option Nat := none
  roster : Roster := {}
  /-- The number of the next timer. -/
  timers : Nat := 0
  /-- The number of the next sender that may wait. -/
  senders : Nat := 0
  replies : Array Reply := #[]
  counters : Table String Int := {}
  /-- The notes since the last report, the latest first. -/
  notes : List (Nat × Note) := []
  machines : Array MachineCell := #[]
  machineIds : Table String Nat := {}
  variableCells : Array VariableCell := #[]
  variableIds : Table String Nat := {}
  handlers : Array HandlerCell := #[]
  handlerIds : Table String Nat := {}
  registries : Table String (Registry Nat) := {}
  loops : Table String Background := {}
  monitors : Table String Background := {}
  spawned : Table String Nat := {}
  probes : Array Probe := #[]
  workers : List Nat := []
  /-- What each observer has seen, the latest first. -/
  seen : Array (List Event) := #[]
  /-- What was printed, the latest first. -/
  printed : List Event := []
  /-- The reports of the steps, once the scenario is over. -/
  reports : Option (List StepReport) := none

namespace Stage

/-! ## 1. Time, signals and tasks -/

/-- The time in milliseconds. -/
def clock (stage : Stage) : Nat := stage.agenda.clock

/-- A signal is given. -/
def wake (stage : Stage) (signal : Signal) : Stage :=
  { stage with agenda := stage.agenda.wake signal }

/-- A new timer with a deadline: its number and its deadline. -/
def timerAt (stage : Stage) (deadline : Nat) : Stage × Nat × Nat :=
  ({ stage with timers := stage.timers + 1 }, stage.timers, deadline)

/-- A new timer that runs for `millis`: its number and its deadline. -/
def timer (stage : Stage) (millis : Nat) : Stage × Nat × Nat := stage.timerAt (stage.clock + millis)

/-- A new task. -/
def spawn (stage : Stage) (stack : List Frame) : Stage × Nat :=
  let (agenda, task) := stage.agenda.spawn stack
  ({ stage with agenda }, task)

/-- A note is taken. -/
def note (stage : Stage) (entry : Note) : Stage :=
  { stage with notes := (stage.clock, entry) :: stage.notes }

/-- A counter grows. -/
def count (stage : Stage) (id : String) (amount : Int) : Stage :=
  { stage with counters := stage.counters.set id ((stage.counters.get? id).getD 0 + amount) }

/-- The value of a counter. -/
def counter (stage : Stage) (id : String) : Int := (stage.counters.get? id).getD 0

/-! ## 2. Events and samples -/

/-- An event is published on the bus. -/
def announce (stage : Stage) (event : Event) : Stage :=
  { stage with audience := stage.audience.announce event }.wake .bus

/-- What a primitive tells, if it was made through a host. -/
def emit (stage : Stage) (event : Event) : Stage :=
  if stage.hosted then stage.announce event else stage

/-- Events are told in order. -/
def emitAll (stage : Stage) (events : List Event) : Stage := events.foldl emit stage

/-- A sample is published. -/
def publish (stage : Stage) (sample : Sample) : Except MediumFault Stage :=
  match stage.medium.publish sample with
  | .ok medium => .ok ({ stage with medium }.wake (.topic sample.key))
  | .error fault => .error fault

/-! ## 3. Tokens and the roster -/

/-- Whether a token is cancelled; nothing cancels what has no token. -/
def isCancelled (stage : Stage) (token : Option Nat) : Bool :=
  token.any stage.cancellation.isCancelled

/-- A token is cancelled. -/
def cancel (stage : Stage) (token : Nat) : Stage :=
  let (cancellation, reached) := stage.cancellation.cancel token
  reached.foldl (fun stage t => stage.wake (.token t)) { stage with cancellation }

/-- One less holds a token. -/
def release (stage : Stage) (token : Nat) : Stage :=
  { stage with cancellation := stage.cancellation.release token }

/-- A token under another one. -/
def childToken (stage : Stage) (parent : Nat) : Stage × Nat :=
  let (cancellation, token) := stage.cancellation.child parent
  ({ stage with cancellation }, token)

/-- A token on its own. -/
def freshToken (stage : Stage) : Stage × Nat :=
  let (cancellation, token) := stage.cancellation.fresh
  ({ stage with cancellation }, token)

/-- Work is taken out of the roster. -/
def leaveRoster (stage : Stage) (entry : Nat) : Stage :=
  let left := { stage with roster := stage.roster.leave entry }
  if left.roster.tracker.settled then left.wake .roster else left

/-- A task for background work, which a host enters in its roster. -/
def spawnBackground (stage : Stage) (name : String) (frame : Frame) : Stage × Nat :=
  if stage.hosted then
    let (roster, entry) := stage.roster.enter name
    { stage with roster }.spawn [frame, .enrolled entry]
  else stage.spawn [frame]

/-! ## 4. Machines -/

/-- The machine of a number is changed. -/
def modifyMachine (stage : Stage) (m : Nat) (f : MachineCell → MachineCell) : Stage :=
  { stage with machines := stage.machines.modify m f }

/-- The core of a machine is changed. -/
def modifyCore (stage : Stage) (m : Nat) (f : Core → Core) : Stage :=
  stage.modifyMachine m fun cell =>
    { cell with actor := { cell.actor with core := f cell.actor.core } }

/-- An effect of a machine comes to pass. -/
def perform (m : Nat) (stage : Stage) : Effect → Stage
  | .publish event => stage.emit event
  | .deliver => stage.wake (.mail m)
  | .answer reply result =>
    { stage with replies := stage.replies.modify reply fun _ => .answered result }.wake
      (.reply reply)
  | .forget reply =>
    { stage with replies := stage.replies.modify reply fun _ => .forgotten }.wake (.reply reply)
  | .cancel =>
    match stage.machines[m]? with
    | some cell => stage.cancel cell.token
    | none => stage
  | .reserve sender => stage.wake (.room m sender)
  | .refuse sender => stage.wake (.room m sender)

/-- A machine changes, with effects in order. -/
def updateMachine (stage : Stage) (m : Nat) (actor : Actor) (effects : List Effect) : Stage :=
  effects.foldl (perform m) (stage.modifyMachine m fun cell => { cell with actor })

/-- A request for a machine that does not wait. -/
def notify (stage : Stage) (m : Nat) (source : String) : Stage × Except Failure Unit :=
  match stage.machines[m]? with
  | none => (stage, .ok ())
  | some cell =>
    let (actor, effects, result) := cell.actor.notify source
    (stage.updateMachine m actor effects, result)

/-- Whether nobody can send to a machine any more. -/
def isOrphan (cell : MachineCell) : Bool := !cell.held && !cell.hasVariables

/-- The handle of background work is dropped. -/
def drop (stage : Stage) : Handle → Stage
  | .token (some token) => stage.release token
  | .token none => stage
  | .machine m =>
    match stage.machines[m]? with
    | none => stage
    | some cell =>
      let dropped :=
        (stage.modifyMachine m fun cell => { cell with held := false }).release cell.token
      if cell.hasVariables then dropped else dropped.wake (.mail m)

/-- What the logic of a machine does in its current state. -/
def logicOf (cell : MachineCell) : List Act :=
  match cell.logic.find? fun entry => entry.1 = cell.actor.core.current with
  | some (_, acts) => acts
  | none => cell.otherwise

/-! ## 5. Observers -/

/-- The audience changed: perhaps events were published, and the observers at some places are to
look at their queues. -/
def convey (stage : Stage) (audience : Audience) (places : List Nat) : Stage :=
  let changed := { stage with audience }
  let told := if stage.audience.bus.sent = audience.bus.sent then changed else changed.wake .bus
  places.foldl (fun stage i => stage.wake (.queue i)) told

/-- An event is offered to every observer. -/
def offer (stage : Stage) (event : Event) : Stage :=
  stage.convey (stage.audience.offer event) (stage.audience.entered event)

/-- An observer has seen an event. -/
def witness (stage : Stage) (i : Nat) (probe : Probe) (event : Event) : Stage :=
  if probe.prints then { stage with printed := event :: stage.printed }
  else { stage with seen := stage.seen.modify i (event :: ·) }

/-- No event will be queued for the observers any more. -/
def dismiss (stage : Stage) : Stage :=
  stage.convey stage.audience.dismiss (List.range stage.audience.observers.length)

end Stage

end Sequencer
