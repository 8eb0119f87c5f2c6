import Sequencer.Channel.Medium
import Sequencer.Config
import Sequencer.Event
import Sequencer.Handler
import Sequencer.Observers
import Sequencer.Scenario.Act
import Sequencer.Value

/-!
# Steps — what a scenario asks of the host, one after the other
-/

namespace Sequencer

/-- A variable that is made with a machine. -/
structure VariableSpec where
  id : String
  key : String
  shape : Shape
  initial : Option Value := none

/-- Whether a new machine is started. -/
inductive Launch where
  | started
  /-- It is kept with its mailbox. -/
  | kept
  /-- It is dropped at once. -/
  | dropped
  deriving DecidableEq, Repr

/-- A machine to be made. -/
structure MachineSpec where
  id : String
  name : String
  initial : String
  variableSpecs : List VariableSpec := []
  /-- The acts of a dispatch, by state. -/
  logic : List (String × List Act) := []
  /-- The acts of a dispatch of any other state. -/
  otherwise : List Act := []
  /-- Whether dispatches are not noted. -/
  quiet : Bool := false
  launch : Launch := .started

/-- A step about handlers and registries. The operation of a handler is a list of bodies: one for
each call, and the last one for all later calls. -/
inductive HandlerStep where
  | make (id name : String) (calls : List (List Act)) (settings : List (Setting (List Act)))
  | configure (id : String) (settings : List (Setting (List Act)))
  | execute (id : String) (input : Json)
  | status (id : String)
  | registry (id : String)
  /-- A handler is registered for a command. -/
  | register (id command : String) (calls : List (List Act)) (settings : List (Setting (List Act)))
  | dispatch (id commandId command : String) (input : Json)
  | lookup (id command : String)

/-- A step about loops. -/
inductive LoopStep where
  | run (body : List Act) (interval : Option Duration)
  | waitFor (body : List Act) (condition : Condition)
  /-- A loop runs in the background. -/
  | start (id name : String) (interval : Duration) (body : List Act)
  | cancel (id : String)
  | drop (id : String)
  | isFinished (id : String)
  | join (id : String)

/-- A step about machines. -/
inductive MachineStep where
  | make (spec : MachineSpec)
  | refresh (id source : String)
  | trigger (id source : String)
  | snapshot (id : String)
  | watch (id : String)
  | stop (id : String)
  | isFinished (id : String)
  | join (id : String)

/-- A step about variables, their standing subscriptions and the medium. -/
inductive VariableStep where
  | set (id : String) (document : Json)
  | get (id : String)
  | put (id : String)
  | fetch (id : String)
  | monitor (source id : String)
  | cancelMonitor (id : String)
  | dropMonitor (id : String)
  | isMonitorFinished (id : String)
  | joinMonitor (id : String)
  | publish (key : String) (document : Json)
  | latest (key : String)

/-- A step about the host and its observers. -/
inductive HostStep where
  | config
  | announce (event : Event)
  | cancel
  | shutdown
  /-- Events are offered to the observers, past the bus. -/
  | offer (events : List Event)
  | census
  /-- The observers finish. -/
  | dismiss

/-- A step. -/
inductive Step where
  | sleep (millis : Nat)
  /-- Everything comes to rest. -/
  | settle
  | counter (id : String)
  | burst (steps : List Step)
  /-- A step runs as a task, within a bound in milliseconds. -/
  | spawn (id : String) (step : Step) (bound : Nat)
  | await (id : String)
  | abort (id : String)
  | isDone (id : String)
  | fanOut (tasks : List (List Act))
  | handler (step : HandlerStep)
  | loop (step : LoopStep)
  | machine (step : MachineStep)
  | value (step : VariableStep)
  | host (step : HostStep)

/-- How an observer of a scenario behaves. -/
structure Probe where
  name : String
  capacity : Nat := Observer.defaultCapacity
  /-- How long it works on an event, in milliseconds. -/
  delay : Option Nat := none
  /-- The kinds of events on which it panics; none stands for all of them. -/
  panicOn : List (Option EventKind) := []
  payload : Payload := .text "subscriber blew up"
  /-- Whether it panics before its work is under way, which ends it. -/
  early : Bool := false
  /-- Whether it prints its events instead of keeping them. -/
  prints : Bool := false

namespace Probe

/-- Whether it panics on an event. -/
def panicsOn (probe : Probe) (event : Event) : Bool :=
  probe.panicOn.any fun kind => kind = none || kind = some event.kind

end Probe

/-- A scenario. -/
structure Scenario where
  /-- Whether a host makes everything and tells events. -/
  hosted : Bool
  config : Config := {}
  medium : Medium := .memory Channel.new
  probes : List Probe := []
  /-- Whether a listener hands the events of the host to the probes. -/
  listens : Bool := true
  /-- The steps, each with a bound in milliseconds if it has one. -/
  steps : List (Step × Option Nat)

end Sequencer
