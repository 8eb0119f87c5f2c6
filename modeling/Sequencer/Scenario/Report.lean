import Sequencer.Failure
import Sequencer.Event
import Sequencer.Handler.Execution
import Sequencer.Json
import Sequencer.Machine.Core
import Sequencer.Ring
import Sequencer.Sample

/-!
# Reports — what a rehearsed scenario tells
-/

namespace Sequencer

/-- What a handler is like. -/
structure HandlerStatus where
  name : String
  retries : Nat
  last : ExecutionState

/-- What a variable is like. -/
structure VariableStatus where
  key : String
  value : Option Json
  shown : String

/-- The answer of a step. -/
inductive Answer where
  | nothing
  | truth (holds : Bool)
  | count (n : Int)
  | text (text : String)
  /-- An operation came to an end, perhaps with a value. -/
  | result (result : Except Failure (Option Json))
  /-- The host agreed, perhaps with a name. -/
  | verdict (result : Except Refusal (Option String))
  | handler (status : HandlerStatus)
  /-- The handler of a command, if it has one. -/
  | lookup (status : Option HandlerStatus)
  | snapshot (name : String) (snapshot : Snapshot)
  /-- Whether a machine changed since the last look; of a machine that is gone nobody knows. -/
  | watch (changed : Option Bool) (snapshot : Snapshot)
  | value (status : VariableStatus)
  | sample (sample : Option Sample)
  | host (grace loopInterval : Duration) (cancelled : Bool)
  /-- A spawned step ended with its answer at a time. -/
  | awaited (answer : Answer) (time : Nat)
  | aborted
  /-- The bound of the step ran out. -/
  | pending
  | panicked (reason : String)
  | census (size : Nat)
  | several (answers : List Answer)
  /-- The step names something that is not there. -/
  | unknown (id : String)

/-- An entry of the log. -/
inductive Note where
  | document (document : Json)
  /-- An operation is called with an input. -/
  | call (input : Json)
  /-- An observer of failures sees the text of one. -/
  | failure (text : String)
  /-- A dispatch starts. -/
  | dispatch (machine state : String) (previous : Option String) (entry : Bool)
  /-- The place of a machine within a dispatch. -/
  | place (machine state : String) (previous : Option String) (entry : Bool)
  /-- The outcome of a command. -/
  | outcome (id : String) (failure : Option Failure)
  /-- A delay of a machine was cut short. -/
  | interrupted

/-- What one step told. -/
structure StepReport where
  answer : Answer
  /-- The clock when it returned. -/
  time : Nat
  /-- The notes made until everything was quiet again, with the clock at each. -/
  notes : List (Nat × Note)
  /-- The events told until then. -/
  events : List (Ring.Notice Event)

/-- What a scenario told. -/
structure Report where
  steps : List StepReport
  /-- What each probe that does not print has seen. -/
  seen : List (String × List Event)
  /-- What was printed. -/
  printed : List Event

end Sequencer
