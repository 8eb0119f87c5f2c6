import Sequencer.Channel.Medium
import Sequencer.FanOut
import Sequencer.Handler.Execution
import Sequencer.Machine.Actor
import Sequencer.PollLoop
import Sequencer.Scenario.Report
import Sequencer.Scenario.Step
import Sequencer.Rehearsal.Agenda
import Sequencer.Shutdown

/-!
# Frames — the code of a task, as a stack

A task is a stack of frames. The top frame runs; when it is over, it gives what it came to to the
frame below. A frame that has to wait stays on top and is run again when the task is woken.
-/

namespace Sequencer

/-- What a frame gives to the frame below it. -/
inductive Return where
  /-- It is over. -/
  | finished
  /-- It is over, with a value. -/
  | returned (document : Json)
  /-- It raised the stop signal of a loop. -/
  | stopped
  | failed (failure : Failure)
  /-- A step has its answer. -/
  | answered (answer : Answer)

/-- Where a list of acts runs. -/
inductive Scope where
  | plain
  | loopBody
  /-- In the logic of a machine. -/
  | logic (machine : Nat)

/-- A loop of a scenario. -/
structure LoopRun where
  loop : PollLoop
  /-- The token that cancels it, if anything can. -/
  token : Option Nat
  body : List Act
  /-- The condition that stops it, for a loop that waits for one. -/
  condition : Option Condition := none

/-- What a handle of background work stands for. -/
inductive Handle where
  /-- A loop or a standing subscription, by its token. -/
  | token (token : Option Nat)
  | machine (machine : Nat)

/-- A frame. A deadline comes with the number of its timer. -/
inductive Frame where
  /- Acts -/
  | acts (rest : List Act) (scope : Scope)
  /-- A transition of a machine is open. -/
  | transition (machine : Nat)
  /-- A value counts as nothing. -/
  | valueless
  /-- The values of a fan-out are noted. -/
  | noteValues
  | asleep (timer deadline : Nat)
  | yielding (turned : Bool)
  /-- The acts of a transition follow a delay. -/
  | delayed (machine timer deadline : Nat) (acts : List Act)
  /- Handlers -/
  | attempting (handler : Nat) (state : ExecutionState) (input : Json)
  | observing (handler : Nat) (state : ExecutionState) (input : Json) (failure : Failure)
  | pausing (handler : Nat) (state : ExecutionState) (input : Json)
  /-- A command is dispatched. -/
  | reporting (id command : String)
  /- Fan-out -/
  /-- Tasks are collected; their numbers are those from `first` on. -/
  | gathering (fan : FanOut Json) (first : Nat) (tells : Bool)
  /- Loops -/
  | looping (run : LoopRun)
  /-- An iteration runs its body. -/
  | iterating (run : LoopRun) (timer deadline : Nat)
  /-- An iteration waits out its interval. -/
  | pacing (run : LoopRun) (timer deadline : Nat) (outcome : Return)
  /-- The condition of an iteration is looked at. -/
  | checking (condition : Condition)
  /- Machines -/
  | actor (machine : Nat)
  /-- The logic of a machine runs. -/
  | dispatching (machine : Nat)
  /-- A refresh waits for room in a mailbox. -/
  | requesting (machine sender : Nat) (request : Request)
  /-- A refresh waits for its answer. -/
  | expecting (machine reply : Nat)
  /- Variables -/
  /-- A variable waits for its first sample, perhaps within a bound. -/
  | fetching (source : Nat) (stream : Stream) (bound : Option (Nat × Nat))
  /-- A standing subscription. -/
  | monitoring (source token : Nat) (stream : Stream)
  /- Background work -/
  /-- The entry of the task in the roster. -/
  | enrolled (entry : Nat)
  | joining (task : Nat) (name : String) (handle : Handle)
  /- Observers -/
  | worker (observer : Nat)
  /-- An observer has taken an event. -/
  | handling (observer : Nat) (event : Event)
  | listener
  /- Shutdown -/
  /-- The host waits for its background work. -/
  | stopping (timer deadline : Nat)
  /-- The host waits for its listener. -/
  | silencing (result : Except Refusal Unit)
  /-- The host waits for the workers of its observers. -/
  | dismissing (workers : List Nat) (answer : Answer)
  /- Steps -/
  /-- The end of an operation is the answer of a step. -/
  | result
  /-- The end of anything is the empty answer. -/
  | silent
  | settling
  | awaiting (task : Nat)
  /-- A spawned step starts. -/
  | launching (step : Step) (bound : Nat)
  | burst (answers : List Answer) (rest : List Step)
  /-- A step within a bound. A panic in it is its answer. -/
  | bounded (bound : Option (Nat × Nat))
  /-- The time at which a spawned step ends is noted. -/
  | stamped
  /-- The scenario, with the reports of the steps before, the latest first. -/
  | directing (rest : List (Step × Option Nat)) (reports : List StepReport)
  /-- A step has its answer, and everything is to come to rest. -/
  | concluding (answer : Answer) (time : Nat) (rest : List (Step × Option Nat))
      (reports : List StepReport)

/-- How a task ended. -/
inductive Ending where
  | returned (value : Return)
  | panicked (payload : Payload)
  | aborted

/-- The end of a task as that of one of several. -/
def Ending.taskEnd : Ending → TaskEnd Json
  | returned (.returned document) => .value document
  | returned (.failed failure) => .failed failure
  | returned _ => .value .null
  | panicked payload => .panicked payload
  | aborted => .aborted

/-- What a task does next. -/
inductive Flow where
  /-- The top frame runs again after a wait. -/
  | resume (stack : List Frame)
  /-- The top frame runs. -/
  | run (stack : List Frame)
  /-- The top frame gets what the one above it gave. -/
  | give (value : Return) (stack : List Frame)
  /-- A panic reaches the top frame. -/
  | unwind (payload : Payload) (stack : List Frame)
  /-- The task waits. -/
  | wait (wanted : List Signal) (stack : List Frame)

/-- The signals that a frame below the top waits for: bounds, and intervals that are not over. -/
def Frame.timer? (clock : Nat) : Frame → Option Signal
  | .bounded (some (timer, deadline)) => some (.time timer deadline)
  | .iterating _ timer deadline =>
    if clock < deadline then some (.time timer deadline) else none
  | _ => none

/-- A stack whose innermost bound has run out: the frames within the bound, and those below it. -/
def exceeded? (clock : Nat) : List Frame → Option (List Frame × List Frame)
  | [] => none
  | .bounded (some (timer, deadline)) :: below =>
    if deadline ≤ clock then some ([], below)
    else (exceeded? clock below).map fun (within, rest) =>
      (.bounded (some (timer, deadline)) :: within, rest)
  | frame :: below =>
    (exceeded? clock below).map fun (within, rest) => (frame :: within, rest)

end Sequencer
