import Sequencer.Rehearsal.Acts

/-!
# Repeating and collecting — loops and fan-out
-/

namespace Sequencer.Stage

/-! ## 1. Loops -/

/-- A loop is over, and lets go of its token. -/
def endLoop (stage : Stage) (run : LoopRun) : Stage :=
  match run.token with
  | some token => stage.release token
  | none => stage

/-- A loop ends with what it tells. -/
def closeLoop (stage : Stage) (run : LoopRun) (ended : LoopEnd) (below : List Frame) :
    Stage × Flow :=
  ((stage.emit ended.event).endLoop run,
    .give (match ended.result with
      | .ok () => .finished
      | .error failure => .failed failure) below)

/-- A loop is between two iterations. -/
def iterate (stage : Stage) (run : LoopRun) (below : List Frame) : Stage × Flow :=
  match run.loop.next (stage.isCancelled run.token) with
  | .error ended => stage.closeLoop run ended below
  | .ok loop =>
    let (stage, timer, deadline) := stage.timerAt (loop.due (.ofMillis stage.clock)).millis
    let iterating := Frame.iterating { run with loop } timer deadline :: below
    match run.condition with
    | none => (stage, .run (.acts run.body .loopBody :: iterating))
    | some condition => (stage, .run (.acts run.body .plain :: .checking condition :: iterating))

/-- The end of a body as that of an iteration. -/
def exitOf : Return → Except LoopExit Unit
  | .stopped => .error .stop
  | .failed failure => .error (.failed failure)
  | _ => .ok ()

/-- An iteration waits out its interval, and then the loop ends or goes on. -/
def pace (stage : Stage) (run : LoopRun) (timer deadline : Nat) (outcome : Return)
    (below : List Frame) : Stage × Flow :=
  match run.loop.pace (.ofMillis stage.clock) (.ofMillis deadline) (exitOf outcome) with
  | .waiting => (stage, .wait [.time timer deadline] (.pacing run timer deadline outcome :: below))
  | .ended ended => stage.closeLoop run ended below
  | .going => (stage, .run (.looping run :: below))

/-- The body of a condition came back, and the condition is looked at. -/
def check (stage : Stage) (condition : Condition) (value : Return) (below : List Frame) :
    Stage × Flow :=
  match value with
  | .failed failure => (stage, .give (.failed failure) below)
  | _ => (stage, .give (if stage.holds .plain condition then .stopped else .finished) below)

/-! ## 2. Fan-out -/

/-- The first task of a fan-out that has ended and is not collected yet: its place and its end. The
task in place `i` has the number `first + i`. -/
def firstEnded (stage : Stage) (fan : FanOut Json) (first : Nat) : Option (Nat × Ending) :=
  let ended := fan.running.filterMap fun place =>
    (stage.agenda.result? (first + place)).map fun (ending, turn) => (place, ending, turn)
  match ended with
  | [] => none
  | one :: others =>
    let (place, ending, _) :=
      others.foldl (fun best other => if other.2.2 < best.2.2 then other else best) one
    some (place, ending)

/-- The tasks in some places of a fan-out are to be dropped. -/
def abortAll (stage : Stage) (first : Nat) (places : List Nat) : Stage :=
  { stage with
    agenda := places.foldl (fun agenda place => agenda.abort (first + place)) stage.agenda }

/-- The tasks of a fan-out are collected as they end. -/
def gather (stage : Stage) (fan : FanOut Json) (first : Nat) (tells : Bool) (below : List Frame) :
    Stage × Flow :=
  match stage.firstEnded fan first with
  | some (place, ending) =>
    match fan.take place ending.taskEnd with
    | .going fan => (stage, .run (.gathering fan first tells :: below))
    | .failed failure cancelled =>
      let stage := stage.abortAll first cancelled
      let stage := if tells then stage.emit (FanOut.failedEvent failure) else stage
      (stage, .give (.failed failure) below)
  | none =>
    if fan.isOver then (stage, .give (.returned (.array fan.values)) below)
    else
      (stage, .wait (fan.running.map fun place => .ended (first + place))
        (.gathering fan first tells :: below))

end Sequencer.Stage
