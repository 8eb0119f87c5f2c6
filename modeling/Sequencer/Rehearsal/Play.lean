import Sequencer.Rehearsal.Steps

/-!
# Playing — a scenario from its first step to its last

One move runs one frame of the running task, or takes the next task off the queue, or lets time
pass. A rehearsal makes moves until its scenario is over.
-/

namespace Sequencer

namespace Stage

/-! ## 1. Frames -/

/-- A frame is dropped before it is over: what it holds is let go. -/
def discard (stage : Stage) : Frame → Stage
  | .gathering fan first _ => stage.abortAll first fan.running
  | .looping run => stage.endLoop run
  | .iterating run _ _ => stage.endLoop run
  | .pacing run _ _ _ => stage.endLoop run
  | .actor m => stage.collapseActor m
  | .requesting m sender _ => stage.abandon m sender
  | .enrolled entry => stage.leaveRoster entry
  | .joining _ _ handle => stage.drop handle
  | _ => stage

/-- A report of the step that has its answer. -/
def conclude (stage : Stage) (answer : Answer) (time : Nat) : Stage × StepReport :=
  let (events, watched) := stage.audience.bus.drain stage.watched
  ({ stage with notes := [], watched }, { answer, time, notes := stage.notes.reverse, events })

/-- The background work of a task is over, and its handle is dropped. -/
def joined (stage : Stage) (task : Nat) (name : String) (handle : Handle) (below : List Frame) :
    Stage × Flow :=
  match stage.agenda.result? task with
  | none => (stage, .wait [.ended task] (.joining task name handle :: below))
  | some (ending, _) =>
    (stage.drop handle,
      .give (match ending with
        | .returned value => value
        | .panicked payload => .failed (.panicked name payload.reason)
        | .aborted => .failed .cancelled) below)

/-- A spawned step is over. -/
def awaited (stage : Stage) (task : Nat) (below : List Frame) : Stage × Flow :=
  match stage.agenda.result? task with
  | none => (stage, .wait [.ended task] (.awaiting task :: below))
  | some (.returned (.answered answer), _) => stage.reply below answer
  | some (.returned _, _) => stage.reply below .nothing
  | some (.panicked payload, _) => stage.reply below (.panicked payload.reason)
  | some (.aborted, _) => stage.reply below .aborted

/-- The top frame runs. -/
def runFrame (stage : Stage) (below : List Frame) : Frame → Stage × Flow
  | .acts [] _ => (stage, .give .finished below)
  | .acts (first :: rest) scope => stage.act scope (.acts rest scope :: below) first
  | .asleep timer deadline =>
    if deadline ≤ stage.clock then (stage, .give .finished below)
    else (stage, .wait [.time timer deadline] (.asleep timer deadline :: below))
  | .yielding true => (stage, .give .finished below)
  | .yielding false => (stage, .wait [.turn] (.yielding true :: below))
  | .delayed m timer deadline acts => stage.delayedTransition m timer deadline acts below
  | .gathering fan first tells => stage.gather fan first tells below
  | .looping run => stage.iterate run below
  | .pacing run timer deadline outcome => stage.pace run timer deadline outcome below
  | .actor m => stage.actorTurn m below
  | .requesting m sender request => stage.request m sender request below
  | .expecting m reply => stage.expect m reply below
  | .fetching v stream bound => stage.awaitSample v stream bound below
  | .monitoring v token stream => stage.watchSamples v token stream below
  | .joining task name handle => stage.joined task name handle below
  | .worker i => stage.workerTurn i below
  | .listener => stage.listen below
  | .stopping timer deadline => stage.awaitRoster timer deadline below
  | .silencing result => stage.awaitListener result below
  | .dismissing workers answer => stage.awaitWorkers workers answer below
  | .settling => stage.reply below .nothing
  | .awaiting task => stage.awaited task below
  | .launching step bound =>
    let (stage, stack) := stage.boundedStep (some bound) (.stamped :: below)
    stage.step stack step
  | .burst answers [] => stage.reply below (.several answers.reverse)
  | .burst answers (first :: rest) => stage.step (.burst answers rest :: below) first
  | .directing [] reports =>
    ({ stage with reports := some reports.reverse }, .give .finished below)
  | .directing ((step, bound) :: rest) reports =>
    let (stage, stack) := stage.boundedStep bound (.directing rest reports :: below)
    stage.step stack step
  | .concluding answer time rest reports =>
    let (stage, report) := stage.conclude answer time
    (stage, .run (.directing rest (report :: reports) :: below))
  | _ => (stage, .give .finished below)

/-- The answer that the end of an operation is. -/
def answerOf : Return → Answer
  | .answered answer => answer
  | .returned document => .result (.ok (some document))
  | .failed failure => .result (.error failure)
  | _ => .result (.ok none)

/-- A frame gets what the one above it gave. -/
def giveFrame (stage : Stage) (value : Return) (below : List Frame) : Frame → Stage × Flow
  | .acts rest scope =>
    match value with
    | .finished => (stage, .run (.acts rest scope :: below))
    | other => (stage, .give other below)
  | .transition m => (stage.modifyCore m (·.closeTransition), .give value below)
  | .valueless =>
    match value with
    | .returned _ => (stage, .give .finished below)
    | other => (stage, .give other below)
  | .noteValues =>
    match value with
    | .returned document => (stage.note (.document document), .give .finished below)
    | other => (stage, .give other below)
  | .attempting h state input => stage.attempted h state input value below
  | .observing h state input failure => stage.observed h state input failure below
  | .pausing h state input => stage.resumed h state input below
  | .reporting id command => stage.report id command value below
  | .iterating run timer deadline => (stage, .run (.pacing run timer deadline value :: below))
  | .checking condition => stage.check condition value below
  | .dispatching m => stage.settleLogic m value below
  | .enrolled entry => (stage.leaveRoster entry, .give value below)
  | .handling i event => stage.handled i event below
  | .result => stage.reply below (answerOf value)
  | .silent => stage.reply below .nothing
  | .stamped =>
    match value with
    | .answered answer => stage.reply below (.awaited answer stage.clock)
    | other => (stage, .give other below)
  | .burst answers rest =>
    match value with
    | .answered answer => (stage, .run (.burst (answer :: answers) rest :: below))
    | other => (stage, .give other below)
  | .directing rest reports =>
    match value with
    | .answered answer =>
      (stage, .wait [.quiet] (.concluding answer stage.clock rest reports :: below))
    | other => (stage, .give other below)
  | _ => (stage, .give value below)

/-- A panic reaches a frame. A bounded step ends with it; any other frame is dropped. -/
def unwindFrame (stage : Stage) (payload : Payload) (below : List Frame) : Frame → Stage × Flow
  | .bounded _ =>
    stage.reply below (.panicked (match payload with
      | .text message => message
      | .other => "(other payload)"))
  | frame => (stage.discard frame, .unwind payload below)

/-! ## 2. Tasks -/

/-- A task that runs waits for nothing but timers. -/
def leaveWaits (stage : Stage) (task : Nat) : Stage :=
  { stage with agenda := stage.agenda.leaveWaits task }

/-- A task comes to rest. A bound that has run out drops what it encloses and goes on below it. -/
def rest (stage : Stage) (task : Nat) (wanted : List Signal) (stack : List Frame) :
    Stage × Option (Nat × Flow) :=
  match exceeded? stage.clock stack with
  | some (within, below) =>
    ((within.foldl discard stage).leaveWaits task, some (task, .give (.answered .pending) below))
  | none =>
    let timers := (stack.drop 1).filterMap (Frame.timer? stage.clock)
    ({ stage with agenda := stage.agenda.park task stack (wanted ++ timers) }, none)

/-- A task has ended. -/
def finish (stage : Stage) (task : Nat) (ending : Ending) : Stage :=
  { stage with agenda := stage.agenda.finish task ending }

/-- The running task, if there is one, makes a move. -/
def move (stage : Stage) (task : Nat) : Flow → Stage × Option (Nat × Flow)
  | .resume [] => (stage.finish task (.returned .finished), none)
  | .resume (frame :: below) =>
    match stage.runFrame below frame with
    | (stage, .wait wanted stack) => stage.rest task wanted stack
    | (stage, flow) => (stage.leaveWaits task, some (task, flow))
  | .run [] => (stage.finish task (.returned .finished), none)
  | .run (frame :: below) =>
    let (stage, flow) := stage.runFrame below frame
    (stage, some (task, flow))
  | .give value [] => (stage.finish task (.returned value), none)
  | .give value (frame :: below) =>
    let (stage, flow) := stage.giveFrame value below frame
    (stage, some (task, flow))
  | .unwind payload [] => (stage.finish task (.panicked payload), none)
  | .unwind payload (frame :: below) =>
    let (stage, flow) := stage.unwindFrame payload below frame
    (stage, some (task, flow))
  | .wait wanted stack => stage.rest task wanted stack

/-- No task runs: the next one is taken off the queue, or time passes. -/
def schedule (stage : Stage) : Option (Stage × Option (Nat × Flow)) :=
  match stage.agenda.next with
  | some ((task, stack, aborted), agenda) =>
    let stage := { stage with agenda }
    if stage.agenda.hasEnded task then some (stage, none)
    else if aborted then some ((stack.foldl discard stage).finish task .aborted, none)
    else some (stage, some (task, .resume stack))
  | none =>
    match stage.agenda.elapse with
    | some agenda => some ({ stage with agenda }, none)
    | none => none

/-- Moves are made until the scenario is over, nothing can ever run again, or the fuel is used
up. -/
def play : (fuel : Nat) → Stage → Option (Nat × Flow) → Stage
  | 0, stage, _ => stage
  | fuel + 1, stage, running =>
    if stage.reports.isSome then stage
    else match running with
      | some (task, flow) =>
        let (stage, running) := stage.move task flow
        play fuel stage running
      | none =>
        match stage.schedule with
        | some (stage, running) => play fuel stage running
        | none => stage

end Stage

/-! ## 3. Scenarios -/

namespace Scenario

/-- How many moves a rehearsal makes at most. -/
def fuel : Nat := wordSize 62

/-- The stage in which a scenario begins: its observers and its listener are spawned, the bus is
watched, and the steps are the last task. -/
def stage (scenario : Scenario) : Stage :=
  let (cancellation, root) := ({} : Cancellation).fresh
  let (cancellation, listenerStop) := cancellation.fresh
  let stage : Stage :=
    { hosted := scenario.hosted
      config := scenario.config
      audience := Audience.ofObservers scenario.config.busSlots
        (scenario.probes.map fun probe => Observer.ofCapacity probe.name probe.capacity)
      medium := scenario.medium
      cancellation, root, listenerStop
      probes := scenario.probes.toArray
      seen := (scenario.probes.map fun _ => []).toArray }
  let stage :=
    if scenario.hosted then
      let (stage, workers) :=
        (List.range scenario.probes.length).foldl
          (fun (stage, workers) i =>
            let (stage, task) := stage.spawn [.worker i]
            (stage, workers ++ [task]))
          (stage, [])
      let stage := { stage with workers }
      if scenario.listens then
        let (stage, listener) := stage.spawn [.listener]
        { stage with listener := some listener }
      else stage
    else stage
  (stage.spawn [.directing scenario.steps []]).1

/-- What a scenario tells when it is rehearsed. -/
def rehearse (scenario : Scenario) : Report :=
  let stage := Stage.play fuel scenario.stage none
  { steps := stage.reports.getD []
    seen :=
      (scenario.probes.zip (stage.seen.toList.map List.reverse)).filterMap fun (probe, events) =>
        if probe.prints then none else some (probe.name, events)
    printed := stage.printed.reverse }

end Scenario

end Sequencer
