import Sequencer.Rehearsal.Stage
import Sequencer.Shutdown

/-!
# Hosting — observers, the listener and the shutdown of a host
-/

namespace Sequencer.Stage

/-! ## 1. Observers -/

/-- An observer looks for its next event. One that panics before its work is under way has seen the
event and is gone. -/
def workerTurn (stage : Stage) (i : Nat) (below : List Frame) : Stage × Flow :=
  match stage.audience.take i, stage.probes[i]? with
  | (_, .over), _ => (stage, .give .finished below)
  | (_, .waiting), _ => (stage, .wait [.queue i] (.worker i :: below))
  | (_, .handle _), none => (stage, .give .finished below)
  | (audience, .handle event), some probe =>
    if probe.early && probe.panicsOn event then
      ({ stage with audience := audience.collapse i }.witness i probe event,
        .unwind probe.payload below)
    else
      let stage := { stage with audience }
      let handling := Frame.handling i event :: .worker i :: below
      match probe.delay with
      | none => (stage, .give .finished handling)
      | some millis =>
        let (stage, timer, deadline) := stage.timer millis
        (stage, .run (.asleep timer deadline :: handling))

/-- An observer has worked on an event. A panic in it is told and goes no further. -/
def handled (stage : Stage) (i : Nat) (event : Event) (below : List Frame) : Stage × Flow :=
  match stage.probes[i]? with
  | none => (stage, .run below)
  | some probe =>
    let stage := stage.witness i probe event
    if probe.panicsOn event then
      (stage.convey (stage.audience.recover i event probe.payload) [], .run below)
    else (stage, .run below)

/-! ## 2. The listener -/

/-- The listener makes a step. -/
def listen (stage : Stage) (below : List Frame) : Stage × Flow :=
  match stage.audience.listen (stage.isCancelled (some stage.listenerStop)) with
  | (audience, .offered entered) => (stage.convey audience entered, .run (.listener :: below))
  | (audience, .over) => ({ stage with audience }, .give .finished below)
  | (audience, .waiting) =>
    ({ stage with audience }, .wait [.token stage.listenerStop, .bus] (.listener :: below))
  | (audience, _) => ({ stage with audience }, .run (.listener :: below))

/-! ## 3. Shutdown -/

/-- The shutdown begins: it is told, everything is cancelled, and the host waits for its roster. -/
def beginShutdown (stage : Stage) (below : List Frame) : Stage × Flow :=
  let stage := (stage.announce Shutdown.requestedEvent).cancel stage.root
  let stage := { stage with roster.tracker := stage.roster.tracker.close.await }
  let (stage, timer, deadline) := stage.timer stage.config.grace.ceilMillis
  (stage, .run (.stopping timer deadline :: below))

/-- The host waits for its roster, as long as its grace lasts, and then stops its listener. -/
def awaitRoster (stage : Stage) (timer deadline : Nat) (below : List Frame) : Stage × Flow :=
  match Shutdown.verdict? stage.config.grace stage.roster (deadline ≤ stage.clock) with
  | some verdict =>
    ((stage.announce verdict.event).cancel stage.listenerStop,
      .run (.silencing verdict.result :: below))
  | none => (stage, .wait [.roster, .time timer deadline] (.stopping timer deadline :: below))

/-- The host waits for its listener, and then lets its observers finish. -/
def awaitListener (stage : Stage) (result : Except Refusal Unit) (below : List Frame) :
    Stage × Flow :=
  match stage.listener.filter fun task => !stage.agenda.hasEnded task with
  | some task => (stage, .wait [.ended task] (.silencing result :: below))
  | none =>
    (stage.dismiss,
      .run (.dismissing stage.workers (.verdict (result.map fun _ => none)) :: below))

/-- The host waits for the workers of its observers, one after the other. -/
def awaitWorkers (stage : Stage) (workers : List Nat) (answer : Answer) (below : List Frame) :
    Stage × Flow :=
  match workers with
  | [] => (stage, .give (.answered answer) below)
  | task :: rest =>
    if stage.agenda.hasEnded task then (stage, .run (.dismissing rest answer :: below))
    else (stage, .wait [.ended task] (.dismissing workers answer :: below))

end Sequencer.Stage
