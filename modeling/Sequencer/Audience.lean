import Sequencer.Observers
import Sequencer.Ring

/-!
# Audiences — how events get from the bus of a host to its observers

Events are published on a bus that keeps the newest ones. A listener takes them from the bus one by
one and offers each to every observer; when it is told to stop, it hands on what the bus still holds
and is over. An observer works its queue off on its own. Once the audience is dismissed nothing is
queued any more, and an observer is over when its queue is empty.
-/

namespace Sequencer

/-- Where the listener stands. -/
inductive Listening where
  | live
  /-- It was told to stop and hands on what is left. -/
  | draining
  | over
  deriving DecidableEq, Repr

/-- A bus, its listener and its observers. -/
structure Audience where
  bus : Ring Event
  /-- The position of the next event for the listener. -/
  cursor : Nat := 0
  listening : Listening := .live
  observers : List Observer := []
  dismissed : Bool := false

namespace Audience

/-- An audience of observers on a bus with room for `slots` events. -/
def ofObservers (slots : Nat) (observers : List Observer) : Audience :=
  { bus := Ring.ofCapacity slots, observers }

/-! ## 1. The bus -/

/-- An event is published. -/
def announce (audience : Audience) (event : Event) : Audience :=
  { audience with bus := audience.bus.send event }

/-! ## 2. Offers -/

/-- The observers whose queues an event enters, by their places. -/
def entered (audience : Audience) (event : Event) : List Nat :=
  (audience.observers.zipIdx.filter fun entry => entry.1.fate event = .queued).map (·.2)

/-- An event is offered to every observer, and what is lost is told on the bus. -/
def offer (audience : Audience) (event : Event) : Audience :=
  let (observers, reports) := Observer.emit audience.observers event
  reports.foldl announce { audience with observers }

/-! ## 3. The listener -/

/-- What the listener did. -/
inductive Heard where
  /-- It offered an event to the observers whose places are told. -/
  | offered (entered : List Nat)
  /-- It missed events and goes on with those that are left. -/
  | missed
  /-- It was told to stop, and goes on with what is left. -/
  | stopping
  | waiting
  | over
  deriving DecidableEq, Repr

/-- The listener makes a step. It looks whether it was told to stop before it looks at the bus. -/
def listen (audience : Audience) (stopped : Bool) : Audience × Heard :=
  match audience.listening, stopped with
  | .over, _ => (audience, .over)
  | .live, true => ({ audience with listening := .draining }, .stopping)
  | listening, _ =>
    match audience.bus.receive audience.cursor with
    | .message event cursor =>
      ({ audience with cursor }.offer event, .offered (audience.entered event))
    | .lagged _ cursor => ({ audience with cursor }, .missed)
    | .empty =>
      if listening = .live then (audience, .waiting)
      else ({ audience with listening := .over }, .over)

/-! ## 4. Observers at work -/

/-- What an observer finds. -/
inductive Work where
  | handle (event : Event)
  | waiting
  | over
  deriving DecidableEq, Repr

/-- The observer at place `i` looks for its next event. -/
def take (audience : Audience) (i : Nat) : Audience × Work :=
  match audience.observers[i]?.bind Observer.take with
  | some (event, observer) =>
    ({ audience with observers := audience.observers.set i observer }, .handle event)
  | none => (audience, if audience.dismissed then .over else .waiting)

/-- The observer at place `i` panicked on an event, and goes on. -/
def recover (audience : Audience) (i : Nat) (event : Event) (payload : Payload) : Audience :=
  match audience.observers[i]?.bind fun observer => observer.panicReport? event payload with
  | some report => audience.announce report
  | none => audience

/-- The observer at place `i` panicked before its work was under way, and is gone. -/
def collapse (audience : Audience) (i : Nat) : Audience :=
  { audience with observers := audience.observers.modify i Observer.collapse }

/-- Nothing is queued any more. -/
def dismiss (audience : Audience) : Audience := { audience with dismissed := true }

end Audience

end Sequencer
