import Sequencer.Event

/-!
# Observers — every event in a bounded queue of each observer

An observer has its own queue and works it off at its own pace. An event that does not fit into a
queue is lost for that observer alone, and the loss is told as an event, unless the lost event tells
of such a loss itself. An observer never gets the events that are about itself.
-/

namespace Sequencer

/-- An observer and the events that wait for it. -/
structure Observer where
  name : String
  /-- How many events may wait, at least one. -/
  capacity : Nat
  queue : List Event := []
  /-- Whether it still works off its queue. -/
  alive : Bool := true

namespace Observer

/-- How many events may wait for an observer that does not say. -/
def defaultCapacity : Nat := 1024

/-- An observer with an empty queue. -/
def ofCapacity (name : String) (capacity : Nat) : Observer :=
  { name, capacity := Nat.max capacity 1 }

/-- What becomes of an event. -/
inductive Fate where
  /-- It is about the observer itself. -/
  | skipped
  | queued
  | lost (reason : String)
  deriving DecidableEq, Repr

/-- What becomes of an event that is offered to the observer. -/
def fate (observer : Observer) (event : Event) : Fate :=
  if event.about? = some observer.name then .skipped
  else if !observer.alive then .lost "closed"
  else if observer.queue.length < observer.capacity then .queued
  else .lost "full"

/-- The observer after an offered event. -/
def offer (observer : Observer) (event : Event) : Observer :=
  match observer.fate event with
  | .queued => { observer with queue := observer.queue ++ [event] }
  | _ => observer

/-- What is told of an offered event that is lost. -/
def report? (observer : Observer) (event : Event) : Option Event :=
  match observer.fate event with
  | .lost reason => if event.isOverflow then none else some (.overflowOf observer.name reason)
  | _ => none

/-- The next event is taken to be handled. -/
def take (observer : Observer) : Option (Event × Observer) :=
  match observer.queue with
  | [] => none
  | event :: queue => some (event, { observer with queue })

/-- The observer is gone, and what waited for it is lost. -/
def collapse (observer : Observer) : Observer := { observer with queue := [], alive := false }

/-- What is told when handling an event panicked; a panic on a report is not told. -/
def panicReport? (observer : Observer) (event : Event) (payload : Payload) : Option Event :=
  if event.isReport then none else some (.panicOf observer.name payload.reason)

end Observer

/-- An event is offered to every observer. The losses are told in the order of the observers. -/
def Observer.emit (observers : List Observer) (event : Event) : List Observer × List Event :=
  (observers.map (·.offer event), observers.filterMap (·.report? event))

end Sequencer
