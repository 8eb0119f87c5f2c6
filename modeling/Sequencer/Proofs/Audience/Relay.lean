import Sequencer.Audience
import Sequencer.Config
import Sequencer.Shutdown
import Mathlib.Logic.Function.Basic

/-!
# Relays — the events of a host on their way to its observers

The bus of a host, its listener, its observers and its shutdown, in every order in which their steps
can come.  Anybody may publish anything at any time.  The listener takes an event from the bus and
then offers it to one observer after another, and the observers go on with their work meanwhile.  An
observer may panic on an event, but only once the work on it is under way, and goes on then.
-/

namespace Sequencer

/-- How far a host is with its shutdown.  Since the verdict was told, `through` is the number of
events that were published until then, the verdict among them. -/
inductive Standing where
  | running
  | requested
  | concluded (through : Nat)
  /-- The listener was told to stop. -/
  | silenced (through : Nat)
  /-- The listener is over, and the queues are closed. -/
  | dismissed (through : Nat)
  | returned (through : Nat)
  deriving DecidableEq, Repr

namespace Standing

def through? : Standing → Option Nat
  | concluded through => some through
  | silenced through => some through
  | dismissed through => some through
  | returned through => some through
  | _ => none

/-- Whether the listener was told to stop. -/
def isSilent : Standing → Bool
  | silenced _ => true
  | dismissed _ => true
  | returned _ => true
  | _ => false

def isDismissed : Standing → Bool
  | dismissed _ => true
  | returned _ => true
  | _ => false

end Standing

namespace Audience

theorem getElem?_collapse (audience : Audience) (i j : Nat) :
    (audience.collapse i).observers[j]? =
      audience.observers[j]?.map fun observer => if i = j then observer.collapse else observer :=
  List.getElem?_modify _ _ _ _

theorem names_collapse (audience : Audience) (i : Nat) :
    (audience.collapse i).observers.map (·.name) = audience.observers.map (·.name) := by
  apply List.ext_getElem?
  intro j
  rw [List.getElem?_map, List.getElem?_map, getElem?_collapse, Option.map_map]
  congr 1
  funext observer
  show (if i = j then observer.collapse else observer).name = observer.name
  split <;> rfl

end Audience

/-- A host with its audience, and what became of its events. -/
structure Relay where
  audience : Audience
  /-- The event that the listener took from the bus, and the place of the observer to which it is
  offered next. -/
  offering : Option (Event × Nat) := none
  standing : Standing := .running
  /-- The events on which the observers are at work, by their places. -/
  busy : Nat → Option Event := fun _ => none
  /-- Everything that was published, in order. -/
  published : List Event := []
  /-- What was handed to the observers, by their places, in order. -/
  handed : Nat → List Event := fun _ => []
  /-- Whether the listener ever missed an event. -/
  lagged : Bool := false
  /-- Whether an observer ever lost an event. -/
  overflowed : Bool := false

/-- Whether an offered event is lost. -/
def Observer.Fate.isLost : Observer.Fate → Bool
  | lost _ => true
  | _ => false

namespace Relay

/-- A host that was just made, for observers of these names and capacities. -/
def start (config : Config) (seats : List (String × Nat)) : Relay :=
  { audience := Audience.ofObservers config.busSlots
      (seats.map fun seat => Observer.ofCapacity seat.1 seat.2) }

/-! ## 1. The listener -/

def publish (x : Relay) (event : Event) : Relay :=
  { x with audience := x.audience.announce event, published := x.published ++ [event] }

/-- The listener finds something on the bus.  If it was told to stop, it is over when nothing is
left. -/
def find (x : Relay) : Received Event → Relay
  | .message event cursor =>
    { x with audience := { x.audience with cursor }, offering := some (event, 0) }
  | .lagged _ cursor => { x with audience := { x.audience with cursor }, lagged := true }
  | .empty =>
    if x.audience.listening = .live then x
    else { x with audience := { x.audience with listening := .over } }

/-- The listener looks for its next event. -/
def hear (x : Relay) : Relay :=
  match x.audience.listening, x.standing.isSilent with
  | .over, _ => x
  | .live, true => { x with audience := { x.audience with listening := .draining } }
  | _, _ => x.find (x.audience.bus.receive x.audience.cursor)

/-- The event is queued for the observer at the place `i`, unless it is about the observer or lost,
and the next one comes. -/
def queue (x : Relay) (event : Event) (i : Nat) (observer : Observer) : Relay :=
  { x with
    audience := { x.audience with observers := x.audience.observers.set i (observer.offer event) }
    offering := some (event, i + 1)
    overflowed := x.overflowed || (observer.fate event).isLost }

/-- The listener offers its event to the observer at the place `i`, and a loss is told; or it is
done with the event. -/
def offer (x : Relay) (event : Event) (i : Nat) : Relay :=
  match x.audience.observers[i]? with
  | none => { x with offering := none }
  | some observer =>
    match observer.report? event with
    | some report => (x.queue event i observer).publish report
    | none => x.queue event i observer

def listen (x : Relay) : Relay :=
  match x.offering with
  | none => x.hear
  | some (event, i) => x.offer event i

/-! ## 2. The observers -/

def take (x : Relay) (i : Nat) : Relay :=
  match x.busy i, x.audience.take i with
  | none, (audience, .handle event) =>
    { x with
      audience
      busy := Function.update x.busy i (some event)
      handed := Function.update x.handed i (x.handed i ++ [event]) }
  | _, _ => x

def finish (x : Relay) (i : Nat) : Relay := { x with busy := Function.update x.busy i none }

/-- The work of the observer at the place `i` panics, and it goes on with the next event. -/
def panic (x : Relay) (i : Nat) (payload : Payload) : Relay :=
  match x.busy i with
  | none => x
  | some event =>
    match x.audience.observers[i]?.bind fun observer => observer.panicReport? event payload with
    | some report => (x.finish i).publish report
    | none => x.finish i

/-! ## 3. The shutdown -/

def conclude (x : Relay) (event : Event) : Relay :=
  { x.publish event with standing := .concluded (x.published.length + 1) }

/-- Whether all observers are over. -/
def isFinished (x : Relay) : Bool :=
  (List.range x.audience.observers.length).all fun i =>
    (x.busy i).isNone && decide ((x.audience.take i).2 = .over)

/-- A step of the host, or of somebody around it. -/
inductive Move where
  | publish (event : Event)
  | listen
  | take (i : Nat)
  | finish (i : Nat)
  | panic (i : Nat) (payload : Payload)
  /-- The shutdown begins. -/
  | request
  /-- The shutdown looks at the background work. -/
  | conclude (grace : Duration) (roster : Roster) (elapsed : Bool)
  | silence
  | dismiss
  | comeBack

/-- A step; one that cannot be taken changes nothing. -/
def step (x : Relay) : Move → Relay
  | .publish event => x.publish event
  | .listen => x.listen
  | .take i => x.take i
  | .finish i => x.finish i
  | .panic i payload => x.panic i payload
  | .request =>
    match x.standing with
    | .running => { x.publish Shutdown.requestedEvent with standing := .requested }
    | _ => x
  | .conclude grace roster elapsed =>
    match x.standing, Shutdown.verdict? grace roster elapsed with
    | .requested, some verdict => x.conclude verdict.event
    | _, _ => x
  | .silence =>
    match x.standing with
    | .concluded through => { x with standing := .silenced through }
    | _ => x
  | .dismiss =>
    match x.standing, x.audience.listening with
    | .silenced through, .over =>
      { x with audience := x.audience.dismiss, standing := .dismissed through }
    | _, _ => x
  | .comeBack =>
    match x.standing with
    | .dismissed through => if x.isFinished then { x with standing := .returned through } else x
    | _ => x

def run (x : Relay) (moves : List Move) : Relay := moves.foldl step x

/-! ## 4. The steps of an audience -/

variable {x : Relay} {event : Event} {i : Nat} {observer : Observer}

theorem audience_panic (payload : Payload) (h : x.busy i = some event) :
    (x.panic i payload).audience = x.audience.recover i event payload := by
  unfold panic Audience.recover
  simp only [h]
  cases x.audience.observers[i]?.bind fun observer => observer.panicReport? event payload with
  | none => rfl
  | some report => rfl

theorem listen_offering (h : x.offering = some (event, i)) : x.listen = x.offer event i := by
  unfold listen
  rw [h]

theorem offer_nobody (h : x.audience.observers[i]? = none) :
    x.offer event i = { x with offering := none } := by
  unfold offer
  rw [h]

theorem offer_observer (event : Event) (h : x.audience.observers[i]? = some observer) :
    (x.offer event i).offering = some (event, i + 1) ∧
      (x.offer event i).audience.observers = x.audience.observers.set i (observer.offer event) ∧
      ∀ observers, { (x.offer event i).audience with observers } =
        (observer.report? event).toList.foldl Audience.announce { x.audience with observers } := by
  unfold offer
  cases hreport : observer.report? event with
  | none =>
    simp only [h, hreport]
    exact ⟨rfl, rfl, fun _ => rfl⟩
  | some report =>
    simp only [h, hreport]
    exact ⟨rfl, rfl, fun _ => rfl⟩

/-- The offers of an event to one observer after another come to the same as the offer to all. -/
theorem run_offers {ready rest : List Observer}
    (hoffering : x.offering = some (event, ready.length))
    (hobservers : x.audience.observers = ready ++ rest) :
    (x.run (List.replicate (rest.length + 1) .listen)).offering = none ∧
      (x.run (List.replicate (rest.length + 1) .listen)).audience =
        (rest.filterMap (·.report? event)).foldl Audience.announce
          { x.audience with observers := ready ++ rest.map (·.offer event) } := by
  induction rest generalizing x ready with
  | nil =>
    have hnobody : x.audience.observers[ready.length]? = none := by
      rw [hobservers, List.append_nil]
      exact List.getElem?_eq_none (Nat.le_refl _)
    have hrun : x.run (List.replicate (0 + 1) .listen) = { x with offering := none } :=
      (listen_offering hoffering).trans (offer_nobody hnobody)
    rw [List.length_nil, hrun]
    refine ⟨rfl, ?_⟩
    rw [List.map_nil, ← hobservers]
    rfl
  | cons observer rest ih =>
    have hplace : x.audience.observers[ready.length]? = some observer := by
      rw [hobservers, List.getElem?_append_right (Nat.le_refl _), Nat.sub_self]
      rfl
    obtain ⟨hnext, hset, haudience⟩ := offer_observer event hplace
    rw [← listen_offering hoffering] at hnext hset haudience
    have hsplit : x.audience.observers.set ready.length (observer.offer event) =
        (ready ++ [observer.offer event]) ++ rest := by
      rw [hobservers, List.set_append_right _ _ (Nat.le_refl _), Nat.sub_self, List.set_cons_zero,
        List.append_assoc, List.singleton_append]
    have hlength : ready.length + 1 = (ready ++ [observer.offer event]).length := by
      rw [List.length_append, List.length_singleton]
    have hrest := ih (hlength ▸ hnext) (hset.trans hsplit)
    have hrun : x.run (List.replicate ((observer :: rest).length + 1) .listen) =
        x.listen.run (List.replicate (rest.length + 1) .listen) := rfl
    rw [hrun]
    refine ⟨hrest.1, hrest.2.trans ?_⟩
    have hreports : (observer :: rest).filterMap (·.report? event) =
        (observer.report? event).toList ++ rest.filterMap (·.report? event) := by
      rw [List.filterMap_cons]
      cases observer.report? event <;> rfl
    rw [haudience, hreports, List.foldl_append, List.map_cons, List.append_assoc,
      List.singleton_append]

/-- The listener looks as that of an audience does, and perhaps has an event to offer. -/
theorem hear_cases (h : x.offering = none) :
    x.hear.offering = none ∧ x.hear.audience = (x.audience.listen x.standing.isSilent).1 ∨
      ∃ event, x.hear.offering = some (event, 0) ∧
        x.hear.audience.observers = x.audience.observers ∧
        (x.audience.listen x.standing.isSilent).1 = x.hear.audience.offer event := by
  obtain ⟨⟨bus, cursor, listening, observers, dismissed⟩, offering, standing⟩ := x
  unfold hear Audience.listen
  cases listening with
  | live =>
    cases standing.isSilent with
    | true =>
      simp only
      exact .inl ⟨h, trivial⟩
    | false =>
      simp only
      cases bus.receive cursor with
      | message event cursor => exact .inr ⟨event, rfl, rfl, rfl⟩
      | lagged missed cursor => exact .inl ⟨h, rfl⟩
      | empty => exact .inl ⟨h, rfl⟩
  | draining =>
    cases bus.receive cursor with
    | message event cursor => exact .inr ⟨event, rfl, rfl, rfl⟩
    | lagged missed cursor => exact .inl ⟨h, rfl⟩
    | empty => exact .inl ⟨h, rfl⟩
  | _ => exact .inl ⟨h, rfl⟩

/-- If nothing happens between its offers, the listener makes the steps of that of an audience. -/
theorem run_listen (h : x.offering = none) :
    ∃ n, (x.run (List.replicate n .listen)).offering = none ∧
      (x.run (List.replicate n .listen)).audience =
        (x.audience.listen x.standing.isSilent).1 := by
  have hlisten : x.listen = x.hear := by
    unfold listen
    rw [h]
  rcases hear_cases h with ⟨hoffering, haudience⟩ | ⟨event, hoffering, hobservers, haudience⟩
  · refine ⟨1, ?_⟩
    show x.listen.offering = none ∧ x.listen.audience = _
    rw [hlisten]
    exact ⟨hoffering, haudience⟩
  · have hrest := run_offers hoffering (List.nil_append _).symm
    refine ⟨x.hear.audience.observers.length + 1 + 1, ?_⟩
    have hrun : x.run (List.replicate (x.hear.audience.observers.length + 1 + 1) .listen) =
        x.listen.run (List.replicate (x.hear.audience.observers.length + 1) .listen) := rfl
    rw [hrun, hlisten, haudience]
    exact hrest

end Relay

end Sequencer
