import Sequencer.Machine.Actor
import Sequencer.Proofs.Machine.Slots
import Sequencer.Rehearsal.Stage

/-!
# Traffic — a machine among those who send to it

A machine that was started, its mailbox, and the calls of refreshes that are made on it, in every
order in which their steps can come.  A request that does not wait comes from a trigger or from a
variable that took a value; a call of a refresh may wait for a slot, then waits for its answer, and
may be dropped; anybody may cancel the machine at any time; the logic may do any deeds in a dispatch
and come back with any result, or panic.  The log keeps what happened.
-/

namespace Sequencer

/-! ## 1. Calls -/

/-- Where a call of a refresh stands. -/
inductive Phase where
  | unmade
  | sending (source : String)
  /-- Its request entered the mailbox, and it waits for the answer. -/
  | expecting
  | heard (result : Except Failure Unit)
  | dropped

/-- A call of a refresh. -/
structure Call where
  phase : Phase := .unmade
  /-- The answer that was left for it. -/
  reply : Reply := .awaited
  /-- Whether it was told to look again since it last looked. -/
  woken : Bool := false

/-- What an effect of the actor does to the call `c`. -/
def Effect.reach (c : Nat) (call : Call) : Effect → Call
  | .answer d result =>
    if d = c then { call with reply := .answered result, woken := true } else call
  | .forget d => if d = c then { call with reply := .forgotten, woken := true } else call
  | .reserve d => if d = c then { call with woken := true } else call
  | .refuse d => if d = c then { call with woken := true } else call
  | _ => call

/-! ## 2. The log -/

structure Tick where
  state : String
  source : String
  deriving DecidableEq, Repr

/-- A dispatch that came back. -/
structure Round extends Tick where
  result : Except Failure Unit
  queued : List String
  completed : Bool

/-- What the log of a machine keeps. -/
inductive Occurrence where
  /-- A request entered the mailbox. -/
  | entered (request : Request)
  /-- The actor took a request out of the mailbox. -/
  | taken (request : Request)
  | dispatched (tick : Tick)
  | returned (round : Round)
  | published (event : Event)
  | heard (call : Nat) (result : Except Failure Unit)

/-- What an effect leaves in the log of a machine with the requests `queue`. -/
def Effect.entry (hosted : Bool) (queue : List Request) : Effect → Option Occurrence
  | .publish event => if hosted then some (.published event) else none
  -- A delivery is told after the request has entered, so that it is the last one there.
  | .deliver => queue.getLast?.map Occurrence.entered
  | _ => none

def Effect.cancels : Effect → Bool
  | .cancel => true
  | _ => false

/-! ## 3. Machines among their callers -/

/-- A request that does not wait. -/
inductive Notice where
  | trigger (source : String)
  /-- A variable took a value, in a fetch or under a monitor. -/
  | update (v : Variable)

/-- What it asks the refresh for. -/
def Notice.source : Notice → String
  | trigger source => source
  | update v => v.key

inductive Deed where
  | become (state : String)
  | closeTransition
  | complete

def Deed.perform (core : Core) : Deed → Core
  | become state => core.become state
  | closeTransition => core.closeTransition
  | complete => core.complete

/-- A machine among its callers. -/
structure Traffic where
  actor : Actor
  /-- Whether the machine tells its events. -/
  hosted : Bool
  cancelled : Bool := false
  calls : Nat → Call := fun _ => {}
  /-- What happened, the latest first. -/
  log : List Occurrence := []

namespace Traffic

/-- A machine that was just started. -/
def start (config : Config) (name initial : String) (hosted : Bool) : Traffic :=
  { actor := Actor.ofState name initial config.mailboxSlots, hosted }

def record (t : Traffic) (o : Occurrence) : Traffic := { t with log := o :: t.log }

/-- The actor changes, with effects in order. -/
def conduct (t : Traffic) (actor : Actor) (effects : List Effect) : Traffic :=
  { t with
    actor
    cancelled := t.cancelled || effects.any Effect.cancels
    calls := fun c => effects.foldl (Effect.reach c) (t.calls c)
    log := (effects.filterMap (Effect.entry t.hosted actor.mailbox.queue)).reverse ++ t.log }

/-- A call has looked, and stands elsewhere. -/
def place (t : Traffic) (c : Nat) (phase : Phase) : Traffic :=
  { t with
    calls := fun d => if d = c then { t.calls d with phase, woken := false } else t.calls d }

def hear (t : Traffic) (c : Nat) (result : Except Failure Unit) : Traffic :=
  (t.place c (.heard result)).record (.heard c result)

/-! ## 4. Requests -/

def notify (t : Traffic) (source : String) : Traffic × Except Failure Unit :=
  let (actor, effects, result) := t.actor.notify source
  (t.conduct actor effects, result)

def send (t : Traffic) (c : Nat) (source : String) : Traffic :=
  let (actor, effects, posting) := t.actor.request c { source, reply := some c }
  let sent := t.conduct actor effects
  match posting with
  | .entered => sent.place c .expecting
  | .full => sent.place c (.sending source)
  | .closed => sent.hear c (.error t.actor.core.stopped)

/-- A call looks at what it waits for. -/
def poll (t : Traffic) (c : Nat) : Traffic :=
  match (t.calls c).phase, (t.calls c).reply with
  | .sending source, _ => t.send c source
  -- Nothing came yet; it will be told when to look again.
  | .expecting, .awaited => t.place c .expecting
  | .expecting, .answered result => t.hear c result
  | .expecting, .forgotten => t.hear c (.error t.actor.core.stopped)
  | _, _ => t

def drop (t : Traffic) (c : Nat) : Traffic :=
  match (t.calls c).phase with
  | .sending _ =>
    let (actor, effects) := t.actor.abandon c
    (t.conduct actor effects).place c .dropped
  | .expecting => t.place c .dropped
  | _ => t

/-! ## 5. Service -/

/-- Whether the actor is in no refresh and did not end. -/
def idle (t : Traffic) : Bool := !t.actor.ended && t.actor.service.isNone

/-- The oldest request is taken. -/
def noteTaken (t : Traffic) : Traffic :=
  match t.actor.mailbox.queue with
  | [] => t
  | request :: _ => t.record (.taken request)

/-- The logic runs. -/
def noteDispatch (t : Traffic) : Traffic :=
  match t.actor.service with
  | none => t
  | some service =>
    t.record (.dispatched { state := service.state, source := service.chain.source })

/-- The actor did something and does something next. -/
def follow (t : Traffic) : Actor × List Effect × Doing → Traffic
  | (actor, effects, .dispatch) => (t.conduct actor effects).noteDispatch
  | (actor, effects, _) => t.conduct actor effects

/-- An idle actor looks at its cancellation and its mailbox. -/
def turn (t : Traffic) (orphaned : Bool) : Traffic :=
  match t.actor.turn t.cancelled orphaned with
  | (actor, effects, .dispatch) => t.noteTaken.follow (actor, effects, .dispatch)
  | (actor, effects, .served) => t.noteTaken.follow (actor, effects, .served)
  | acted => t.follow acted

/-- The machine is cancelled when its actor has taken a request and not yet begun with it. -/
def overtake (t : Traffic) : Traffic :=
  match t.actor.serve true with
  | none => t
  | some acted => { t.noteTaken with cancelled := true }.follow acted

/-- The running dispatch of `service` comes back. -/
def settle (t : Traffic) (service : Service) (result : Except Failure Unit) : Traffic :=
  (t.record (.returned
    { state := service.state, source := service.chain.source, result
      queued := t.actor.core.pending, completed := t.actor.core.completed })).follow
    (t.actor.settle result t.cancelled)

/-! ## 6. Runs -/

/-- A step of the machine or of somebody around it. -/
inductive Move where
  | notify (notice : Notice)
  | call (c : Nat) (source : String)
  | poll (c : Nat)
  | drop (c : Nat)
  /-- The machine is stopped, or its parent is cancelled. -/
  | cancel
  /-- The actor looks at its mailbox; perhaps nobody can send to it any more. -/
  | turn (orphaned : Bool)
  | overtake
  | deed (deed : Deed)
  | settle (result : Except Failure Unit)
  | panic

/-- A step; one that cannot be taken changes nothing. -/
def step (t : Traffic) : Move → Traffic
  | .notify notice => (t.notify notice.source).1
  | .call c source =>
    match (t.calls c).phase with
    | .unmade => t.send c source
    | _ => t
  | .poll c => t.poll c
  | .drop c => t.drop c
  | .cancel => { t with cancelled := true }
  | .turn orphaned => if t.idle then t.turn orphaned else t
  | .overtake => if t.idle && !t.cancelled then t.overtake else t
  | .deed deed =>
    match t.actor.service with
    | none => t
    | some _ => { t with actor := { t.actor with core := deed.perform t.actor.core } }
  | .settle result =>
    match t.actor.service with
    | none => t
    | some service => t.settle service result
  | .panic =>
    match t.actor.service with
    | none => t
    | some _ => t.conduct t.actor.collapse.1 t.actor.collapse.2

def run (t : Traffic) (moves : List Move) : Traffic := moves.foldl step t

end Traffic

end Sequencer
