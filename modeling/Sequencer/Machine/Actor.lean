import Sequencer.Machine.Chain
import Sequencer.Machine.Mailbox

/-!
# Actors — a machine that serves its mailbox, one refresh at a time

An actor takes requests out of its mailbox in order and runs the chain of each one to its end before
it takes the next. It leaves when it is cancelled, or when nobody can send to it any more: it closes
the mailbox, answers the requests that are still in it, and tells that it stopped. A panic of the
logic ends it at once, and the requests are forgotten unanswered.

Every operation gives the next actor and what it does to the world, in order.
-/

namespace Sequencer

/-- A request for a refresh. -/
structure Request where
  /-- What asked for it: a label of the caller, or the key of a variable. -/
  source : String
  /-- Where the answer is awaited, if anywhere. -/
  reply : Option Nat := none
  deriving DecidableEq, Repr

/-- A refresh in service. -/
structure Service where
  reply : Option Nat
  chain : Chain
  /-- The state of the running dispatch. -/
  state : String
  deriving DecidableEq, Repr

/-- What an actor does to the world. -/
inductive Effect where
  | publish (event : Event)
  /-- A request entered the mailbox. -/
  | deliver
  /-- A caller gets the answer to its refresh. -/
  | answer (reply : Nat) (result : Except Failure Unit)
  /-- A caller will get no answer. -/
  | forget (reply : Nat)
  /-- The machine is cancelled. -/
  | cancel
  /-- A waiting sender has a reserved slot. -/
  | reserve (sender : Nat)
  /-- A waiting sender meets a closed mailbox. -/
  | refuse (sender : Nat)

/-- What an actor does next. -/
inductive Doing where
  /-- The logic runs in the current state. -/
  | dispatch
  /-- The refresh is over. -/
  | served
  /-- The mailbox is empty. -/
  | waiting
  /-- The actor left. -/
  | left
  deriving DecidableEq, Repr

/-- A machine with its mailbox. -/
structure Actor where
  core : Core
  mailbox : Mailbox Request
  service : Option Service := none
  /-- What others see of the machine, from the latest dispatch that came back. -/
  seen : Snapshot
  /-- How often that changed. -/
  version : Nat := 0
  ended : Bool := false

namespace Actor

/-- A machine that was never dispatched, with room for `slots` requests. -/
def ofState (name initial : String) (slots : Nat) : Actor :=
  let core := Core.ofState name initial
  { core, mailbox := { capacity := slots }, seen := core.snapshot }

/-! ## 1. Requests -/

/-- A request that does not wait. A full mailbox drops it and tells so; a closed one is a
failure. -/
def notify (actor : Actor) (source : String) : Actor × List Effect × Except Failure Unit :=
  match actor.mailbox.post { source } with
  | (mailbox, .entered) => ({ actor with mailbox }, [.deliver], .ok ())
  | (_, .full) => (actor, [.publish (actor.core.overflowEvent source)], .ok ())
  | (_, .closed) => (actor, [], .error actor.core.stopped)

/-- A request of a sender that waits if it must. -/
def request (actor : Actor) (sender : Nat) (request : Request) :
    Actor × List Effect × Posting :=
  let (mailbox, posting) := actor.mailbox.send sender request
  ({ actor with mailbox }, if posting = .entered then [.deliver] else [], posting)

/-- A sender that waits gives up. -/
def abandon (actor : Actor) (sender : Nat) : Actor × List Effect :=
  let (mailbox, reserved) := actor.mailbox.abandon sender
  ({ actor with mailbox }, (reserved.map Effect.reserve).toList)

/-! ## 2. Service -/

/-- The next dispatch of the refresh starts, unless the machine was cancelled. -/
def startDispatch (actor : Actor) (core : Core) (chain : Chain) (reply : Option Nat)
    (cancelled : Bool) : Actor × List Effect × Doing :=
  match chain.start core cancelled with
  | .dispatch core chain event =>
    ({ actor with core, service := some { reply, chain, state := core.current } },
      [.publish event], .dispatch)
  | .ended core result =>
    ({ actor with core, service := none }, (reply.map (Effect.answer · result)).toList, .served)

/-- The oldest request is served, if there is one. -/
def serve (actor : Actor) (cancelled : Bool) : Option (Actor × List Effect × Doing) :=
  match actor.mailbox.take with
  | none => none
  | some (request, mailbox, reserved) =>
    let (core, chain) := Chain.begin actor.core request.source
    let (actor, effects, doing) :=
      startDispatch { actor with mailbox } core chain request.reply cancelled
    some (actor, (reserved.map Effect.reserve).toList ++ effects, doing)

/-- The logic came back with `result`. Others see the machine as it is now, and the refresh ends or
goes on with the next queued state. -/
def settle (actor : Actor) (result : Except Failure Unit) (cancelled : Bool) :
    Actor × List Effect × Doing :=
  match actor.service with
  | none => (actor, [], .served)
  | some service =>
    let actor := { actor with seen := actor.core.snapshot, version := actor.version + 1 }
    let after := Chain.settle actor.core service.chain service.state result
    let told := (after.event.map Effect.publish).toList ++ (if after.cancels then [.cancel] else [])
    match after.next with
    | .error result =>
      ({ actor with core := after.core, service := none },
        told ++ (service.reply.map (Effect.answer · result)).toList, .served)
    | .ok chain =>
      let (actor, effects, doing) := startDispatch actor after.core chain service.reply cancelled
      (actor, told ++ effects, doing)

/-! ## 3. The end -/

/-- The actor leaves in order. -/
def leave (actor : Actor) : Actor × List Effect :=
  let (mailbox, refused) := actor.mailbox.close
  let (left, mailbox) := mailbox.drain
  ({ actor with mailbox, ended := true },
    refused.map Effect.refuse
      ++ (left.filterMap (·.reply)).map (Effect.answer · (.error actor.core.stopped))
      ++ [.publish actor.core.stoppedEvent])

/-- The logic panicked: the actor is gone, and nobody gets an answer. -/
def collapse (actor : Actor) : Actor × List Effect :=
  let (mailbox, refused) := actor.mailbox.close
  let (left, mailbox) := mailbox.drain
  ({ actor with mailbox, service := none, ended := true },
    ((actor.service.bind (·.reply)).map Effect.forget).toList
      ++ refused.map Effect.refuse
      ++ (left.filterMap (·.reply)).map Effect.forget)

/-- What an actor that is in no refresh does: a cancelled one leaves, a request is served, and an
actor to which nobody can send leaves too. -/
def turn (actor : Actor) (cancelled orphaned : Bool) : Actor × List Effect × Doing :=
  if cancelled then
    let (actor, effects) := actor.leave
    (actor, effects, .left)
  else
    match actor.serve cancelled with
    | some turned => turned
    | none =>
      if orphaned then
        let (actor, effects) := actor.leave
        (actor, effects, .left)
      else (actor, [], .waiting)

end Actor

end Sequencer
