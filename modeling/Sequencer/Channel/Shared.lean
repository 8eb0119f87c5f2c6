import Sequencer.Channel

/-!
# Shared channels — handles and subscriptions

A channel lives as long as one of its handles. Subscriptions outlive it: what they have not read
yet stays readable, and then they end. Handles and subscriptions are numbered from zero in the
order in which they are made.
-/

namespace Sequencer

/-- A channel with its handles and subscriptions; a dropped one leaves its number behind. -/
structure SharedChannel where
  channel : Channel
  handles : List Bool := [true]
  subscriptions : List (Option Subscription) := []

namespace SharedChannel

/-- What is asked of a shared channel. -/
inductive Request where
  | publish (key : String) (value : Json)
  | latest (key : String)
  | subscribe (key : String)
  /-- One item of a subscription. -/
  | next (subscription : Nat)
  /-- Items of a subscription up to the first that is no sample. -/
  | drain (subscription : Nat)
  | cloneHandle
  | dropHandle (handle : Nat)
  | unsubscribe (subscription : Nat)

/-- An item of a subscription. -/
inductive Item where
  | sample (sample : Sample)
  /-- Nothing is there now. -/
  | pending
  /-- Nothing will ever be there. -/
  | ended

/-- What a shared channel answers. -/
inductive Reply where
  | published
  | exceeded (fault : CapacityExceeded)
  | latest (sample : Option Sample)
  | number (n : Nat)
  | item (item : Item)
  | items (items : List Item)
  | done

/-- Whether some handle is left. -/
def isOpen (shared : SharedChannel) : Bool := shared.handles.any id

/-- One item of the subscription with this number. -/
def step (shared : SharedChannel) (number : Nat) : Item × SharedChannel :=
  match shared.subscriptions[number]?.join with
  | none => (.ended, shared)
  | some subscription =>
    match shared.channel.next subscription with
    | some (sample, subscription) =>
      (.sample sample,
        { shared with subscriptions := shared.subscriptions.set number (some subscription) })
    | none => (if shared.isOpen then .pending else .ended, shared)

/-- Items of a subscription up to the first that is no sample, at most `fuel` samples. -/
def steps (number : Nat) : (fuel : Nat) → SharedChannel → List Item × SharedChannel
  | 0, shared => ([], shared)
  | fuel + 1, shared =>
    match shared.step number with
    | (.sample sample, shared) =>
      let (items, shared) := steps number fuel shared
      (.sample sample :: items, shared)
    | (item, shared) => ([item], shared)

/-- A number that no subscription has more samples than. -/
def backlog (shared : SharedChannel) : Nat :=
  (shared.channel.topics.values.map fun topic => topic.ring.kept.length).foldl (· + ·) 2

/-- A sample is published. -/
def publish (shared : SharedChannel) (sample : Sample) : Reply × SharedChannel :=
  match shared.channel.publish sample with
  | .ok channel => (.published, { shared with channel })
  | .error fault => (.exceeded fault, shared)

/-- A subscription to `key` is made. -/
def subscribe (shared : SharedChannel) (key : String) : Reply × SharedChannel :=
  match shared.channel.subscribe key with
  | .ok (channel, subscription) =>
    (.number shared.subscriptions.length,
      { shared with channel, subscriptions := shared.subscriptions ++ [some subscription] })
  | .error fault => (.exceeded fault, shared)

/-- The answer to a request. -/
def answer (shared : SharedChannel) : Request → Reply × SharedChannel
  | .publish key value => shared.publish { key, value }
  | .latest key => (.latest (shared.channel.latest key), shared)
  | .subscribe key => shared.subscribe key
  | .next number =>
    let (item, shared) := shared.step number
    (.item item, shared)
  | .drain number =>
    let (items, shared) := steps number (shared.backlog + 1) shared
    (.items items, shared)
  | .cloneHandle =>
    (.number shared.handles.length, { shared with handles := shared.handles ++ [true] })
  | .dropHandle number => (.done, { shared with handles := shared.handles.set number false })
  | .unsubscribe number =>
    (.done, { shared with subscriptions := shared.subscriptions.set number none })

/-- The answers to requests in order. -/
def answers (shared : SharedChannel) : List Request → List Reply
  | [] => []
  | request :: rest =>
    let (reply, shared) := shared.answer request
    reply :: answers shared rest

end SharedChannel

end Sequencer
