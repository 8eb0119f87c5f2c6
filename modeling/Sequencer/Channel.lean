import Sequencer.Ring
import Sequencer.Sample
import Sequencer.Table

/-!
# Channels — keyed samples for many receivers

A channel keeps, for each key, the latest sample and a ring of the newest ones. A subscription to a
key starts with the latest sample, if there is one, and goes on with the samples that are published
after it was made. Keys do not touch each other.
-/

namespace Sequencer

/-- The samples of one key. -/
structure Topic where
  latest : Option Sample := none
  ring : Ring Sample

/-- A channel. Its capacity is that of the ring of every key. -/
structure Channel where
  capacity : Nat
  topics : Table String Topic := {}
  deriving Inhabited

/-- A receiver of the samples of one key. -/
structure Subscription where
  key : String
  /-- The sample that was the latest one when the subscription was made, until it is read. -/
  head : Option Sample
  cursor : Nat

/-- A ring cannot be so large. -/
structure CapacityExceeded where
  deriving DecidableEq, Repr

/-- What is reported for a ring that cannot be so large. -/
def CapacityExceeded.text (_ : CapacityExceeded) : String :=
  "broadcast channel capacity exceeded `usize::MAX / 2`"

namespace Channel

/-- The capacity of a channel that is made without one. -/
def defaultCapacity : Nat := 256

/-- The greatest capacity of a ring. -/
def maxCapacity : Nat := maxWord 63

/-- An empty channel. Every key has room for at least one sample. -/
def ofCapacity (capacity : Nat) : Channel := { capacity := Nat.max capacity 1 }

/-- An empty channel of the default capacity. -/
def new : Channel := ofCapacity defaultCapacity

/-- The latest sample of a key. -/
def latest (channel : Channel) (key : String) : Option Sample :=
  (channel.topics.get? key).bind (·.latest)

/-- The samples of a key; a new key has none. -/
def topic (channel : Channel) (key : String) : Except CapacityExceeded Topic :=
  match channel.topics.get? key with
  | some topic => .ok topic
  | none =>
    if maxCapacity < channel.capacity then .error {}
    else .ok { ring := Ring.ofCapacity channel.capacity }

/-- The channel after a sample. -/
def publish (channel : Channel) (sample : Sample) : Except CapacityExceeded Channel := do
  let topic ← channel.topic sample.key
  return { channel with
    topics := channel.topics.set sample.key
      { latest := some sample, ring := topic.ring.send sample } }

/-- A subscription to `key`, and the channel with a topic for it. -/
def subscribe (channel : Channel) (key : String) :
    Except CapacityExceeded (Channel × Subscription) := do
  let topic ← channel.topic key
  return ({ channel with topics := channel.topics.set key topic },
    { key, head := topic.latest, cursor := topic.ring.subscribe })

/-- The next sample of a subscription, if there is one now. -/
def next (channel : Channel) (subscription : Subscription) : Option (Sample × Subscription) :=
  match subscription.head with
  | some sample => some (sample, { subscription with head := none })
  | none => do
    let topic ← channel.topics.get? subscription.key
    let (sample, cursor) ← topic.ring.next subscription.cursor
    return (sample, { subscription with cursor })

end Channel

end Sequencer
