import Sequencer.Channel

/-!
# Media — where variables share their values

A medium is either a channel in memory or a feed, which hands a fixed list of values to every
subscriber and takes nothing. A feed can refuse to be published to or subscribed to, and says what
its streams do after the last value.
-/

namespace Sequencer

/-- What a stream of a feed does after its last value. -/
inductive FeedEnd where
  | close
  /-- It gives nothing and does not end. -/
  | hang
  | panic (payload : Payload)

/-- A fixed list of values for every subscriber. -/
structure Feed where
  values : List Json
  finish : FeedEnd := .close
  publishFailure : Option Failure := none
  subscribeFailure : Option Failure := none

/-- Where variables share their values. -/
inductive Medium where
  | memory (channel : Channel)
  | feed (feed : Feed)

/-- Why a medium did not do what it was asked. -/
inductive MediumFault where
  | failed (failure : Failure)
  | panicked (payload : Payload)

/-- A subscription to one key of a medium. -/
inductive Stream where
  | memory (subscription : Subscription)
  | feed (rest : List Sample) (finish : FeedEnd)

/-- What a stream gives. -/
inductive Polled where
  | sample (sample : Sample) (stream : Stream)
  | ended
  | pending
  | panicked (payload : Payload)

/-- Whether a stream gives nothing now. -/
def Polled.isPending : Polled → Bool
  | pending => true
  | _ => false

namespace Medium

/-- A ring that is too large panics. -/
def ofExcess (fault : CapacityExceeded) : MediumFault := .panicked (.text fault.text)

/-- The medium after a sample. -/
def publish (medium : Medium) (sample : Sample) : Except MediumFault Medium :=
  match medium with
  | .memory channel =>
    match channel.publish sample with
    | .ok channel => .ok (.memory channel)
    | .error fault => .error (ofExcess fault)
  | .feed source =>
    match source.publishFailure with
    | some failure => .error (.failed failure)
    | none => .ok medium

/-- A stream of the samples of `key`. -/
def subscribe (medium : Medium) (key : String) : Except MediumFault (Medium × Stream) :=
  match medium with
  | .memory channel =>
    match channel.subscribe key with
    | .ok (channel, subscription) => .ok (.memory channel, .memory subscription)
    | .error fault => .error (ofExcess fault)
  | .feed source =>
    match source.subscribeFailure with
    | some failure => .error (.failed failure)
    | none => .ok (medium, .feed (source.values.map fun value => { key, value }) source.finish)

/-- What a stream gives now. -/
def poll (medium : Medium) (stream : Stream) : Polled :=
  match stream, medium with
  | .memory subscription, .memory channel =>
    match channel.next subscription with
    | some (sample, subscription) => .sample sample (.memory subscription)
    | none => .pending
  | .memory _, .feed _ => .ended
  | .feed (sample :: rest) finish, _ => .sample sample (.feed rest finish)
  | .feed [] .close, _ => .ended
  | .feed [] .hang, _ => .pending
  | .feed [] (.panic payload), _ => .panicked payload

/-- The latest sample of a key; a feed keeps none. -/
def latest (medium : Medium) (key : String) : Option Sample :=
  match medium with
  | .memory channel => channel.latest key
  | .feed _ => none

end Medium

end Sequencer
