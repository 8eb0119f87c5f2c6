import Sequencer.Channel.Medium
import Sequencer.Event

/-!
# Variables — a typed value of a machine, shared under a key of a medium

A variable keeps one value. What it takes from the medium is stored first and then told, so that the
machine that is refreshed for it finds the value. It takes a single value when it is fetched, and
every value while it is monitored; a monitored value that cannot be read is told and skipped.
-/

namespace Sequencer

/-- A variable. -/
structure Variable where
  key : String
  shape : Shape
  value : Option Value := none

namespace Variable

/-- The variable with a value. -/
def assign (v : Variable) (value : Value) : Variable := { v with value := some value }

/-- The sample that publishes the value; a variable without a value has none. -/
def sample (v : Variable) : Except Failure (Option Sample) :=
  match v.value with
  | none => .ok none
  | some value => (Sample.encode v.key value 0).map some

/-- A sample is read and stored. -/
def accept (v : Variable) (sample : Sample) : Except Failure (Value × Variable) :=
  match sample.decode v.shape with
  | .ok value => .ok (value, v.assign value)
  | .error failure => .error failure

/-- The value as a reader sees it. -/
def shown (v : Variable) : String :=
  match v.value with
  | some value => value.shown
  | none => "<unset>"

/-! ## 1. Events -/

/-- A value was stored for the machine `machine`. -/
def updatedEvent (v : Variable) (machine : String) : Event :=
  { kind := .varUpdated, name := some machine, source := some v.key }

/-- A monitored value could not be read. -/
def rejectedEvent (v : Variable) (machine : String) (failure : Failure) : Event :=
  { kind := .varRejected, name := some machine, source := some v.key,
    reason := some failure.text }

/-! ## 2. Fetching -/

/-- What becomes of a fetch. -/
inductive Fetched where
  /-- The value is stored and told, and the machine is to be refreshed. -/
  | stored (value : Value) (v : Variable) (event : Event)
  | failed (failure : Failure)
  | waiting
  | panicked (payload : Payload)

/-- A fetch for the machine `machine` looks at its stream. A bound that has run out counts only if
the stream gives nothing. -/
def fetch (v : Variable) (machine : String) (polled : Polled) (expired : Option Duration) :
    Fetched :=
  match polled with
  | .sample sample _ =>
    match v.accept sample with
    | .ok (value, v) => .stored value v (v.updatedEvent machine)
    | .error failure => .failed failure
  | .ended => .failed (.channelClosed v.key)
  | .panicked payload => .panicked payload
  | .pending =>
    match expired with
    | some limit => .failed (.timedOut limit)
    | none => .waiting

/-! ## 3. Monitoring -/

/-- The name of a standing subscription of the variable. -/
def monitorName (v : Variable) (machine : String) : String := machine ++ "/" ++ v.key

/-- What a standing subscription does. -/
inductive Monitored where
  /-- A value is stored and told, and the machine is to be refreshed. -/
  | stored (v : Variable) (event : Event) (stream : Stream)
  /-- A value is told to be unreadable and skipped. -/
  | rejected (event : Event) (stream : Stream)
  | waiting
  | over
  | panicked (payload : Payload)

/-- A standing subscription for the machine `machine` looks at its stream and at its cancellation.
It may be cancelled just when the stream gives something; `cancelFirst` says which of the two it
sees then. -/
def monitor (v : Variable) (machine : String) (cancelled cancelFirst : Bool) (polled : Polled) :
    Monitored :=
  if cancelled && (cancelFirst || polled.isPending) then .over
  else match polled with
    | .sample sample stream =>
      match v.accept sample with
      | .ok (_, v) => .stored v (v.updatedEvent machine) stream
      | .error failure => .rejected (v.rejectedEvent machine failure) stream
    | .ended => .over
    | .pending => .waiting
    | .panicked payload => .panicked payload

end Variable

end Sequencer
