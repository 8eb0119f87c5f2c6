import Sequencer.Failure
import Sequencer.Value

/-!
# Samples — one keyed value on its way through a channel
-/

namespace Sequencer

/-- A keyed document and the time it was produced, in nanoseconds since the epoch. -/
structure Sample where
  key : String
  value : Json
  stamp : Int := 0
  deriving Repr, Inhabited

namespace Sample

/-- The sample of a typed value. -/
def encode (key : String) (value : Value) (stamp : Int) : Except Failure Sample :=
  match value.encode with
  | .ok document => .ok ⟨key, document, stamp⟩
  | .error reason => .error (.codec key reason)

/-- The payload as a value of `shape`. -/
def decode (sample : Sample) (shape : Shape) : Except Failure Value :=
  match shape.decode sample.value with
  | .ok value => .ok value
  | .error reason => .error (.codec sample.key reason)

/-- Equal key, payload and time. -/
def same (a b : Sample) : Bool := a.key = b.key && a.value.same b.value && a.stamp = b.stamp

end Sample

/-- The latest second that a clock can tell, counted from the epoch. -/
def lastSecond : Int := maxWord 63

/-- The time `offset` after the epoch, or before it, unless no clock can tell it. -/
def stampOf (offset : Duration) (before : Bool) : Option Int :=
  let stamp : Int := if before then -offset.nanoseconds else offset.nanoseconds
  let second := stamp / Duration.perSecond
  if -(wordSize 63 : Int) ≤ second ∧ second ≤ lastSecond then some stamp else none

end Sequencer
