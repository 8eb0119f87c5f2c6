import Sequencer.Duration

/-!
# Backoff — the delay before a retry

The delay before retry `k`, counted from zero, is `first * factor ^ k` in double precision, capped
at `max` and then spread by a jitter. A jitter does not draw here: it answers with the `Spread` of
the delays it may choose, and `Spread.pick` turns a draw into one of them.
-/

namespace Sequencer

/-! ## 1. Jitter -/

/-- How a delay is randomised. -/
inductive Jitter where
  /-- The delay itself. -/
  | none
  /-- Anything from nothing to the delay. -/
  | full
  /-- At least half of the delay. -/
  | equal
  /-- From a base to three times the delay, under a cap. -/
  | decorrelated
  deriving DecidableEq, Repr, Inhabited

/-- The delays that may be chosen: one, or any whole number of milliseconds in a range. -/
inductive Spread where
  | exactly (delay : Duration)
  | wholeMillis (low high : Nat)
  deriving DecidableEq, Repr

/-- The delay that a draw selects. -/
def Spread.pick (draw : Nat) : Spread → Duration
  | exactly delay => delay
  | wholeMillis low high => Duration.ofMillis (low + draw % (high - low + 1))

/-- The delays of the spread in ascending order. -/
def Spread.delays : Spread → List Duration
  | exactly delay => [delay]
  | wholeMillis low high =>
    (List.range (high - low + 1)).map fun k => Duration.ofMillis (low + k)

/-- The shortest and the longest delay of the spread. -/
def Spread.bounds : Spread → Duration × Duration
  | exactly delay => (delay, delay)
  | wholeMillis low high => (Duration.ofMillis low, Duration.ofMillis high)

namespace Jitter

/-- The name of the policy. -/
def name : Jitter → String
  | none => "None"
  | full => "Full"
  | equal => "Equal"
  | decorrelated => "Decorrelated"

/-- The spread around `delay`. A delay below one millisecond is kept, and so is every delay under
`decorrelated`, which needs more than the delay. -/
def apply (jitter : Jitter) (delay : Duration) : Spread :=
  let ms := delay.millisWord
  if ms = 0 then .exactly delay
  else match jitter with
    | none => .exactly delay
    | decorrelated => .exactly delay
    | full => .wholeMillis 0 ms
    | equal => .wholeMillis (ms / 2) (ms / 2 + ms / 2)

/-- The spread from `base` to three times `prev`, both in whole milliseconds and under `max`. The
other policies only look at `prev`. -/
def applyDecorrelated (jitter : Jitter) (base prev max : Duration) : Spread :=
  match jitter with
  | decorrelated =>
    let low := base.millisWord
    let tripled := Nat.min (prev.millisWord * 3) (maxWord 64)
    let high := Nat.max (Nat.min tripled max.millisWord) low
    if high ≤ low then .exactly base else .wholeMillis low high
  | other => other.apply prev

end Jitter

/-! ## 2. Growth -/

/-- The delays before the retries of an execution. -/
structure Backoff where
  /-- The delay before the first retry. -/
  first : Duration
  /-- The cap of every delay. -/
  max : Duration
  /-- The growth from one retry to the next. -/
  factor : Binary64
  /-- The spread around the capped delay. -/
  jitter : Jitter
  deriving DecidableEq, Repr

/-- A computed number of seconds is no duration. -/
structure SecondsOutOfRange where
  deriving DecidableEq, Repr

/-- What is reported for a number of seconds that is no duration. -/
def SecondsOutOfRange.text (_ : SecondsOutOfRange) : String :=
  "cannot convert float seconds to Duration: value is either too big or NaN"

namespace Backoff

/-- The same delay before every retry. -/
def constant (interval : Duration) : Backoff := ⟨interval, interval, Binary64.one, .none⟩

/-- Retries follow at once. -/
def immediate : Backoff := constant .zero

instance : Inhabited Backoff := ⟨immediate⟩

/-- The greatest exponent of the growth. -/
def maxExponent : Nat := maxWord 31

/-- The delay before retry `retry` before its jitter: the grown first delay, or the cap when that
is not finite, below zero or above the cap. -/
def base (policy : Backoff) (retry : Nat) : Except SecondsOutOfRange Duration :=
  let grown := policy.first.toBinary64.mul (policy.factor.pow (Nat.min retry maxExponent))
  if !grown.isFinite || grown.lt Binary64.zero || policy.max.toBinary64.lt grown then
    .ok policy.max
  else match Duration.ofBinary64? grown with
    | some delay => .ok delay
    | none => .error {}

/-- The spread of the delay before retry `retry`. -/
def next (policy : Backoff) (retry : Nat) : Except SecondsOutOfRange Spread :=
  match policy.base retry with
  | .error fault => .error fault
  | .ok delay =>
    .ok <| match policy.jitter with
      | .decorrelated =>
        Jitter.decorrelated.applyDecorrelated (policy.first.min policy.max) delay policy.max
      | other => other.apply delay

end Backoff

end Sequencer
