import Sequencer.Number.Binary64
import Sequencer.Text.Quoted

/-!
# Durations — whole nanoseconds

A duration is a count of nanoseconds; seconds and the nanoseconds within a second are views of it.
Seconds as a double lose precision above `2 ^ 53` nanoseconds, and the way back rounds to the
nearest nanosecond and refuses what does not fit 64 bits of seconds.
-/

namespace Sequencer

/-- A length of time. -/
structure Duration where
  nanoseconds : Nat
  deriving DecidableEq, Repr, Inhabited

namespace Duration

/-- Nanoseconds of a second. -/
def perSecond : Nat := 1000000000

/-- Nanoseconds of a millisecond. -/
def perMilli : Nat := 1000000

/-- No time at all. -/
def zero : Duration := ⟨0⟩

/-- A number of seconds and nanoseconds. -/
def ofParts (seconds nanos : Nat) : Duration := ⟨seconds * perSecond + nanos⟩

/-- A number of milliseconds. -/
def ofMillis (millis : Nat) : Duration := ⟨millis * perMilli⟩

/-- The whole seconds. -/
def seconds (d : Duration) : Nat := d.nanoseconds / perSecond

/-- The nanoseconds after the last whole second. -/
def subsecond (d : Duration) : Nat := d.nanoseconds % perSecond

/-- The whole milliseconds. -/
def millis (d : Duration) : Nat := d.nanoseconds / perMilli

/-- The whole milliseconds in a 64-bit word. -/
def millisWord (d : Duration) : Nat := d.millis % wordSize 64

/-- The first whole number of milliseconds that is not shorter. -/
def ceilMillis (d : Duration) : Nat := (d.nanoseconds + (perMilli - 1)) / perMilli

/-- The first whole millisecond that is not shorter. -/
def ceiled (d : Duration) : Duration := ofMillis d.ceilMillis

/-- Whether no time passes. -/
def isZero (d : Duration) : Bool := d.nanoseconds = 0

instance : Add Duration := ⟨fun a b => ⟨a.nanoseconds + b.nanoseconds⟩⟩

instance : LE Duration := ⟨fun a b => a.nanoseconds ≤ b.nanoseconds⟩

instance (a b : Duration) : Decidable (a ≤ b) :=
  inferInstanceAs (Decidable (a.nanoseconds ≤ b.nanoseconds))

instance : LT Duration := ⟨fun a b => a.nanoseconds < b.nanoseconds⟩

instance (a b : Duration) : Decidable (a < b) :=
  inferInstanceAs (Decidable (a.nanoseconds < b.nanoseconds))

/-- The longer of two. -/
def max (a b : Duration) : Duration := ⟨Nat.max a.nanoseconds b.nanoseconds⟩

/-- The shorter of two. -/
def min (a b : Duration) : Duration := ⟨Nat.min a.nanoseconds b.nanoseconds⟩

theorem max_eq_right {a b : Duration} (h : a < b) : a.max b = b :=
  congrArg mk (Nat.max_eq_right (Nat.le_of_lt h))

theorem max_eq_left {a b : Duration} (h : ¬ a < b) : a.max b = a :=
  congrArg mk (Nat.max_eq_left (Nat.le_of_not_lt h))

/-! ## Seconds as a double -/

/-- The seconds as a double: the whole seconds and the rest are rounded on their own, then added. -/
def toBinary64 (d : Duration) : Binary64 :=
  (Binary64.ofNat d.seconds).add ((Binary64.ofNat d.subsecond).div (Binary64.ofNat perSecond))

/-- A number of seconds as a duration, to the nearest nanosecond and on a tie to the even one.
A number below zero, from `2 ^ 64` on, infinite or not a number has none. -/
def ofBinary64? : Binary64 → Option Duration
  | .finite negative m e =>
    let (num, den) := Binary64.scaled m e
    if negative && m != 0 then none
    else if wordSize 64 * den ≤ num then none
    else some ⟨Binary64.roundHalfEven (num * perSecond) den⟩
  | _ => none

/-! ## Text -/

/-- `n` with at least `width` decimal digits. -/
def padded (width n : Nat) : List Char :=
  let digits := Nat.toDigits 10 n
  List.replicate (width - digits.length) '0' ++ digits

/-- `whole` and the decimal fraction `part / 10 ^ width`, without zeros at its end. -/
def fractional (whole part width : Nat) : String :=
  let digits := ((padded width part).reverse.dropWhile (· == '0')).reverse
  if digits.isEmpty then toString whole
  else toString whole ++ "." ++ String.ofList digits

/-- The largest unit that is not below one, with the shortest exact fraction. -/
def text (d : Duration) : String :=
  if 0 < d.seconds then fractional d.seconds d.subsecond 9 ++ "s"
  else if perMilli ≤ d.nanoseconds then
    fractional (d.nanoseconds / perMilli) (d.nanoseconds % perMilli) 6 ++ "ms"
  else if 1000 ≤ d.nanoseconds then
    fractional (d.nanoseconds / 1000) (d.nanoseconds % 1000) 3 ++ "µs"
  else toString d.nanoseconds ++ "ns"

end Duration

end Sequencer
