import Sequencer.Number.Binary64

/-!
# Shortest decimals — the fewest digits that read back

Every real number between the midpoints to the two neighbours of a double rounds to that double;
the midpoints themselves do when the significand is even. `shortest` finds the fewest significant
digits with a point in that interval, and of the points with so many digits the nearest one. On
the grid of `k` digits only the two points around the value can be in the interval first, so only
these are tried.
-/

namespace Sequencer.Number

open Binary64 (scaled)

/-- A positive decimal `digits * 10 ^ exponent`. -/
structure Decimal where
  digits : Nat
  exponent : Int
  deriving DecidableEq, Repr

/-- `n * 10 ^ e` as a fraction. -/
def scaledByTen (n : Nat) (e : Int) : Nat × Nat :=
  if 0 ≤ e then (n * Nat.pow 10 e.toNat, 1) else (n, Nat.pow 10 (-e).toNat)

/-- The interval of the reals that round to `m * 2 ^ e`, in quarters of the unit `2 ^ e`: its two
ends and whether they belong to it. Below a power of two the neighbours are half as far. -/
structure Interval where
  low : Nat
  high : Nat
  closed : Bool

/-- The interval around `m * 2 ^ e`. -/
def interval (m : Nat) (e : Int) : Interval where
  low := if m = wordSize 52 ∧ Binary64.minExponent < e then 4 * m - 1 else 4 * m - 2
  high := 4 * m + 2
  closed := m % 2 = 0

/-- Whether the fraction `n / d`, in quarters of the unit, is in the interval. -/
def Interval.holds (i : Interval) (n d : Nat) : Bool :=
  if i.closed then i.low * d ≤ n && n ≤ i.high * d
  else i.low * d < n && n < i.high * d

/-- The greatest `p` with `10 ^ p ≤ n / d`, found from an estimate by at most one step down. -/
def floorLog10 (n d : Nat) : Int :=
  let fits (p : Int) : Bool :=
    let (a, b) := scaledByTen 1 p
    a * d ≤ n * b
  let guess := Binary64.floorLog2 n d * 30103 / 100000
  if fits (guess + 1) then guess + 1 else if fits guess then guess else guess - 1

/-- The nearest point of the grid `10 ^ p` that rounds to `m * 2 ^ e`, when one of the two around
the value does. A tie goes to the even digit. -/
def onGrid (m : Nat) (e p : Int) (i : Interval) : Option Decimal :=
  let (num, den) := scaled m e
  let (a, b) := scaledByTen 1 p
  -- the value in units of the grid is `num * b / (den * a)`
  let below := num * b / (den * a)
  let rest := num * b % (den * a)
  -- a point `c` of the grid, in quarters of `2 ^ e`, is `4 * c * a / (b * 2 ^ e)`
  let (unitNum, unitDen) := scaled 1 e
  let rounds (c : Nat) : Bool := i.holds (4 * c * a * unitDen) (b * unitNum)
  let up := below + 1
  match rounds below && below != 0, rounds up with
  | true, true =>
    if 2 * rest < den * a then some ⟨below, p⟩
    else if den * a < 2 * rest then some ⟨up, p⟩
    else if below % 2 = 0 then some ⟨below, p⟩ else some ⟨up, p⟩
  | true, false => some ⟨below, p⟩
  | false, true => some ⟨up, p⟩
  | false, false => none

/-- The first grid with a hit, from `10 ^ p` down, at most `fuel` grids. -/
def firstGrid (m : Nat) (e : Int) (i : Interval) : (fuel : Nat) → (p : Int) → Option Decimal
  | 0, _ => none
  | fuel + 1, p =>
    match onGrid m e p i with
    | some found => some found
    | none => firstGrid m e i fuel (p - 1)

/-- The digits without the zeros at their end. -/
def Decimal.trim (d : Decimal) : Decimal :=
  if h : d.digits ≠ 0 ∧ d.digits % 10 = 0 then Decimal.trim ⟨d.digits / 10, d.exponent + 1⟩ else d
termination_by d.digits
decreasing_by omega

/-- The shortest decimal that rounds to the positive number `m * 2 ^ e`, and of the shortest ones
the nearest. Seventeen digits are always enough. -/
def shortest (m : Nat) (e : Int) : Decimal :=
  let (num, den) := scaled m e
  let top := floorLog10 num den
  ((firstGrid m e (interval m e) 18 (top + 1)).getD ⟨num, 0⟩).trim

end Sequencer.Number
