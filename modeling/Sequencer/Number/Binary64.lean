import Sequencer.Number.Word

/-!
# Binary64 — double precision numbers with exact arithmetic

A number is its sign, significand and binary exponent. Every operation computes the exact result
as a fraction of natural numbers and rounds it once, to the nearest number and on a tie to the one
with an even significand, so all of it can be evaluated and reasoned about inside the logic.
-/

namespace Sequencer

/-- A double precision number. `finite negative m e` stands for `m * 2 ^ e` with the sign; the
operations below only build significands under `2 ^ 53` and exponents from `-1074` to `971`, with
the top bit of the significand set unless the exponent is the least one. -/
inductive Binary64 where
  | nan
  | infinite (negative : Bool)
  | finite (negative : Bool) (significand : Nat) (exponent : Int)
  deriving DecidableEq, Repr

namespace Binary64

/-! ## 1. Rounding -/

/-- The least exponent, that of the subnormal numbers. -/
def minExponent : Int := -1074

/-- The greatest exponent of a finite number. -/
def maxExponent : Int := 971

/-- The number of bits of a significand. -/
def precision : Nat := 53

/-- `n * 2 ^ e` as a fraction. -/
def scaled (n : Nat) (e : Int) : Nat × Nat :=
  if 0 ≤ e then (n * Nat.pow 2 e.toNat, 1) else (n, Nat.pow 2 (-e).toNat)

/-- The integer nearest to `n / d`; a tie goes to the even one. -/
def roundHalfEven (n d : Nat) : Nat :=
  let q := n / d
  let r := n % d
  if 2 * r < d then q
  else if d < 2 * r then q + 1
  else if q % 2 = 0 then q else q + 1

/-- The greatest `k` with `2 ^ k ≤ n / d`, for positive `n` and `d`. -/
def floorLog2 (n d : Nat) : Int :=
  let k : Int := (Nat.log2 n : Int) - (Nat.log2 d : Int)
  let below := if 0 ≤ k then decide (d * Nat.pow 2 k.toNat ≤ n)
    else decide (d ≤ n * Nat.pow 2 (-k).toNat)
  if below then k else k - 1

/-- The number nearest to `n / d` with the given sign. -/
def ofFraction (negative : Bool) (n d : Nat) : Binary64 :=
  if n = 0 then finite negative 0 minExponent
  else
    let e := max minExponent (floorLog2 n d - 52)
    let m := if 0 ≤ e then roundHalfEven n (d * Nat.pow 2 e.toNat)
      else roundHalfEven (n * Nat.pow 2 (-e).toNat) d
    let (m, e) := if m = wordSize precision then (wordSize (precision - 1), e + 1) else (m, e)
    if maxExponent < e then infinite negative else finite negative m e

/-! ## 2. Values -/

/-- Positive zero. -/
def zero : Binary64 := finite false 0 minExponent

/-- The number nearest to a natural number. -/
def ofNat (n : Nat) : Binary64 := ofFraction false n 1

/-- The number nearest to an integer. -/
def ofInt (n : Int) : Binary64 := ofFraction (decide (n < 0)) n.natAbs 1

/-- One. -/
def one : Binary64 := ofNat 1

/-- Neither infinite nor `nan`. -/
def isFinite : Binary64 → Bool
  | finite .. => true
  | _ => false

/-- The sign changed; `nan` has none. -/
def neg : Binary64 → Binary64
  | nan => nan
  | infinite s => infinite (!s)
  | finite s m e => finite (!s) m e

/-! ## 3. Arithmetic -/

/-- The product, rounded once. -/
def mul : Binary64 → Binary64 → Binary64
  | nan, _ => nan
  | _, nan => nan
  | infinite s, infinite t => infinite (s != t)
  | infinite s, finite t m _ => if m = 0 then nan else infinite (s != t)
  | finite s m _, infinite t => if m = 0 then nan else infinite (s != t)
  | finite s m e, finite t n f =>
    let (num, den) := scaled (m * n) (e + f)
    ofFraction (s != t) num den

/-- The quotient, rounded once. -/
def div : Binary64 → Binary64 → Binary64
  | nan, _ => nan
  | _, nan => nan
  | infinite _, infinite _ => nan
  | infinite s, finite t _ _ => infinite (s != t)
  | finite s _ _, infinite t => finite (s != t) 0 minExponent
  | finite s m e, finite t n f =>
    if n = 0 then (if m = 0 then nan else infinite (s != t))
    else
      let (num, den) := scaled m (e - f)
      ofFraction (s != t) num (den * n)

/-- The finite value times `2 ^ 1074`, an integer. -/
def units (negative : Bool) (m : Nat) (e : Int) : Int :=
  let n : Nat := m * Nat.pow 2 (e - minExponent).toNat
  if negative then -n else n

/-- The sum, rounded once. Opposite numbers add up to positive zero. -/
def add : Binary64 → Binary64 → Binary64
  | nan, _ => nan
  | _, nan => nan
  | infinite s, infinite t => if s = t then infinite s else nan
  | infinite s, finite .. => infinite s
  | finite .., infinite t => infinite t
  | finite s m e, finite t n f =>
    let sum := units s m e + units t n f
    if sum = 0 then finite (s && t) 0 minExponent
    else ofFraction (decide (sum < 0)) sum.natAbs (Nat.pow 2 1074)

/-- Strictly less; never with `nan`, and the two zeros are equal. -/
def lt : Binary64 → Binary64 → Bool
  | nan, _ => false
  | _, nan => false
  | infinite s, infinite t => s && !t
  | infinite s, finite .. => s
  | finite .., infinite t => !t
  | finite s m e, finite t n f => units s m e < units t n f

/-- Equal as numbers: `nan` differs from itself, and the two zeros are equal. -/
def same : Binary64 → Binary64 → Bool
  | finite s m e, finite t n f => units s m e = units t n f
  | infinite s, infinite t => s = t
  | _, _ => false

/-- Less or equal. -/
def le (x y : Binary64) : Bool := lt x y || same x y

/-- Repeated squaring: `acc` times `base ^ k`, from the lowest bit of `k` up. -/
def powFrom (acc base : Binary64) (k : Nat) : Binary64 :=
  let acc := if k % 2 = 1 then mul acc base else acc
  if h : k / 2 = 0 then acc
  else powFrom acc (mul base base) (k / 2)
termination_by k
decreasing_by omega

/-- The `k`-th power by repeated squaring. -/
def pow (x : Binary64) (k : Nat) : Binary64 := powFrom one x k

end Binary64

end Sequencer
