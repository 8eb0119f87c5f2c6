import Sequencer.Number.Shortest

/-!
# Number text — positional or scientific

A double is written with its shortest digits. A `Style` says where positional notation ends and
whether a positive exponent carries its sign.
-/

namespace Sequencer.Number

/-- The decisions of one way to write a number. -/
structure Style where
  /-- The least decimal exponent of the first digit that is written positionally. -/
  leastPositional : Int
  /-- The greatest one. -/
  greatestPositional : Int
  /-- Whether a positive exponent is written with a plus sign. -/
  plus : Bool

/-- Values shown to a reader: positional from `0.0001` to below `10 ^ 16`. -/
def shown : Style := ⟨-4, 15, false⟩

/-- Numbers of documents: positional from `0.00001` to below `10 ^ 16`, and a signed exponent. -/
def documented : Style := ⟨-5, 15, true⟩

/-- The digits of a positive decimal with a point, or with an exponent. -/
def Style.decimal (style : Style) (d : Decimal) : String :=
  let digits := Nat.toDigits 10 d.digits
  let count : Int := digits.length
  -- the decimal exponent of the first digit
  let first := d.exponent + count - 1
  if style.leastPositional ≤ first ∧ first ≤ style.greatestPositional then
    if 0 ≤ d.exponent then
      String.ofList (digits ++ List.replicate d.exponent.toNat '0') ++ ".0"
    else if 0 ≤ first then
      let whole := (first + 1).toNat
      String.ofList (digits.take whole ++ '.' :: digits.drop whole)
    else
      "0." ++ String.ofList (List.replicate (-first - 1).toNat '0' ++ digits)
  else
    let mantissa := match digits with
      | [] => []
      | [digit] => [digit]
      | digit :: more => digit :: '.' :: more
    let sign := if first < 0 then "-" else if style.plus then "+" else ""
    String.ofList mantissa ++ "e" ++ sign ++ toString first.natAbs

/-- A double as text. -/
def Style.text (style : Style) : Binary64 → String
  | .nan => "NaN"
  | .infinite negative => if negative then "-inf" else "inf"
  | .finite negative m e =>
    let sign := if negative then "-" else ""
    if m = 0 then sign ++ "0.0" else sign ++ style.decimal (shortest m e)

end Sequencer.Number
