import BusMaster.Number.Binary

/-!
# The shortest decimal that reads back

A binary fraction is shown with as few digits as read back to it. Reading back means lying within
half a step of it on either side, the ends included when its bits are even. For one digit, two
digits and so on the two points of that decimal grid around the number are tested in exact
arithmetic. The first grid with a hit wins; of two hits the nearer, and of two as near the larger.

The digits are written out in full: no exponent, and no point after a whole number.
-/

namespace BusMaster

/-- a decimal: `digits` times ten to the power `exponent` -/
structure Decimal where
  digits : Nat
  exponent : Int
  deriving DecidableEq, Repr

namespace Decimal

/-- number of decimal digits, none for zero -/
def digitCount (n : Nat) : Nat := if n = 0 then 0 else (Nat.toDigits 10 n).length

/-- the exponent of the first digit of `num / den` -/
def leadingExponent (num den : Nat) : Int :=
  if den ≤ num then digitCount (num / den) - 1 else -(digitCount ((den - 1) / num) : Int)

/-- drop the zeros that end the digits after the point -/
def trim : Nat → Decimal → Decimal
  | 0, d => d
  | fuel + 1, d =>
    if d.exponent < 0 ∧ d.digits % 10 = 0 then trim fuel ⟨d.digits / 10, d.exponent + 1⟩ else d

/-- the nearer of the grid points around `num` that lie between `low` and `high`, the grid being
the multiples of `den` -/
def gridHit (inclusive : Bool) (low num high den : Nat) : Option Nat :=
  let q := num / den
  let below := if inclusive then low ≤ q * den else low < q * den
  let above := if inclusive then (q + 1) * den ≤ high else (q + 1) * den < high
  if below ∧ (¬above ∨ 2 * (num - q * den) < den) then some q
  else if above then some (q + 1)
  else none

/-- search the grids of `n` digits and more -/
def search (inclusive : Bool) (low num high den : Nat) (lead : Int) : Nat → Nat → Decimal
  | 0, _ => ⟨0, 0⟩
  | fuel + 1, n =>
    let g : Int := lead - n + 1
    let up : Nat := if g < 0 then Nat.pow 10 g.natAbs else 1
    let down : Nat := if g < 0 then den else den * Nat.pow 10 g.natAbs
    match gridHit inclusive (low * up) (num * up) (high * up) down with
    | some q => trim (n + 1) ⟨q, g⟩
    | none => search inclusive low num high den lead fuel (n + 1)

/-- the shortest decimal that reads back to the magnitude with the given bits, which are not zero;
seventeen digits always do -/
def shortest (bits : Nat) : Decimal :=
  let f := Format.binary64
  let value := f.magnitude bits
  let low := f.magnitude (bits - 1) + value
  let high := value + f.magnitude (bits + 1)
  let den := 2 * f.one
  search (bits % 2 = 0) low (2 * value) high den (leadingExponent (2 * value) den) 17 1

/-- the digits written out in full -/
def toText (d : Decimal) : String :=
  let digits := Nat.toDigits 10 d.digits
  if 0 ≤ d.exponent then String.ofList (digits ++ List.replicate d.exponent.natAbs '0')
  else
    let places := d.exponent.natAbs
    let padded := List.replicate (places + 1 - digits.length) '0' ++ digits
    let whole := padded.length - places
    String.ofList (padded.take whole ++ '.' :: padded.drop whole)

end Decimal

/-- a binary fraction as text -/
def Binary64.toText (x : Binary64) : String :=
  if x.isNaN then "NaN"
  else
    let sign := if x.negative then "-" else ""
    if x.isInfinite then sign ++ "inf"
    else if x.unsigned = 0 then sign ++ "0"
    else sign ++ (Decimal.shortest x.unsigned).toText

end BusMaster
