/-!
# Binary fractions

Values with a decimal point are kept in the two interchange formats of 32 and 64 bits. All
arithmetic is exact: a magnitude is a natural number of the format's smallest units, an operation
works out its result as a quotient of natural numbers, and one function, `Format.nearest`, rounds
that quotient, a tie to the even neighbour.

The magnitudes of a format are numbered by their bits: adding one to the bits gives the next
magnitude, across the border of two exponents too, so `nearest` needs no case for a significand
that rounds up to the next power of two.
-/

namespace BusMaster

/-- an interchange format: a sign, an exponent and a fraction -/
structure Format where
  /-- bits of the fraction -/
  fractionBits : Nat
  /-- bits of the exponent -/
  exponentBits : Nat
  deriving DecidableEq, Repr

namespace Format

/-- the format of 64 bits -/
def binary64 : Format := ⟨52, 11⟩

/-- the format of 32 bits -/
def binary32 : Format := ⟨23, 8⟩

/-- how many of the smallest units make one -/
def one (f : Format) : Nat := 1 <<< (1 <<< (f.exponentBits - 1) - 2 + f.fractionBits)

/-- the bits of infinity without the sign, all finite magnitudes lie below -/
def infinity (f : Format) : Nat := (1 <<< f.exponentBits - 1) <<< f.fractionBits

/-- the magnitude with the given bits, in smallest units -/
def magnitude (f : Format) (bits : Nat) : Nat :=
  let fraction := bits % 1 <<< f.fractionBits
  let exponent := bits >>> f.fractionBits
  if exponent = 0 then fraction else (1 <<< f.fractionBits + fraction) <<< (exponent - 1)

/-- a quotient rounded to the nearest whole number, a tie to the even one -/
def roundEven (num den : Nat) : Nat :=
  let q := num / den
  let r := num % den
  if 2 * r < den then q else if den < 2 * r then q + 1 else if q % 2 = 0 then q else q + 1

/-- the bits of the magnitude nearest to `num / den` smallest units, a tie to the even one -/
def nearest (f : Format) (num den : Nat) : Nat :=
  let shift := Nat.log2 (num / den) - f.fractionBits
  min (shift <<< f.fractionBits + roundEven num (den <<< shift)) f.infinity

end Format

/-- a number of the format of 64 bits -/
structure Binary64 where
  bits : UInt64
  deriving DecidableEq, Repr

/-- a number of the format of 32 bits -/
structure Binary32 where
  bits : UInt32
  deriving DecidableEq, Repr

namespace Binary64

/-- the bits without the sign -/
def unsigned (x : Binary64) : Nat := x.bits.toNat % 1 <<< 63

/-- the sign is set -/
def negative (x : Binary64) : Bool := 1 <<< 63 ≤ x.bits.toNat

/-- the number with the given sign and unsigned bits -/
def assemble (negative : Bool) (unsigned : Nat) : Binary64 :=
  ⟨UInt64.ofNat (if negative then 1 <<< 63 + unsigned else unsigned)⟩

/-- not a number -/
def isNaN (x : Binary64) : Bool := Format.binary64.infinity < x.unsigned

/-- larger than every finite magnitude -/
def isInfinite (x : Binary64) : Bool := x.unsigned = Format.binary64.infinity

/-- neither infinite nor not a number -/
def isFinite (x : Binary64) : Bool := x.unsigned < Format.binary64.infinity

/-- the magnitude of a finite number in smallest units -/
def magnitude (x : Binary64) : Nat := Format.binary64.magnitude x.unsigned

/-- not a number -/
def nan : Binary64 := ⟨0x7FF8000000000000⟩

/-- infinity with a sign -/
def infinite (negative : Bool) : Binary64 := assemble negative Format.binary64.infinity

/-- the number nearest to a quotient with a sign -/
def ofQuotient (negative : Bool) (num den : Nat) : Binary64 :=
  assemble negative (Format.binary64.nearest (num * Format.binary64.one) den)

/-- the number nearest to a whole number -/
def ofInt (i : Int) : Binary64 := ofQuotient (i < 0) i.natAbs 1

/-- the product, rounded once -/
def mul (x y : Binary64) : Binary64 :=
  let sign := x.negative != y.negative
  if x.isNaN || y.isNaN then nan
  else if x.isInfinite || y.isInfinite then
    if x.unsigned = 0 || y.unsigned = 0 then nan else infinite sign
  else assemble sign (Format.binary64.nearest (x.magnitude * y.magnitude) Format.binary64.one)

/-- `r` times a power of `x`, by squaring: the binary digits of the exponent, the lowest one first,
say which of the squares are factors, and every product is rounded -/
def timesPower : (digits : Nat) → (r x : Binary64) → (n : Nat) → Binary64
  | 0, r, _, _ => r
  | digits + 1, r, x, n =>
    timesPower digits (if n % 2 = 1 then r.mul x else r) (x.mul x) (n / 2)

/-- a power of ten by squaring; from the thirty-third on most are not the nearest numbers, but a few
units in the last place off -/
def tenTo (n : Nat) : Binary64 := timesPower (n.log2 + 1) (ofInt 1) (ofInt 10) n

/-- the quotient, rounded once -/
def div (x y : Binary64) : Binary64 :=
  let sign := x.negative != y.negative
  if x.isNaN || y.isNaN then nan
  else if x.isInfinite then if y.isInfinite then nan else infinite sign
  else if y.isInfinite then assemble sign 0
  else if y.unsigned = 0 then if x.unsigned = 0 then nan else infinite sign
  else assemble sign (Format.binary64.nearest (x.magnitude * Format.binary64.one) y.magnitude)

/-- equal as numbers: the two zeros are, and nothing is equal to what is not a number -/
def same (x y : Binary64) : Bool :=
  !x.isNaN && !y.isNaN && (x.bits == y.bits || (x.unsigned == 0 && y.unsigned == 0))

/-- a finite number without a fractional part -/
def isWhole (x : Binary64) : Bool := x.isFinite && x.magnitude % Format.binary64.one = 0

/-- a magnitude with the sign of `x` -/
def signed (x : Binary64) (n : Nat) : Int := if x.negative then -(n : Int) else n

/-- the whole part of a finite number -/
def truncate (x : Binary64) : Int := x.signed (x.magnitude / Format.binary64.one)

/-- the nearest whole number to a finite number, a tie away from zero -/
def roundAway (x : Binary64) : Int :=
  x.signed ((2 * x.magnitude + Format.binary64.one) / (2 * Format.binary64.one))

/-- a number brought to a whole number by `whole`, held within 64 bits; zero if it is no number -/
def toInt64 (whole : Binary64 → Int) (x : Binary64) : Int :=
  if x.isNaN then 0
  else if x.isInfinite then if x.negative then Int64.minValue.toInt else Int64.maxValue.toInt
  else max Int64.minValue.toInt (min Int64.maxValue.toInt (whole x))

/-- the nearest number of 32 bits; what is no number keeps its sign and leading bits -/
def narrow (x : Binary64) : Binary32 :=
  let sign : Nat := if x.negative then 1 <<< 31 else 0
  let unsigned : Nat :=
    if x.isNaN then Format.binary32.infinity ||| 1 <<< 22 ||| (x.unsigned % 1 <<< 52) >>> 29
    else if x.isInfinite then Format.binary32.infinity
    else Format.binary32.nearest (x.magnitude * Format.binary32.one) Format.binary64.one
  ⟨UInt32.ofNat (sign + unsigned)⟩

end Binary64

namespace Binary32

/-- the bits without the sign -/
def unsigned (x : Binary32) : Nat := x.bits.toNat % 1 <<< 31

/-- the sign is set -/
def negative (x : Binary32) : Bool := 1 <<< 31 ≤ x.bits.toNat

/-- the same number in 64 bits; what is no number keeps its sign and leading bits -/
def widen (x : Binary32) : Binary64 :=
  let top := Format.binary32.infinity
  if top < x.unsigned then
    Binary64.assemble x.negative
      (Format.binary64.infinity ||| 1 <<< 51 ||| (x.unsigned % 1 <<< 23) <<< 29)
  else if x.unsigned = top then Binary64.infinite x.negative
  else
    Binary64.ofQuotient x.negative (Format.binary32.magnitude x.unsigned) Format.binary32.one

end Binary32

end BusMaster
