import BusMaster.Number.Binary

/-!
# Reading numbers

Whole numbers are digits behind an optional sign. Decimals have digits before the point, after it,
or both, and an optional exponent; the words for infinity and for what is no number are read in
any case. The value read is the nearest binary fraction.
-/

namespace BusMaster

/-- the value of a decimal digit -/
def digitValue (c : Char) : Option Nat :=
  if '0' ≤ c ∧ c ≤ '9' then some (c.toNat - '0'.toNat) else none

/-- the value of digits, most significant first, on top of those already read -/
def readDigitsFrom : Nat → List Char → Option Nat
  | acc, [] => some acc
  | acc, c :: rest => do readDigitsFrom (10 * acc + (← digitValue c)) rest

/-- the value of one or more digits -/
def readNat (text : List Char) : Option Nat :=
  if text.isEmpty then none else readDigitsFrom 0 text

/-- an optional sign and what follows it -/
def splitSign : List Char → Bool × List Char
  | '-' :: rest => (true, rest)
  | '+' :: rest => (false, rest)
  | text => (false, text)

/-- a whole number with an optional sign, within bounds -/
def readInt (min max : Int) (text : String) : Option Int := do
  let (negative, digits) := splitSign text.toList
  let n ← readNat digits
  let i : Int := if negative then -n else n
  if min ≤ i ∧ i ≤ max then some i else none

/-- a whole number of at most `max`, a plus sign allowed -/
def readUpTo (max : Nat) (text : String) : Option Nat := do
  let digits := match text.toList with
    | '+' :: rest => rest
    | other => other
  let n ← readNat digits
  if n ≤ max then some n else none

/-- the leading digits and what follows them -/
def spanDigits (text : List Char) : List Char × List Char :=
  text.span fun c => (digitValue c).isSome

/-- the size of an exponent, most significant digit first, on top of what is already read; once it
is far out of range the digits behind add nothing -/
def readExponentFrom : Nat → List Char → Option Nat
  | acc, [] => some acc
  | acc, c :: rest => do
    let digit ← digitValue c
    readExponentFrom (if acc < 0x10000 then 10 * acc + digit else acc) rest

/-- the exponent behind its letter; nothing there means zero -/
def readExponent : List Char → Option Int
  | [] => some 0
  | c :: rest =>
    if c = 'e' ∨ c = 'E' then do
      let (negative, digits) := splitSign rest
      guard !digits.isEmpty
      let n ← readExponentFrom 0 digits
      some (if negative then -n else n)
    else none

/-- the binary fraction nearest to `digits` times ten to the power `exponent`; far outside the
range of the format the power itself is not worked out -/
def nearestDecimal (negative : Bool) (digits : Nat) (digitCount : Nat) (exponent : Int) :
    Binary64 :=
  if digits = 0 then Binary64.assemble negative 0
  else if 400 < exponent + digitCount then Binary64.infinite negative
  else if exponent + digitCount < -400 then Binary64.assemble negative 0
  else if 0 ≤ exponent then Binary64.ofQuotient negative (digits * Nat.pow 10 exponent.natAbs) 1
  else Binary64.ofQuotient negative digits (Nat.pow 10 exponent.natAbs)

/-- the decimal behind the sign -/
def readMagnitude (negative : Bool) (text : List Char) : Option Binary64 := do
  let (whole, rest) := spanDigits text
  let (fraction, rest) := match rest with
    | '.' :: rest => spanDigits rest
    | rest => ([], rest)
  let digits := (whole ++ fraction).dropWhile (· = '0')
  guard (!(whole.isEmpty && fraction.isEmpty))
  let exponent ← readExponent rest
  let n ← readDigitsFrom 0 digits
  some (nearestDecimal negative n digits.length (exponent - fraction.length))

/-- the binary fraction a text stands for -/
def readDecimal (text : String) : Option Binary64 :=
  let (negative, body) := splitSign text.toList
  let word := String.ofList (body.map Char.toLower)
  if word = "inf" ∨ word = "infinity" then some (Binary64.infinite negative)
  else if word = "nan" then some (Binary64.assemble negative Binary64.nan.unsigned)
  else readMagnitude negative body

end BusMaster
