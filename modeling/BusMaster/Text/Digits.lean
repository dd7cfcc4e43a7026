import BusMaster.Bytes

/-!
# Digits

Numbers are shown in decimal, or in upper-case hexadecimal with a fixed number of digits. Bytes
are shown either as a list in brackets, `[0A, FF]`, or in lines of sixteen.
-/

namespace BusMaster

/-- the upper-case hexadecimal digit of a value below sixteen -/
def hexDigit (n : Nat) : Char :=
  if n < 10 then Char.ofNat (48 + n) else Char.ofNat (55 + n)

/-- the last `width` hexadecimal digits of a number -/
def hexDigits : Nat → Nat → List Char
  | 0, _ => []
  | width + 1, n => hexDigits width (n / 16) ++ [hexDigit (n % 16)]

/-- a byte as two digits -/
def hexByte (b : UInt8) : String := String.ofList (hexDigits 2 b.toNat)

/-- a byte with its marker, `0x0A` -/
def markedByte (b : UInt8) : String := "0x" ++ hexByte b

/-- a word with its marker, `0x00FF` -/
def markedWord (w : UInt16) : String := "0x" ++ String.ofList (hexDigits 4 w.toNat)

/-- a double word with its marker, `0x000000FF` -/
def markedDoubleWord (d : UInt32) : String := "0x" ++ String.ofList (hexDigits 8 d.toNat)

/-- bytes as a bracketed list, `[0A, FF]` -/
def bracketed (bytes : Bytes) : String :=
  "[" ++ ", ".intercalate (bytes.map hexByte) ++ "]"

/-- bytes in lines of sixteen, each line opened by a line break -/
def dump (bytes : Bytes) : String :=
  if _h : bytes = [] then ""
  else "\n" ++ " ".intercalate ((bytes.take 16).map hexByte) ++ dump (bytes.drop 16)
termination_by bytes.length
decreasing_by
  have : 0 < bytes.length := List.length_pos_iff.2 _h
  simp only [List.length_drop]
  omega

end BusMaster
