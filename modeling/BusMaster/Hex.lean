import BusMaster.Fault

/-!
# Hex text

The text framing writes a byte as two hex digits. Writing uses upper case; reading takes either
case, refuses an odd number of characters before it looks at any of them, and then names the first
character that is no digit.
-/

namespace BusMaster.Hex

/-- the upper-case character of a value below sixteen -/
def digit (n : UInt8) : UInt8 := if n < 10 then 0x30 + n else 0x37 + n

/-- the value of a hex character of either case -/
def value (c : UInt8) : Except FrameFault UInt8 :=
  if 0x30 ≤ c ∧ c ≤ 0x39 then .ok (c - 0x30)
  else if 0x41 ≤ c ∧ c ≤ 0x46 then .ok (c - 0x37)
  else if 0x61 ≤ c ∧ c ≤ 0x66 then .ok (c - 0x57)
  else .error (.badHexCharacter c)

/-- two characters for every byte, the high half first -/
def encode : Bytes → Bytes
  | [] => []
  | b :: rest => digit (b >>> 4) :: digit (b &&& 0x0F) :: encode rest

/-- the bytes of a text with an even number of characters -/
def decodePairs : Bytes → Except FrameFault Bytes
  | high :: low :: rest => do
    let h ← value high
    let l ← value low
    let tail ← decodePairs rest
    return (h <<< 4 ||| l) :: tail
  | _ => .ok []

/-- the bytes a hex text stands for -/
def decode (text : Bytes) : Except FrameFault Bytes :=
  if text.length % 2 = 1 then .error .oddHexLength else decodePairs text

end BusMaster.Hex
