import BusMaster.Text.Shown

/-!
# Quoted characters

A character is quoted between two `'`. The quote itself, the backslash, NUL, tab and the line ends
have short escapes; any other character that does not stand for itself is written as its code point
in braces.
-/

namespace BusMaster

/-- the lower-case hexadecimal digits of a number, without leading zeros -/
def codePointDigits (n : Nat) : String := String.ofList (Nat.toDigits 16 n)

/-- the text of a character between the quotes -/
def escaped (c : Char) : String :=
  if c = '\x27' then "\\'"
  else if c = '\x5c' then "\\\\"
  else if c = '\x00' then "\\0"
  else if c = '\t' then "\\t"
  else if c = '\n' then "\\n"
  else if c = '\r' then "\\r"
  else if isShown c then c.toString
  else "\\u\x7b" ++ codePointDigits c.toNat ++ "\x7d"

/-- a character in quotes -/
def quoted (c : Char) : String := "'" ++ escaped c ++ "'"

end BusMaster
