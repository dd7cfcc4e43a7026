/-!
# Bytes and words

Everything on the wire is a list of bytes. A 16-bit word travels high byte first, so a word and
its two bytes determine each other (`wordOf_wordBytes`), and exchanging the bytes of every word
twice gives back what was there (`swapWords_swapWords`).
-/

namespace BusMaster

/-- what travels on the wire -/
abbrev Bytes := List UInt8

/-- the two bytes of a word, high byte first -/
def wordBytes (w : UInt16) : Bytes := [(w >>> 8).toUInt8, w.toUInt8]

/-- the word with the given high and low byte -/
def wordOf (hi lo : UInt8) : UInt16 := hi.toUInt16 <<< 8 ||| lo.toUInt16

/-- the four bytes of a double word, highest byte first -/
def doubleWordBytes (d : UInt32) : Bytes :=
  [(d >>> 24).toUInt8, (d >>> 16).toUInt8, (d >>> 8).toUInt8, d.toUInt8]

/-- the double word with the given high and low word -/
def doubleWordOf (hi lo : UInt16) : UInt32 := hi.toUInt32 <<< 16 ||| lo.toUInt32

/-- exchange the two bytes of every complete word, a last odd byte stays -/
def swapWords : Bytes → Bytes
  | a :: b :: rest => b :: a :: swapWords rest
  | rest => rest

@[simp] theorem swapWords_nil : swapWords [] = [] := rfl

@[simp] theorem swapWords_cons (a b : UInt8) (rest : Bytes) :
    swapWords (a :: b :: rest) = b :: a :: swapWords rest := rfl

theorem length_swapWords (bytes : Bytes) : (swapWords bytes).length = bytes.length := by
  fun_induction swapWords bytes <;> simp_all

theorem swapWords_swapWords (bytes : Bytes) : swapWords (swapWords bytes) = bytes := by
  fun_induction swapWords bytes with
  | case1 a b rest ih => simp [ih]
  | case2 rest h =>
    match rest, h with
    | [], _ => rfl
    | [a], _ => rfl
    | a :: b :: r, h => exact absurd rfl (h a b r)

theorem toNat_wordOf (hi lo : UInt8) : (wordOf hi lo).toNat = 256 * hi.toNat + lo.toNat := by
  have h := hi.toNat_lt
  have l := lo.toNat_lt
  have shift : hi.toNat <<< 8 < 65536 := by rw [Nat.shiftLeft_eq]; omega
  simp only [wordOf, UInt16.toNat_or, UInt16.toNat_shiftLeft, UInt8.toNat_toUInt16,
    UInt16.toNat_ofNat]
  rw [show 8 % 2 ^ 16 % 16 = 8 by decide, Nat.mod_eq_of_lt shift,
    ← Nat.shiftLeft_add_eq_or_of_lt (by omega : lo.toNat < 2 ^ 8), Nat.shiftLeft_eq]
  omega

theorem wordOf_wordBytes (w : UInt16) : wordOf (w >>> 8).toUInt8 w.toUInt8 = w := by
  have h := w.toNat_lt
  apply UInt16.toNat_inj.1
  rw [toNat_wordOf]
  simp only [UInt16.toNat_toUInt8, UInt16.toNat_shiftRight, UInt16.toNat_ofNat]
  rw [show 8 % 2 ^ 16 % 16 = 8 by decide, Nat.shiftRight_eq_div_pow]
  omega

end BusMaster
