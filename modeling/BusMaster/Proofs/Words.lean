import Mathlib.Data.List.Basic
import BusMaster.Plant.Channel
import BusMaster.Proofs.Bits.Packing

/-!
# Words on the wire

Registers travel as words, high byte first (`wordsBytes`), and a device takes the bytes it is sent
for words again (`wordsOf`); the two undo each other, and so do a double word and its four bytes.
What a channel cuts out of register bytes is said of the words: whole registers
(`slice_wordsBytes`), one byte of a register (`slice_bytePosition`), or bits (`bit_ofRegisters`).
-/

namespace BusMaster

/-- the bytes of words, each high byte first -/
def wordsBytes (ws : List UInt16) : Bytes := ws.flatMap wordBytes

/-- the words in bytes, a last odd byte left out -/
def wordsOf : Bytes → List UInt16
  | [] => []
  | [_] => []
  | hi :: lo :: rest => wordOf hi lo :: wordsOf rest

@[simp] theorem wordsBytes_nil : wordsBytes [] = [] := rfl

@[simp] theorem wordsBytes_cons (w : UInt16) (ws : List UInt16) :
    wordsBytes (w :: ws) = (w >>> 8).toUInt8 :: w.toUInt8 :: wordsBytes ws := rfl

@[simp] theorem wordsOf_cons (hi lo : UInt8) (rest : Bytes) :
    wordsOf (hi :: lo :: rest) = wordOf hi lo :: wordsOf rest := rfl

@[simp] theorem length_wordsBytes (ws : List UInt16) :
    (wordsBytes ws).length = 2 * ws.length := by
  induction ws with
  | nil => rfl
  | cons w ws ih =>
    rw [wordsBytes_cons, List.length_cons, List.length_cons, ih, List.length_cons]
    omega

@[simp] theorem wordsOf_wordsBytes (ws : List UInt16) : wordsOf (wordsBytes ws) = ws := by
  induction ws with
  | nil => rfl
  | cons w ws ih => rw [wordsBytes_cons, wordsOf_cons, ih, wordOf_wordBytes]

theorem wordsBytes_inj {us vs : List UInt16} : wordsBytes us = wordsBytes vs ↔ us = vs :=
  ⟨fun h => by rw [← wordsOf_wordsBytes us, h, wordsOf_wordsBytes], congrArg wordsBytes⟩

/-- The bytes of a word are those it was made of. -/
theorem wordBytes_wordOf (hi lo : UInt8) : wordBytes (wordOf hi lo) = [hi, lo] := by
  have h := hi.toNat_lt
  have l := lo.toNat_lt
  have first : ((wordOf hi lo) >>> 8).toUInt8 = hi := by
    apply UInt8.toNat_inj.1
    simp only [UInt16.toNat_toUInt8, UInt16.toNat_shiftRight, UInt16.toNat_ofNat, toNat_wordOf]
    rw [show 8 % 2 ^ 16 % 16 = 8 by decide, Nat.shiftRight_eq_div_pow]
    omega
  have second : (wordOf hi lo).toUInt8 = lo := by
    apply UInt8.toNat_inj.1
    rw [UInt16.toNat_toUInt8, toNat_wordOf]
    omega
  rw [wordBytes, first, second]

theorem toNat_doubleWordOf (hi lo : UInt16) :
    (doubleWordOf hi lo).toNat = 65536 * hi.toNat + lo.toNat := by
  have h := hi.toNat_lt
  have l := lo.toNat_lt
  have shift : hi.toNat <<< 16 < 4294967296 := by rw [Nat.shiftLeft_eq]; omega
  simp only [doubleWordOf, UInt32.toNat_or, UInt32.toNat_shiftLeft, UInt16.toNat_toUInt32,
    UInt32.toNat_ofNat]
  rw [show 16 % 2 ^ 32 % 32 = 16 by decide, Nat.mod_eq_of_lt shift,
    ← Nat.shiftLeft_add_eq_or_of_lt (by omega : lo.toNat < 2 ^ 16), Nat.shiftLeft_eq]
  omega

theorem doubleWordBytes_doubleWordOf (hi lo : UInt16) :
    doubleWordBytes (doubleWordOf hi lo) = wordBytes hi ++ wordBytes lo := by
  have h := hi.toNat_lt
  have l := lo.toNat_lt
  simp only [doubleWordBytes, wordBytes, List.cons_append, List.nil_append, List.cons.injEq,
    and_true, ← UInt8.toNat_inj, UInt32.toNat_toUInt8, UInt16.toNat_toUInt8,
    UInt32.toNat_shiftRight, UInt16.toNat_shiftRight, toNat_doubleWordOf, UInt32.toNat_ofNat,
    UInt16.toNat_ofNat, Nat.shiftRight_eq_div_pow, Nat.reduceMod, Nat.reducePow]
  omega

theorem doubleWordOf_doubleWordBytes (d : UInt32) :
    doubleWordOf (wordOf (d >>> 24).toUInt8 (d >>> 16).toUInt8)
      (wordOf (d >>> 8).toUInt8 d.toUInt8) = d := by
  have hd := d.toNat_lt
  simp only [← UInt32.toNat_inj, toNat_doubleWordOf, toNat_wordOf, UInt32.toNat_toUInt8,
    UInt32.toNat_shiftRight, UInt32.toNat_ofNat, Nat.shiftRight_eq_div_pow, Nat.reduceMod,
    Nat.reducePow]
  omega

/-- Bytes of whole words are the bytes of their words. -/
theorem wordsBytes_wordsOf {bytes : Bytes} (even : bytes.length % 2 = 0) :
    wordsBytes (wordsOf bytes) = bytes := by
  fun_induction wordsOf bytes with
  | case1 => rfl
  | case2 => cases even
  | case3 hi lo rest ih =>
    have hrest : rest.length % 2 = 0 := by
      rw [List.length_cons, List.length_cons] at even
      omega
    have hword : wordBytes (wordOf hi lo) = [hi, lo] := wordBytes_wordOf hi lo
    rw [wordsBytes, List.flatMap_cons, hword]
    exact congrArg (hi :: lo :: ·) (ih hrest)

theorem length_wordsOf (bytes : Bytes) : (wordsOf bytes).length = bytes.length / 2 := by
  fun_induction wordsOf bytes with
  | case1 => rfl
  | case2 => simp
  | case3 hi lo rest ih =>
    rw [List.length_cons, ih, List.length_cons, List.length_cons]
    omega

theorem drop_wordsBytes (ws : List UInt16) (n : Nat) :
    (wordsBytes ws).drop (2 * n) = wordsBytes (ws.drop n) := by
  induction n generalizing ws with
  | zero => rfl
  | succ n ih =>
    cases ws with
    | nil => simp
    | cons w ws =>
      rw [show 2 * (n + 1) = 2 * n + 1 + 1 by omega, wordsBytes_cons, List.drop_succ_cons,
        List.drop_succ_cons, List.drop_succ_cons]
      exact ih ws

theorem take_wordsBytes (ws : List UInt16) (n : Nat) :
    (wordsBytes ws).take (2 * n) = wordsBytes (ws.take n) := by
  induction n generalizing ws with
  | zero => rfl
  | succ n ih =>
    cases ws with
    | nil => simp
    | cons w ws =>
      rw [show 2 * (n + 1) = 2 * n + 1 + 1 by omega, wordsBytes_cons, List.take_succ_cons,
        List.take_succ_cons, List.take_succ_cons, wordsBytes_cons, ih ws]

/-- A list is found from `first` on in another that has its elements there. -/
theorem take_drop_eq_iff {us ws : List UInt16} {first : Nat} :
    (us.drop first).take ws.length = ws ↔ ∀ k < ws.length, us[first + k]? = ws[k]? := by
  constructor
  · intro h k hk
    conv_rhs => rw [← h]
    rw [List.getElem?_take_of_lt hk, List.getElem?_drop]
  · intro h
    refine List.ext_getElem? fun k => ?_
    by_cases hk : k < ws.length
    · rw [List.getElem?_take_of_lt hk, List.getElem?_drop, h k hk]
    · rw [List.getElem?_eq_none (Nat.le_of_not_lt hk),
        List.getElem?_eq_none ((List.length_take_le ..).trans (Nat.le_of_not_lt hk))]

/-- Registers cut out of bytes are those cut out of words. -/
theorem slice_wordsBytes (ws : List UInt16) (first count : Nat) :
    Channel.slice (wordsBytes ws) (2 * first) (2 * count)
      = wordsBytes ((ws.drop first).take count) := by
  rw [Channel.slice, drop_wordsBytes, take_wordsBytes]

/-- The byte of a channel in register bytes: the low byte of its register at an even index, the
high byte at an odd one. -/
theorem slice_bytePosition {ws : List UInt16} {w : UInt16} {i : Nat} (h : ws[i / 16]? = some w) :
    Channel.slice (wordsBytes ws) (bytePosition i) 1
      = [if i % 16 = 0 then w.toUInt8 else (w >>> 8).toUInt8] := by
  have hdrop : ws.drop (i / 16) = w :: ws.drop (i / 16 + 1) := by
    obtain ⟨hlt, hw⟩ := List.getElem?_eq_some_iff.1 h
    rw [← hw]
    exact List.drop_eq_getElem_cons hlt
  rw [bytePosition, Channel.slice]
  by_cases hi : i % 16 = 0
  · rw [if_pos hi, if_pos hi, ← List.drop_drop, drop_wordsBytes, hdrop]
    rfl
  · rw [if_neg hi, if_neg hi, drop_wordsBytes, hdrop]
    rfl

/-- With the bytes of every word exchanged, the low byte comes first. -/
theorem getD_swapWords_wordsBytes (ws : List UInt16) (k : Nat) :
    (swapWords (wordsBytes ws)).getD k 0
      = if k % 2 = 0 then (ws.getD (k / 2) 0).toUInt8
        else (ws.getD (k / 2) 0 >>> 8).toUInt8 := by
  induction ws generalizing k with
  | nil => simp
  | cons w ws ih =>
    rw [wordsBytes_cons, swapWords_cons]
    match k with
    | 0 => rfl
    | 1 => rfl
    | k + 2 =>
      rw [List.getD_cons_succ, List.getD_cons_succ, ih k, Nat.add_mod_right,
        Nat.add_div_right k (by decide), List.getD_cons_succ]

/-- the place of the other byte of a word -/
def otherHalf (k : Nat) : Nat := if k % 2 = 0 then k + 1 else k - 1

theorem otherHalf_otherHalf (k : Nat) : otherHalf (otherHalf k) = k := by
  unfold otherHalf
  split_ifs <;> omega

theorem otherHalf_div_two (k : Nat) : otherHalf k / 2 = k / 2 := by
  unfold otherHalf
  split_ifs <;> omega

theorem otherHalf_add_two (k : Nat) : otherHalf (k + 2) = otherHalf k + 2 := by
  unfold otherHalf
  split_ifs <;> omega

/-- With the bytes of every word exchanged, each stands where the other one was. -/
theorem getD_swapWords {bytes : Bytes} {k : Nat} (whole : 2 * (k / 2) + 1 < bytes.length) :
    (swapWords bytes).getD k 0 = bytes.getD (otherHalf k) 0 := by
  fun_induction swapWords bytes generalizing k with
  | case1 a b rest ih =>
    rw [List.length_cons, List.length_cons] at whole
    rcases k with _ | _ | k
    · rfl
    · rfl
    · rw [otherHalf_add_two]
      exact ih (by omega)
  | case2 bytes short =>
    rcases bytes with _ | ⟨a, _ | ⟨b, rest⟩⟩
    · exact absurd whole (Nat.not_lt_zero _)
    · rw [List.length_singleton] at whole
      omega
    · exact absurd rfl (short a b rest)

/-- A property of all bytes, checked value by value. -/
theorem forall_byte {P : UInt8 → Prop} (all : ∀ n < 256, P (UInt8.ofNat n)) (b : UInt8) : P b := by
  have h := all b.toNat b.toNat_lt
  rwa [UInt8.ofNat_toNat] at h

/-- Bytes are the same when their binary digits are. -/
theorem byte_eq_iff {x y : UInt8} : x = y ↔ ∀ j < 8, x.toNat.testBit j = y.toNat.testBit j := by
  constructor
  · rintro rfl j _
    rfl
  · intro h
    refine UInt8.toNat_inj.1 (Nat.eq_of_testBit_eq fun j => ?_)
    by_cases hj : j < 8
    · exact h j hj
    · have hsmall : 2 ^ 8 ≤ 2 ^ j := Nat.pow_le_pow_right (by decide) (Nat.le_of_not_lt hj)
      rw [Nat.testBit_lt_two_pow (x.toNat_lt.trans_le hsmall),
        Nat.testBit_lt_two_pow (y.toNat_lt.trans_le hsmall)]

/-- Words are the same when their binary digits are. -/
theorem word_eq_iff {x y : UInt16} : x = y ↔ ∀ j < 16, x.toNat.testBit j = y.toNat.testBit j := by
  constructor
  · rintro rfl j _
    rfl
  · intro h
    refine UInt16.toNat_inj.1 (Nat.eq_of_testBit_eq fun j => ?_)
    by_cases hj : j < 16
    · exact h j hj
    · have hsmall : 2 ^ 16 ≤ 2 ^ j := Nat.pow_le_pow_right (by decide) (Nat.le_of_not_lt hj)
      rw [Nat.testBit_lt_two_pow (x.toNat_lt.trans_le hsmall),
        Nat.testBit_lt_two_pow (y.toNat_lt.trans_le hsmall)]

theorem testBit_toUInt8 (w : UInt16) {j : Nat} (hj : j < 8) :
    w.toUInt8.toNat.testBit j = w.toNat.testBit j := by
  rw [UInt16.toNat_toUInt8, Nat.testBit_mod_two_pow]
  simp [hj]

theorem testBit_shiftRight_toUInt8 (w : UInt16) {j : Nat} (hj : j < 8) :
    (w >>> 8).toUInt8.toNat.testBit j = w.toNat.testBit (8 + j) := by
  rw [testBit_toUInt8 _ hj, UInt16.toNat_shiftRight, UInt16.toNat_ofNat,
    show 8 % 2 ^ 16 % 16 = 8 by decide, Nat.testBit_shiftRight]

/-- The bits of registers are the binary digits of their words. -/
theorem bit_ofRegisters (ws : List UInt16) (i : Nat) :
    (BitSeq.ofRegisters (wordsBytes ws)).bit i
      = (decide (i < 16 * ws.length) && (ws.getD (i / 16) 0).toNat.testBit (i % 16)) := by
  have hlength : 8 * (swapWords (wordsBytes ws)).length = 16 * ws.length := by
    rw [length_swapWords, length_wordsBytes]
    omega
  rw [BitSeq.ofRegisters, BitSeq.bit_ofSwappedWords, hlength, getD_swapWords_wordsBytes,
    Nat.div_div_eq_div_mul]
  by_cases low : i / 8 % 2 = 0
  · rw [if_pos low, testBit_toUInt8 _ (Nat.mod_lt _ (by decide)),
      show i % 16 = i % 8 by omega]
  · rw [if_neg low, testBit_shiftRight_toUInt8 _ (Nat.mod_lt _ (by decide)),
      show i % 16 = 8 + i % 8 by omega]

/-! ## Registers of a run -/

namespace BitSeq

theorem testBit_wordOf (hi lo : UInt8) (j : Nat) :
    (wordOf hi lo).toNat.testBit j
      = if j < 8 then lo.toNat.testBit j else hi.toNat.testBit (j - 8) := by
  rw [toNat_wordOf, Nat.add_comm, show 256 = 2 ^ 8 by decide, Nat.add_comm]
  exact Nat.testBit_two_pow_mul_add _ lo.toNat_lt j

/-- the words that hold the bits of a run -/
def words (s : BitSeq) : List UInt16 :=
  (List.range ((s.size + 15) / 16)).map fun r =>
    wordOf (BitOrder.lsb0.pack fun j => s.bit (16 * r + 8 + j))
      (BitOrder.lsb0.pack fun j => s.bit (16 * r + j))

theorem toRegisters_eq (s : BitSeq) : s.toRegisters = wordsBytes s.words := by
  simp only [toRegisters, words, wordsBytes, List.flatMap_map, wordBytes_wordOf]

theorem length_words (s : BitSeq) : s.words.length = (s.size + 15) / 16 := by
  simp [words]

/-- The words of a run have its bits, and zeros behind them. -/
theorem testBit_words_of_lt {s : BitSeq} {i : Nat} (hword : i / 16 < (s.size + 15) / 16) :
    (s.words.getD (i / 16) 0).toNat.testBit (i % 16) = s.bit i := by
  have hdigit {f : Nat → Bool} {j : Nat} (hj : j < 8) :
      (BitOrder.lsb0.pack f).toNat.testBit j = f j := by
    have hmask := BitOrder.pack_and_mask .lsb0 f hj
    rwa [BitOrder.and_mask_lsb0, Nat.mod_eq_of_lt hj] at hmask
  simp only [words, List.getD_eq_getElem?_getD, List.getElem?_map, List.getElem?_range hword,
    Option.map_some, Option.getD_some]
  rw [testBit_wordOf]
  split
  · rename_i low
    rw [hdigit low, Nat.div_add_mod]
  · rename_i high
    rw [hdigit (by omega), show 16 * (i / 16) + 8 + (i % 16 - 8) = i by omega]

theorem testBit_words {s : BitSeq} {i : Nat} (hi : i < s.size) :
    (s.words.getD (i / 16) 0).toNat.testBit (i % 16) = s.bit i :=
  testBit_words_of_lt (by omega)

end BitSeq

end BusMaster
