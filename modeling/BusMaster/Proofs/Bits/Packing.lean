import Mathlib.Data.Nat.Bitwise
import BusMaster.Bits

/-!
# Packing

A run of bits is held in bytes, and all its operations go through masks. Here each of them is read
back in terms of `BitSeq.bit` alone: a byte packed from a function gives the function back
(`BitOrder.pack_and_mask`), so a run written down bit by bit has those bits (`BitSeq.bit_ofFn`), and
what is made from bytes has the bits of the bytes (`BitSeq.bit_ofBytes`, `BitSeq.bit_ofSwappedWords`).
With the least significant bit first, a mask tests a binary digit (`and_mask_lsb0`), which is how a
device on the other side of the wire looks at the same byte.
-/

namespace BusMaster

/-! ## Bytes -/

namespace BitOrder

theorem mask_mod (order : BitOrder) (i : Nat) : order.mask (i % 8) = order.mask i := by
  cases order <;> simp [mask]

/-- Two positions of a byte have disjoint masks. -/
theorem mask_and_mask (order : BitOrder) {i j : Nat} (hi : i < 8) (hj : j < 8) :
    (order.mask i &&& order.mask j != 0) = (i == j) := by
  have all : ∀ i < 8, ∀ j < 8, (order.mask i &&& order.mask j != 0) = (i == j) := by
    cases order <;> decide
  exact all i hi j hj

theorem or_and_ne_zero (a b c : UInt8) :
    ((a ||| b) &&& c != 0) = ((a &&& c != 0) || (b &&& c != 0)) := by
  have distrib : (a ||| b) &&& c = a &&& c ||| b &&& c :=
    UInt8.toBitVec_inj.1 BitVec.and_or_distrib_right
  rw [distrib, Bool.eq_iff_iff]
  simp only [bne_iff_ne, ne_eq, UInt8.or_eq_zero_iff, Bool.or_eq_true, not_and_or]

/-- Setting the positions of a list that a function picks sets those and leaves the others. -/
theorem foldl_or_mask (order : BitOrder) (f : Nat → Bool) {j : Nat} (hj : j < 8) :
    ∀ (positions : List Nat) (acc : UInt8), (∀ i ∈ positions, i < 8) →
      ((positions.foldl (fun acc i => if f i then acc ||| order.mask i else acc) acc)
        &&& order.mask j != 0)
        = ((acc &&& order.mask j != 0) || (decide (j ∈ positions) && f j)) := by
  intro positions
  induction positions with
  | nil => intro acc _; simp
  | cons i rest ih =>
    intro acc within
    have hi : i < 8 := within i (List.mem_cons_self ..)
    rw [List.foldl_cons, ih _ fun k hk => within k (List.mem_cons_of_mem _ hk)]
    by_cases hf : f i
    · rw [if_pos hf, or_and_ne_zero, mask_and_mask order hi hj]
      by_cases hij : i = j
      · subst hij
        simp [hf]
      · simp [beq_eq_false_iff_ne.2 hij, Ne.symm hij]
    · rw [if_neg hf]
      by_cases hij : i = j
      · subst hij
        simp [hf]
      · simp [Ne.symm hij]

/-- A packed byte gives back what was packed into it. -/
theorem pack_and_mask (order : BitOrder) (f : Nat → Bool) {j : Nat} (hj : j < 8) :
    (order.pack f &&& order.mask j != 0) = f j := by
  rw [pack, foldl_or_mask order f hj _ _ fun i hi => List.mem_range.1 hi]
  simp [hj]

/-- The mask of the first positions lets each of them through. -/
theorem maskBelow_and_mask (order : BitOrder) {n i : Nat} (h : i % 8 < n) :
    order.maskBelow n &&& order.mask i = order.mask i := by
  have all : ∀ n ≤ 8, ∀ j < 8, j < n → order.maskBelow n &&& order.mask j = order.mask j := by
    cases order <;> decide
  have hcap : order.maskBelow n = order.maskBelow (min n 8) := by simp [maskBelow]
  rw [hcap, ← mask_mod]
  exact all _ (Nat.min_le_right ..) _ (Nat.mod_lt _ (by decide)) (by omega)

/-- Least significant bit first, a mask tests a binary digit. -/
theorem toNat_mask_lsb0 (i : Nat) : (lsb0.mask i).toNat = 2 ^ (i % 8) := by
  rw [← mask_mod]
  have all : ∀ k < 8, (lsb0.mask k).toNat = 2 ^ k := by decide
  exact all _ (Nat.mod_lt _ (by decide))

theorem and_mask_lsb0 (b : UInt8) (i : Nat) :
    (b &&& lsb0.mask i != 0) = b.toNat.testBit (i % 8) := by
  have hand : (b &&& lsb0.mask i).toNat = (b.toNat.testBit (i % 8)).toNat * 2 ^ (i % 8) := by
    rw [UInt8.toNat_and, toNat_mask_lsb0, Nat.and_two_pow]
  cases ht : b.toNat.testBit (i % 8) with
  | false =>
    rw [ht, Bool.toNat_false, Nat.zero_mul] at hand
    rw [UInt8.toNat_inj.1 (hand.trans UInt8.toNat_zero.symm)]
    rfl
  | true =>
    rw [ht, Bool.toNat_true, Nat.one_mul] at hand
    refine bne_iff_ne.2 fun hzero => ?_
    rw [hzero] at hand
    exact absurd hand.symm (Nat.two_pow_pos _).ne'

end BitOrder

/-! ## Runs -/

namespace BitSeq

@[simp] theorem size_ofFn (order : BitOrder) (n : Nat) (f : Nat → Bool) :
    (ofFn order n f).size = n := rfl

@[simp] theorem order_ofFn (order : BitOrder) (n : Nat) (f : Nat → Bool) :
    (ofFn order n f).order = order := rfl

theorem div_lt_bytesForBits {i n : Nat} (h : i < n) : i / 8 < bytesForBits n := by
  rw [bytesForBits]
  omega

/-- The bytes of a run written down bit by bit hold what was written and nothing else. -/
theorem and_mask_ofFn (order : BitOrder) {n : Nat} (f : Nat → Bool) {i : Nat}
    (h : i / 8 < bytesForBits n) :
    ((ofFn order n f).bytes.getD (i / 8) 0 &&& order.mask i != 0) = (decide (i < n) && f i) := by
  have hbyte : (ofFn order n f).bytes.getD (i / 8) 0 =
      order.pack fun j => decide (8 * (i / 8) + j < n) && f (8 * (i / 8) + j) := by
    rw [Array.getD_eq_getD_getElem?, ofFn, Array.getElem?_ofFn, dif_pos h]
    rfl
  rw [hbyte, ← BitOrder.mask_mod, BitOrder.pack_and_mask _ _ (Nat.mod_lt _ (by decide)),
    Nat.div_add_mod]

/-- A run written down bit by bit has those bits. -/
theorem bit_ofFn (order : BitOrder) (n : Nat) (f : Nat → Bool) (i : Nat) :
    (ofFn order n f).bit i = (decide (i < n) && f i) := by
  by_cases hi : i < n
  · rw [bit, order_ofFn, and_mask_ofFn order f (div_lt_bytesForBits hi)]
    simp [hi]
  · simp [bit, hi]

/-- Runs written down from functions that agree on their positions are the same. -/
theorem ofFn_congr {order : BitOrder} {n : Nat} {f g : Nat → Bool}
    (h : ∀ i < n, f i = g i) : ofFn order n f = ofFn order n g := by
  have hbits : ∀ i, (decide (i < n) && f i) = (decide (i < n) && g i) := by
    intro i
    by_cases hi : i < n
    · rw [h i hi]
    · simp [hi]
  simp only [ofFn, hbits]

theorem bit_range (s : BitSeq) (first last i : Nat) :
    (s.range first last).bit i = (decide (i < last - first) && s.bit (first + i)) :=
  bit_ofFn ..

theorem ofList_eq_ofFn (order : BitOrder) (bits : List Bool) :
    ofList order bits = ofFn order bits.length fun i => bits.getD i false := by
  have hget : ∀ i, bits.toArray.getD i false = bits.getD i false := by
    intro i
    rw [Array.getD_eq_getD_getElem?, List.getElem?_toArray, List.getD_eq_getElem?_getD]
  simp only [ofList, List.size_toArray, hget]

theorem bit_ofList (order : BitOrder) (bits : List Bool) (i : Nat) :
    (ofList order bits).bit i = bits.getD i false := by
  rw [ofList_eq_ofFn, bit_ofFn, List.getD_eq_getElem?_getD]
  by_cases hi : i < bits.length
  · simp [hi]
  · simp [hi]

/-- What is made of bytes has their bits, up to its size. -/
theorem bit_ofBytes {order : BitOrder} {n : Nat} {bytes : Bytes} {s : BitSeq}
    (h : ofBytes order n bytes = .ok s) (i : Nat) :
    s.bit i = (decide (i < n) && (bytes.getD (i / 8) 0 &&& order.mask i != 0)) := by
  rw [ofBytes] at h
  split at h
  · cases h
  rename_i fits
  cases h
  by_cases hi : i < n
  · have hin : i / 8 < bytes.length := by omega
    simp only [bit, hi, decide_true, Bool.true_and, Array.getD_eq_getD_getElem?,
      List.getElem?_toArray, List.getElem?_mapIdx, List.getD_eq_getElem?_getD,
      List.getElem?_eq_getElem hin, Option.map_some, Option.getD_some]
    rw [UInt8.and_assoc, BitOrder.maskBelow_and_mask order (by omega)]
  · simp [bit, hi]

theorem ofBytes_of_le (order : BitOrder) {n : Nat} {bytes : Bytes} (h : n ≤ 8 * bytes.length) :
    ∃ s, ofBytes order n bytes = .ok s := by
  refine ⟨_, if_neg ?_⟩
  exact Nat.not_lt.2 h

theorem size_ofBytes {order : BitOrder} {n : Nat} {bytes : Bytes} {s : BitSeq}
    (h : ofBytes order n bytes = .ok s) : s.size = n ∧ s.order = order := by
  rw [ofBytes] at h
  split at h
  · cases h
  · cases h
    exact ⟨rfl, rfl⟩

theorem bit_ofSwappedWords (bytes : Bytes) (i : Nat) :
    (ofSwappedWords bytes).bit i =
      (decide (i < 8 * bytes.length) && (bytes.getD (i / 8) 0).toNat.testBit (i % 8)) := by
  simp only [bit, ofSwappedWords, BitOrder.and_mask_lsb0, Array.getD_eq_getD_getElem?,
    List.getElem?_toArray, List.getD_eq_getElem?_getD]
  rfl

/-- A run within its bytes takes as few of them as hold it. -/
theorem length_toBytes {s : BitSeq} (fits : s.size ≤ s.capacity) :
    s.toBytes.length = bytesForBits s.size := by
  rw [toBytes, List.length_take, Array.length_toList, bytesForBits]
  rw [capacity] at fits
  omega

/-- The bytes of a run have its bits as binary digits, least significant first. -/
theorem testBit_toBytes {s : BitSeq} (order : s.order = .lsb0) {i : Nat} (hi : i < s.size) :
    (s.toBytes.getD (i / 8) 0).toNat.testBit (i % 8) = s.bit i := by
  have htake : s.toBytes.getD (i / 8) 0 = s.bytes.getD (i / 8) 0 := by
    rw [toBytes, List.getD_eq_getElem?_getD, List.getElem?_take_of_lt (div_lt_bytesForBits hi),
      Array.getElem?_toList, Array.getD_eq_getD_getElem?]
  rw [htake, bit, order, BitOrder.and_mask_lsb0]
  simp [hi]

/-- A run is within its size. -/
theorem bit_eq_false {s : BitSeq} {i : Nat} (h : s.size ≤ i) : s.bit i = false := by
  simp [bit, Nat.not_lt.2 h]

end BitSeq

end BusMaster
