import Mathlib.Data.List.Pairwise
import BusMaster.Proofs.Bits.Packing

/-!
# Runs of bits as lists

A run of bits is a list of booleans to whoever uses it: the bytes, the order in them and the spare
room behind the size are nobody's business. For the operations that write a run down bit by bit this
holds of any run. The two others edit the bytes in place, and `forceSize` shows what stood behind
the size, so they are right only of a run that is *tidy*: within its bytes, and clear behind its
size.

Every way to make a run leaves it tidy (`Made.tidy`), in either order and at sizes that end within a
byte, so all operations are those of lists wherever the run came from (`listed_of_made`).
-/

namespace BusMaster

namespace BitOrder

/-- Behind its first positions the mask of them lets nothing through. -/
theorem maskBelow_and_mask_of_le (order : BitOrder) {n i : Nat} (h : n ≤ i % 8) :
    order.maskBelow n &&& order.mask i = 0 := by
  have all : ∀ j < 8, ∀ n ≤ j, order.maskBelow n &&& order.mask j = 0 := by
    cases order <;> decide
  rw [← mask_mod]
  exact all _ (Nat.mod_lt _ (by decide)) n h

/-- Clearing a position of a byte clears that one and leaves the others. -/
theorem and_not_mask (order : BitOrder) (b : UInt8) {i j : Nat} (hi : i < 8) (hj : j < 8) :
    (b &&& ~~~order.mask i &&& order.mask j != 0) =
      (!(i == j) && (b &&& order.mask j != 0)) := by
  have all : ∀ i < 8, ∀ j < 8,
      ~~~order.mask i &&& order.mask j = if i = j then 0 else order.mask j := by
    cases order <;> decide
  rw [UInt8.and_assoc, all i hi j hj]
  by_cases hij : i = j <;> simp [hij]

end BitOrder

namespace BitSeq

/-! ## Bits and lists -/

theorem length_toList (s : BitSeq) : s.toList.length = s.size := by
  simp [toList]

theorem getElem?_toList (s : BitSeq) (i : Nat) :
    s.toList[i]? = if i < s.size then some (s.bit i) else none := by
  by_cases hi : i < s.size <;> simp [toList, hi]

theorem getD_toList (s : BitSeq) (i : Nat) : s.toList.getD i false = s.bit i := by
  rw [List.getD_eq_getElem?_getD, getElem?_toList]
  split
  · rfl
  · exact (bit_eq_false (by omega)).symm

/-- Runs with one list are as long and have the same bits. -/
theorem bit_of_toList {s t : BitSeq} (h : s.toList = t.toList) :
    s.size = t.size ∧ s.bit = t.bit := by
  refine ⟨?_, funext fun i => ?_⟩
  · rw [← length_toList, h, length_toList]
  · rw [← getD_toList, h, getD_toList]

/-- A run has a given list when it is as long and has its entries. -/
theorem toList_eq_of_bit {s : BitSeq} {bits : List Bool} (size : bits.length = s.size)
    (entries : ∀ i < s.size, bits[i]? = some (s.bit i)) : s.toList = bits := by
  refine List.ext_getElem? fun i => ?_
  rw [getElem?_toList]
  split
  case isTrue within => exact (entries i within).symm
  case isFalse past => exact (List.getElem?_eq_none (by omega)).symm

theorem toList_ofFn (order : BitOrder) (n : Nat) (f : Nat → Bool) :
    (ofFn order n f).toList = (List.range n).map f := by
  refine toList_eq_of_bit (by simp) fun i hi => ?_
  have hn : i < n := hi
  rw [bit_ofFn]
  simp [hn]

/-! ## What the bytes hold -/

/-- position `i` as the bytes hold it, within the size or behind it -/
def held (s : BitSeq) (i : Nat) : Bool := s.bytes.getD (i / 8) 0 &&& s.order.mask i != 0

theorem bit_eq_held (s : BitSeq) (i : Nat) : s.bit i = (decide (i < s.size) && s.held i) := rfl

/-- The bytes hold nothing where there are none. -/
theorem held_eq_false {s : BitSeq} {i : Nat} (h : s.capacity ≤ i) : s.held i = false := by
  have past : s.bytes.size ≤ i / 8 := by
    rw [capacity] at h
    omega
  simp [held, Array.getD_eq_getD_getElem?, Array.getElem?_eq_none past]

/-- a run within its bytes, clear behind its size -/
structure Tidy (s : BitSeq) : Prop where
  fits : s.size ≤ s.capacity
  clear : ∀ i, s.size ≤ i → s.held i = false

/-- Of a tidy run the bytes hold its bits and nothing else. -/
theorem Tidy.held_eq_bit {s : BitSeq} (tidy : s.Tidy) (i : Nat) : s.held i = s.bit i := by
  by_cases hi : i < s.size
  · simp [bit_eq_held, hi]
  · rw [tidy.clear i (by omega), bit_eq_false (by omega)]

/-! ## Making runs -/

/-- A run written down bit by bit is tidy. -/
theorem tidy_ofFn (order : BitOrder) (n : Nat) (f : Nat → Bool) : (ofFn order n f).Tidy := by
  refine ⟨?_, fun i hi => ?_⟩
  · simp only [capacity, ofFn, Array.size_ofFn, bytesForBits]
    omega
  · have past : ¬i < n := Nat.not_lt.2 hi
    by_cases hbyte : i / 8 < bytesForBits n
    · rw [held, order_ofFn, and_mask_ofFn order f hbyte]
      simp [past]
    · refine held_eq_false ?_
      simp only [capacity, ofFn, Array.size_ofFn]
      omega

theorem tidy_ofBytes {order : BitOrder} {n : Nat} {bytes : Bytes} {s : BitSeq}
    (h : ofBytes order n bytes = .ok s) : s.Tidy := by
  rw [ofBytes] at h
  split at h
  · cases h
  rename_i fits
  cases h
  refine ⟨?_, fun i hi => ?_⟩
  · simp only [capacity, List.size_toArray, List.length_mapIdx]
    omega
  · by_cases hin : i / 8 < bytes.length
    · simp only [held, Array.getD_eq_getD_getElem?, List.getElem?_toArray, List.getElem?_mapIdx,
        List.getElem?_eq_getElem hin, Option.map_some, Option.getD_some]
      have hbehind : n ≤ i := hi
      rw [UInt8.and_assoc, BitOrder.maskBelow_and_mask_of_le order (by omega)]
      simp
    · refine held_eq_false ?_
      simp only [capacity, List.size_toArray, List.length_mapIdx]
      omega

/-- A run that fills its bytes has nothing behind it. -/
theorem tidy_ofSwappedWords (bytes : Bytes) : (ofSwappedWords bytes).Tidy where
  fits := by simp [capacity, ofSwappedWords]
  clear i hi := held_eq_false (by simpa [capacity, ofSwappedWords] using hi)

/-! ## Editing runs -/

theorem held_set {s t : BitSeq} {i : Nat} {value : Bool} (tidy : s.Tidy)
    (h : s.set i value = .ok t) (j : Nat) :
    t.held j = if j = i then value else s.held j := by
  rw [set] at h
  split at h
  case isFalse => cases h
  rename_i within
  cases h
  have hin : i / 8 < s.bytes.size := by
    have := tidy.fits
    rw [capacity] at this
    omega
  have hi : i % 8 < 8 := Nat.mod_lt _ (by decide)
  have hj : j % 8 < 8 := Nat.mod_lt _ (by decide)
  simp only [held, Array.getD_eq_getD_getElem?, Array.getElem?_modify]
  by_cases hbyte : i / 8 = j / 8
  · have hij : (i % 8 == j % 8) = decide (j = i) := by
      rw [Bool.eq_iff_iff, beq_iff_eq, decide_eq_true_iff]
      omega
    rw [if_pos hbyte, ← hbyte, Array.getElem?_eq_getElem hin, Option.map_some, Option.getD_some,
      Option.getD_some, ← BitOrder.mask_mod _ i, ← BitOrder.mask_mod _ j]
    cases value with
    | true =>
      rw [if_pos rfl, BitOrder.or_and_ne_zero, BitOrder.mask_and_mask _ hi hj, hij]
      by_cases hji : j = i <;> simp [hji]
    | false =>
      rw [if_neg Bool.false_ne_true, BitOrder.and_not_mask _ _ hi hj, hij]
      by_cases hji : j = i <;> simp [hji]
  · have hji : j ≠ i := fun hji => hbyte (congrArg (· / 8) hji.symm)
    rw [if_neg hbyte, if_neg hji]

theorem set_eq_ok {s : BitSeq} {i : Nat} (value : Bool) (h : i < s.size) :
    ∃ t, s.set i value = .ok t ∧ t.size = s.size ∧ t.capacity = s.capacity := by
  rw [set, if_pos h]
  exact ⟨_, rfl, rfl, by simp [capacity]⟩

theorem tidy_set {s t : BitSeq} {i : Nat} {value : Bool} (tidy : s.Tidy)
    (h : s.set i value = .ok t) : t.Tidy := by
  have hi : i < s.size := by
    by_contra past
    rw [set, if_neg past] at h
    cases h
  obtain ⟨t', ht', hsize, hcap⟩ := set_eq_ok value hi
  rw [h] at ht'
  cases ht'
  refine ⟨by rw [hsize, hcap]; exact tidy.fits, fun j hj => ?_⟩
  rw [hsize] at hj
  rw [held_set tidy h, if_neg (by omega), tidy.clear j hj]

theorem forceSize_eq_ok {s : BitSeq} {n : Nat} (h : n ≤ s.capacity) :
    s.forceSize n = .ok { s with size := max s.size n } := by
  rw [forceSize, if_neg (Nat.not_lt.2 h)]

theorem tidy_forceSize {s t : BitSeq} {n : Nat} (tidy : s.Tidy) (h : s.forceSize n = .ok t) :
    t.Tidy := by
  have fits : n ≤ s.capacity := by
    by_contra past
    rw [forceSize, if_pos (Nat.not_le.1 past)] at h
    cases h
  rw [forceSize_eq_ok fits] at h
  cases h
  exact ⟨Nat.max_le.2 ⟨tidy.fits, fits⟩,
    fun i hi => tidy.clear i (Nat.le_trans (Nat.le_max_left ..) hi)⟩

/-- the runs there are: made of bytes, registers or text, cut, joined, and edited in place -/
inductive Made : BitSeq → Prop where
  | zeros (order : BitOrder) (n : Nat) : Made (zeros order n)
  | ofBytes {order : BitOrder} {n : Nat} {bytes : Bytes} {s : BitSeq} :
      BitSeq.ofBytes order n bytes = .ok s → Made s
  | ofSwappedWords (bytes : Bytes) : Made (ofSwappedWords bytes)
  | ofRegisters (bytes : Bytes) : Made (ofRegisters bytes)
  | ofText {order : BitOrder} {text : String} {s : BitSeq} :
      BitSeq.ofText order text = .ok s → Made s
  | range {s : BitSeq} (first last : Nat) : Made s → Made (s.range first last)
  | append {s t : BitSeq} : Made s → Made t → Made (s.append t)
  | set {s t : BitSeq} {i : Nat} {value : Bool} : Made s → s.set i value = .ok t → Made t
  | forceSize {s t : BitSeq} {n : Nat} : Made s → s.forceSize n = .ok t → Made t

/-- Every way to make a run leaves it tidy. -/
theorem Made.tidy {s : BitSeq} (made : Made s) : s.Tidy := by
  induction made with
  | zeros order n => exact tidy_ofFn ..
  | ofBytes h => exact tidy_ofBytes h
  | ofSwappedWords bytes => exact tidy_ofSwappedWords bytes
  | ofRegisters bytes => exact tidy_ofSwappedWords _
  | @ofText order text s h =>
    rw [BitSeq.ofText] at h
    cases hread : readDigits text.toList with
    | error fault => rw [hread] at h; cases h
    | ok bits =>
      rw [hread] at h
      cases h
      rw [ofList_eq_ofFn]
      exact tidy_ofFn ..
  | range first last made ih => exact tidy_ofFn ..
  | append _ _ _ _ => exact tidy_ofFn ..
  | set _ h ih => exact tidy_set ih h
  | forceSize _ h ih => exact tidy_forceSize ih h

/-! ## Operations on lists -/

theorem toList_set {s t : BitSeq} {i : Nat} {value : Bool} (tidy : s.Tidy)
    (h : s.set i value = .ok t) (size : t.size = s.size) : t.toList = s.toList.set i value := by
  refine toList_eq_of_bit (by rw [List.length_set, length_toList, size]) fun j hj => ?_
  rw [size] at hj
  rw [List.getElem?_set, getElem?_toList, if_pos hj, length_toList,
    bit_eq_held t, held_set tidy h, size, tidy.held_eq_bit]
  by_cases hij : i = j
  · simp [hij, hj]
  · simp [hij, Ne.symm hij, hj]

theorem toList_range (s : BitSeq) (first last : Nat) :
    (s.range first last).toList =
      (List.range (last - first)).map fun i => s.toList.getD (first + i) false := by
  simp only [range, toList_ofFn, getD_toList]

theorem toList_append (s t : BitSeq) : (s.append t).toList = s.toList ++ t.toList := by
  have size : (s.append t).size = s.size + t.size := rfl
  refine toList_eq_of_bit (by rw [List.length_append, length_toList, length_toList, size])
    fun i hi => ?_
  rw [size] at hi
  rw [append, bit_ofFn, List.getElem?_append, length_toList, getElem?_toList, getElem?_toList]
  by_cases first : i < s.size
  · simp [first, hi]
  · have second : i - s.size < t.size := by omega
    simp [first, second, hi]

theorem toList_forceSize {s : BitSeq} (tidy : s.Tidy) (n : Nat) :
    { s with size := max s.size n }.toList = s.toList ++ List.replicate (n - s.size) false := by
  refine toList_eq_of_bit ?_ fun i hi => ?_
  · simp only [List.length_append, length_toList, List.length_replicate]
    omega
  · have hmax : i < max s.size n := hi
    have hbit : { s with size := max s.size n }.bit i = s.held i := by
      rw [bit_eq_held]
      simp only [hmax, decide_true, Bool.true_and]
      rfl
    rw [hbit, tidy.held_eq_bit, List.getElem?_append, length_toList, getElem?_toList]
    by_cases within : i < s.size
    · simp [within]
    · have grown : i - s.size < n - s.size := by omega
      simp [within, grown, bit_eq_false (Nat.not_lt.1 within)]

theorem mem_ones {s : BitSeq} {i : Nat} : i ∈ s.ones ↔ s.toList[i]? = some true := by
  rw [ones, List.mem_filter, List.mem_range, getElem?_toList]
  by_cases hi : i < s.size <;> simp [hi]

theorem ones_ascending (s : BitSeq) : s.ones.Pairwise (· < ·) :=
  List.pairwise_lt_range.filter _

theorem beq_iff_toList (s t : BitSeq) : (s == t) = true ↔ s.toList = t.toList := by
  have unfolded : (s == t) =
      (s.size == t.size && (List.range s.size).all fun i => s.bit i == t.bit i) := rfl
  rw [unfolded, Bool.and_eq_true, beq_iff_eq, List.all_eq_true]
  constructor
  · rintro ⟨size, bits⟩
    refine toList_eq_of_bit (by rw [length_toList, size]) fun i hi => ?_
    have same : s.bit i = t.bit i := beq_iff_eq.1 (bits i (List.mem_range.2 hi))
    rw [getElem?_toList, if_pos (by omega), same]
  · intro lists
    refine ⟨?_, fun i _ => ?_⟩
    · rw [← length_toList s, lists, length_toList]
    · rw [beq_iff_eq, ← getD_toList s, lists, getD_toList]

/-- a run of bits as its list of bits: what each operation does to the list alone -/
structure Listed (s : BitSeq) : Prop where
  /-- the size is within the bytes -/
  fits : s.size ≤ 8 * s.bytes.size
  /-- the bytes are clear behind the size -/
  clear : ∀ i, s.size ≤ i → s.held i = false
  get : ∀ i, s.get i =
    match s.toList[i]? with
    | some value => .ok value
    | none => .error (.indexOutOfRange i s.size)
  /-- a bit within the list is replaced -/
  set : ∀ i value, i < s.toList.length →
    ∃ t, s.set i value = .ok t ∧ t.toList = s.toList.set i value
  /-- past the list there is no bit to replace -/
  set_past : ∀ i value, s.toList.length ≤ i →
    s.set i value = .error (.indexOutOfRange i s.size)
  range : ∀ first last, (s.range first last).toList =
    (List.range (last - first)).map fun i => s.toList.getD (first + i) false
  append : ∀ t, (s.append t).toList = s.toList ++ t.toList
  /-- zeros are put behind the list, as far as the bytes go -/
  forceSize : ∀ n ≤ s.capacity, ∃ t, s.forceSize n = .ok t ∧
    t.toList = s.toList ++ List.replicate (n - s.toList.length) false
  forceSize_past : ∀ n, s.capacity < n → s.forceSize n = .error (.tooLarge n s.capacity)
  ones : s.ones.Pairwise (· < ·) ∧ ∀ i, i ∈ s.ones ↔ s.toList[i]? = some true
  /-- runs are the same when their lists are, whatever the orders and the bytes -/
  beq : ∀ t, (s == t) = true ↔ s.toList = t.toList

/-- **A run of bits is a list of bits.** However a run was made, and however often it was edited in
place, its operations are those of lists: an edit replaces an entry, a cut takes entries with zeros
past the end, joining appends, growing puts zeros behind, and two runs are the same when their lists
are. An edit past the end or a size past the bytes is refused. -/
theorem listed_of_made {s : BitSeq} (made : Made s) : Listed s := by
  have tidy : s.Tidy := made.tidy
  refine ⟨tidy.fits, tidy.clear, fun i => ?_, fun i value within => ?_, fun i value past => ?_,
    toList_range s, toList_append s, fun n within => ?_, fun n past => if_pos past,
    ⟨ones_ascending s, fun i => mem_ones⟩, beq_iff_toList s⟩
  case refine_1 =>
    rw [BitSeq.get, getElem?_toList]
    split <;> rfl
  case refine_2 =>
    rw [length_toList] at within
    obtain ⟨t, ht, size, -⟩ := set_eq_ok value within
    exact ⟨t, ht, toList_set tidy ht size⟩
  case refine_3 =>
    rw [length_toList] at past
    exact if_neg (Nat.not_lt.2 past)
  case refine_4 =>
    rw [length_toList]
    exact ⟨_, forceSize_eq_ok within, toList_forceSize tidy n⟩

namespace Nibble

/-- the first four bits of two full bytes, most significant bit first -/
def made : BitSeq := ⟨#[0xF0, 0x00], 4, .msb0⟩

/-- Grown to the full two bytes, the four bits have twelve zeros behind them. -/
theorem nibble_listed : ofBytes .msb0 4 [0xFF, 0xFF] = .ok made ∧ Listed made ∧
    ∃ t, made.forceSize 16 = .ok t ∧
      t.toList = [true, true, true, true] ++ List.replicate 12 false :=
  have cut : ofBytes .msb0 4 [0xFF, 0xFF] = .ok made := rfl
  have listed : Listed made := listed_of_made (.ofBytes cut)
  ⟨cut, listed, listed.forceSize 16 (by decide)⟩

end Nibble

end BitSeq

end BusMaster
