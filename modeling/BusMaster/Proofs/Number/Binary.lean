import Mathlib.Data.Nat.Bitwise
import BusMaster.Plant.Channel

/-!
# What is a number

A binary fraction that is no number is not even equal to itself. None comes out of rounding a
quotient, because rounding stops at infinity, and a quotient of fractions is a number as long as the
divisor is finite and not zero (`Binary64.isNaN_div`). A magnitude that stays away from the greatest
is finite after rounding too (`Binary64.nearest_lt_infinity`).
-/

namespace BusMaster

namespace Binary64

variable {x y : Binary64}

/-- The sign takes no bit from the magnitude. -/
theorem unsigned_assemble {n : Nat} (h : n < 2 ^ 63) (negative : Bool) :
    (assemble negative n).unsigned = n := by
  have top : 1 <<< 63 = 2 ^ 63 := rfl
  rw [unsigned, assemble, UInt64.toNat_ofNat', top]
  cases negative
  · rw [if_neg Bool.false_ne_true]
    omega
  · rw [if_pos rfl]
    omega

theorem nearest_le_infinity (f : Format) (num den : Nat) : f.nearest num den ≤ f.infinity :=
  Nat.min_le_right ..

/-- A magnitude up to infinity is a number, with either sign. -/
theorem isNaN_assemble {n : Nat} (h : n ≤ Format.binary64.infinity) (negative : Bool) :
    (assemble negative n).isNaN = false := by
  have bound : Format.binary64.infinity < 2 ^ 63 := by decide
  rw [isNaN, unsigned_assemble (Nat.lt_of_le_of_lt h bound), decide_eq_false_iff_not]
  exact Nat.not_lt.2 h

theorem isNaN_ofInt (i : Int) : (ofInt i).isNaN = false :=
  isNaN_assemble (nearest_le_infinity ..) _

/-- A number divided by what is finite and not zero is a number. -/
theorem isNaN_div (hx : x.isNaN = false) (finite : y.isFinite = true) (hy : y.unsigned ≠ 0) :
    (x.div y).isNaN = false := by
  rw [isFinite, decide_eq_true_eq] at finite
  have number : y.isNaN = false := decide_eq_false (Nat.not_lt.2 (Nat.le_of_lt finite))
  have bounded : y.isInfinite = false := decide_eq_false (Nat.ne_of_lt finite)
  rw [div]
  simp only [hx, number, bounded, hy, Bool.or_self, Bool.false_eq_true, if_false]
  split
  · exact isNaN_assemble (Nat.le_refl _) _
  · exact isNaN_assemble (nearest_le_infinity ..) _

/-- Rounding adds one at most. -/
theorem roundEven_le (num den : Nat) : Format.roundEven num den ≤ num / den + 1 := by
  rw [Format.roundEven]
  split
  · omega
  · split
    · omega
    · split <;> omega

theorem le_roundEven (num den : Nat) : num / den ≤ Format.roundEven num den := by
  rw [Format.roundEven]
  split
  · omega
  · split
    · omega
    · split <;> omega

/-- A magnitude far below the greatest is not rounded to infinity. -/
theorem nearest_lt_infinity {num den k : Nat} (h : num / den < 2 ^ k) (hk : k ≤ 2096) :
    Format.binary64.nearest num den < Format.binary64.infinity := by
  have range : (num / den).log2 ≤ 2096 := by
    rcases Nat.eq_zero_or_pos (num / den) with zero | positive
    · rw [zero, Nat.log2_zero]
      exact Nat.zero_le _
    · exact Nat.le_trans (Nat.le_of_lt ((Nat.log2_lt (Nat.ne_of_gt positive)).2 h)) hk
  obtain ⟨shift, hshift⟩ : ∃ shift, shift = (num / den).log2 - 52 := ⟨_, rfl⟩
  have digits : num / den < 2 ^ shift * 2 ^ 53 := by
    rw [← Nat.pow_add]
    exact Nat.lt_of_lt_of_le Nat.lt_log2_self (Nat.pow_le_pow_right (by decide) (by omega))
  have fraction : num / (den * 2 ^ shift) < 2 ^ 53 := by
    rw [← Nat.div_div_eq_div_mul]
    exact Nat.div_lt_of_lt_mul digits
  have rounded := roundEven_le num (den * 2 ^ shift)
  have top : Format.binary64.infinity = 2047 * 2 ^ 52 := rfl
  have unfolded : Format.binary64.nearest num den =
      min (shift * 2 ^ 52 + Format.roundEven num (den * 2 ^ shift)) Format.binary64.infinity := by
    rw [Format.nearest, show Format.binary64.fractionBits = 52 from rfl, ← hshift,
      Nat.shiftLeft_eq, Nat.shiftLeft_eq]
  have steps : shift + 2 < 2047 := by omega
  calc Format.binary64.nearest num den
    _ ≤ shift * 2 ^ 52 + Format.roundEven num (den * 2 ^ shift) := unfolded ▸ Nat.min_le_left ..
    _ ≤ shift * 2 ^ 52 + 2 * 2 ^ 52 := Nat.add_le_add_left (Nat.le_trans rounded fraction) _
    _ = (shift + 2) * 2 ^ 52 := (Nat.add_mul ..).symm
    _ < 2047 * 2 ^ 52 := Nat.mul_lt_mul_of_pos_right steps (Nat.two_pow_pos 52)

theorem same_self_iff : x.same x = true ↔ x.isNaN = false := by
  rw [same, beq_self_eq_true, Bool.true_or, Bool.and_true, Bool.and_self, Bool.not_eq_true']

end Binary64

/-- not a number -/
def Binary32.IsNaN (x : Binary32) : Prop := Format.binary32.infinity < x.unsigned

instance (x : Binary32) : Decidable x.IsNaN := inferInstanceAs (Decidable (_ < _))

/-- **What is no number in 32 bits is none in 64 bits**, and nothing else becomes one. -/
theorem Binary32.isNaN_widen {x : Binary32} : x.widen.isNaN = true ↔ x.IsNaN := by
  rw [widen, IsNaN]
  by_cases nan : Format.binary32.infinity < x.unsigned
  · rw [if_pos nan]
    refine iff_of_true ?_ nan
    have leading : 1 <<< 51 ≤ 1 <<< 51 ||| (x.unsigned % 1 <<< 23) <<< 29 := Nat.left_le_or
    have small : 1 <<< 51 ||| (x.unsigned % 1 <<< 23) <<< 29 < 2 ^ 52 := by
      refine Nat.or_lt_two_pow (by decide) ?_
      have fraction : x.unsigned % 1 <<< 23 < 2 ^ 23 := Nat.mod_lt _ (by decide)
      rw [Nat.shiftLeft_eq]
      omega
    have split : Format.binary64.infinity ||| 1 <<< 51 ||| (x.unsigned % 1 <<< 23) <<< 29
        = 2047 <<< 52 + (1 <<< 51 ||| (x.unsigned % 1 <<< 23) <<< 29) := by
      rw [Nat.or_assoc, Nat.shiftLeft_add_eq_or_of_lt small]
      rfl
    have top : Format.binary64.infinity = 2047 <<< 52 := rfl
    have bound : 2047 <<< 52 + 2 ^ 52 = 2 ^ 63 := by decide
    have positive : 0 < 1 <<< 51 := by decide
    rw [split, Binary64.isNaN, Binary64.unsigned_assemble (by omega), decide_eq_true_eq, top]
    omega
  · rw [if_neg nan]
    refine iff_of_false ?_ nan
    rw [Bool.not_eq_true]
    split
    · exact Binary64.isNaN_assemble (Nat.le_refl _) _
    · exact Binary64.isNaN_assemble (Binary64.nearest_le_infinity ..) _

end BusMaster
