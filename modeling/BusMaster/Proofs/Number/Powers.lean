import Mathlib.Tactic.GCongr
import BusMaster.Proofs.Number.Rounding

/-!
# Powers of ten

Decimal places are undone with a power of ten, which is worked out by squaring. Every product is
rounded, so what counts is how often: a power that came about with `m` roundings is off by `m` parts
in `2 ^ 53`, and a little more (`Binary64.Near`). A product has the roundings of both factors and one
of its own (`Binary64.Near.mul`), which over all digits of the exponent adds up to as many as the
exponent says (`Binary64.Near.timesPower`). The first four squares are exact, though, and so are the
powers they make, so that one rounding in sixteen is left (`Binary64.near_tenTo`). That is less than
a hundred thousandth of a raw integer (`Binary64.near_scaled`).
-/

namespace BusMaster

namespace Binary64

variable {x y r : Binary64} {c d i k n : Nat}

/-! ## Products of large numbers -/

/-- A product far below the greatest number is finite. -/
theorem isFinite_mul (hx : x.isFinite = true) (hy : y.isFinite = true)
    (small : |x.toRat * y.toRat| < 2 ^ k) (hk : k ≤ 1022) : (x.mul y).isFinite = true := by
  have number {z : Binary64} (hz : z.isFinite = true) :
      z.isNaN = false ∧ z.isInfinite = false := by
    rw [isFinite, decide_eq_true_eq] at hz
    exact ⟨decide_eq_false (Nat.not_lt.2 hz.le), decide_eq_false hz.ne⟩
  obtain ⟨u, hu, unit⟩ : ∃ u, u = 1074 ∧ Format.binary64.one = 2 ^ u :=
    ⟨_, rfl, Nat.one_shiftLeft _⟩
  have below : x.magnitude * y.magnitude / Format.binary64.one < 2 ^ (k + u) := by
    have hone := cast_one_pos
    rw [abs_mul, abs_toRat, abs_toRat, div_mul_div_comm,
      div_lt_iff₀ (mul_pos hone hone)] at small
    rw [Nat.pow_add, ← unit]
    generalize Format.binary64.one = one at *
    refine Nat.div_lt_of_lt_mul ?_
    rw [Nat.mul_left_comm]
    exact_mod_cast small
  rw [mul]
  simp only [number hx, number hy, Bool.or_self, Bool.false_eq_true, if_false]
  rw [isFinite_assemble (nearest_le_infinity ..)]
  exact nearest_lt_infinity below (by omega)

/-! ## Counting roundings -/

/-- what one rounding takes of a value that is not among the smallest, and a little more -/
def part : ℚ := 1 / 2 ^ 53 + 1 / 2 ^ 60

/-- a finite number that stands for a power of ten after so many roundings -/
structure Near (roundings : Nat) (x : Binary64) (k : Nat) : Prop where
  finite : x.isFinite = true
  off : |x.toRat - 10 ^ k| ≤ ((1 + part) ^ roundings - 1) * 10 ^ k

theorem one_le_part_pow (n : Nat) : 1 ≤ (1 + part) ^ n :=
  one_le_pow₀ (by norm_num [part])

theorem part_pow_le (n : Nat) : (1 + part) ^ n ≤ 2 ^ n :=
  pow_le_pow_left₀ (by norm_num [part]) (by norm_num [part]) n

theorem ten_pow_le (h : k ≤ 258) : (10 : ℚ) ^ k ≤ 2 ^ 860 :=
  calc (10 : ℚ) ^ k
    _ ≤ 10 ^ (3 * 86) := pow_le_pow_right₀ (by norm_num) h
    _ = (10 ^ 3) ^ 86 := pow_mul ..
    _ ≤ (2 ^ 10) ^ 86 := pow_le_pow_left₀ (by norm_num) (by norm_num) 86
    _ = 2 ^ (10 * 86) := (pow_mul ..).symm

theorem tiny_pos : 0 < tiny := div_pos (by norm_num) cast_one_pos

/-- Half of the smallest unit stays small, however many decimal places are undone. -/
theorem ten_pow_mul_tiny_le (h : k ≤ 258) : 10 ^ k * tiny ≤ 1 / 2 ^ 60 := by
  obtain ⟨u, hu, unit⟩ : ∃ u, u = 1074 ∧ Format.binary64.one = 2 ^ u :=
    ⟨_, rfl, Nat.one_shiftLeft _⟩
  have large := ten_pow_le h
  have room : (2 : ℚ) ^ 860 * 2 ^ 59 ≤ 2 ^ u := by
    rw [← pow_add]
    exact pow_le_pow_right₀ (by norm_num) (by omega)
  generalize (2 : ℚ) ^ 860 = most at *
  rw [tiny, unit, Nat.cast_pow, Nat.cast_two, div_div, mul_one_div,
    div_le_div_iff₀ (by positivity) (by positivity)]
  linarith

theorem tiny_le : tiny ≤ 1 / 2 ^ 60 := by
  have := ten_pow_mul_tiny_le (Nat.zero_le 258)
  rwa [pow_zero, one_mul] at this

namespace Near

theorem abs_le (h : Near c x k) : |x.toRat| ≤ (1 + part) ^ c * 10 ^ k := by
  have := abs_sub_abs_le_abs_sub x.toRat (10 ^ k)
  rw [abs_of_nonneg (show (0 : ℚ) ≤ 10 ^ k by positivity)] at this
  linarith [h.off]

/-- **A product has the roundings of both factors and one of its own.** -/
theorem mul (hx : Near c x i) (hy : Near d y k) (few : c + d ≤ 64) (fits : i + k ≤ 256) :
    Near (c + d + 1) (x.mul y) (i + k) := by
  have product : |x.toRat * y.toRat| ≤ (1 + part) ^ (c + d) * 10 ^ (i + k) :=
    calc |x.toRat * y.toRat|
      _ ≤ (1 + part) ^ c * 10 ^ i * ((1 + part) ^ d * 10 ^ k) := by
        rw [abs_mul]
        exact mul_le_mul hx.abs_le hy.abs_le (abs_nonneg _) ((abs_nonneg _).trans hx.abs_le)
      _ = (1 + part) ^ (c + d) * 10 ^ (i + k) := by ring
  have finite : (x.mul y).isFinite = true := by
    refine isFinite_mul hx.finite hy.finite (product.trans_lt ?_) (le_refl 1022)
    calc (1 + part) ^ (c + d) * 10 ^ (i + k)
      _ ≤ 2 ^ 64 * 2 ^ 860 := by
        refine mul_le_mul ?_ (ten_pow_le (by omega)) (by positivity) (by norm_num)
        exact (part_pow_le _).trans (pow_le_pow_right₀ (by norm_num) few)
      _ = 2 ^ (64 + 860) := (pow_add ..).symm
      _ < 2 ^ 1022 := pow_lt_pow_right₀ (by norm_num) (by norm_num)
  refine ⟨finite, ?_⟩
  have rounded := (near_mul finite).2.2
  have exactly : |x.toRat * y.toRat - 10 ^ (i + k)|
      ≤ ((1 + part) ^ (c + d) - 1) * 10 ^ (i + k) :=
    calc |x.toRat * y.toRat - 10 ^ (i + k)|
      _ = |(x.toRat - 10 ^ i) * y.toRat + 10 ^ i * (y.toRat - 10 ^ k)| := by
        congr 1
        ring
      _ ≤ |x.toRat - 10 ^ i| * |y.toRat| + 10 ^ i * |y.toRat - 10 ^ k| := by
        refine (abs_add_le _ _).trans_eq ?_
        rw [abs_mul, abs_mul, abs_of_nonneg (show (0 : ℚ) ≤ 10 ^ i by positivity)]
      _ ≤ ((1 + part) ^ c - 1) * 10 ^ i * ((1 + part) ^ d * 10 ^ k)
          + 10 ^ i * (((1 + part) ^ d - 1) * 10 ^ k) := by
        refine add_le_add (mul_le_mul hx.off hy.abs_le (abs_nonneg _) ?_) ?_
        · exact (abs_nonneg _).trans hx.off
        · exact mul_le_mul_of_nonneg_left hy.off (by positivity)
      _ = ((1 + part) ^ (c + d) - 1) * 10 ^ (i + k) := by ring
  have one_le : 1 ≤ (1 + part) ^ (c + d) * 10 ^ (i + k) :=
    one_le_mul_of_one_le_of_one_le (one_le_part_pow _) (one_le_pow₀ (by norm_num))
  have := abs_sub_le (x.mul y).toRat (x.toRat * y.toRat) (10 ^ (i + k))
  have := tiny_le
  rw [pow_succ, part] at *
  linarith

/-- **Over all digits of the exponent**, a power has as many roundings as the exponent times those of
the base. -/
theorem timesPower (digits : Nat) (hn : n < 2 ^ digits) (hr : Near d r i) (hx : Near c x k)
    (few : (c + 1) * 2 ^ digits ≤ 32 ∧ d + (c + 1) * n ≤ 32)
    (fits : k * 2 ^ digits ≤ 256 ∧ i + k * n ≤ 256) :
    Near (d + (c + 1) * n) (Binary64.timesPower digits r x n) (i + k * n) := by
  induction digits generalizing n d r i c x k with
  | zero =>
    obtain rfl : n = 0 := Nat.lt_one_iff.1 hn
    exact hr
  | succ digits ih =>
    have positive : 0 < 2 ^ digits := Nat.two_pow_pos digits
    rw [Nat.pow_succ] at hn few fits
    have square : c + 1 ≤ (c + 1) * (2 ^ digits * 2) := Nat.le_mul_of_pos_right _ (by omega)
    have exponent : k * 2 ≤ k * (2 ^ digits * 2) := Nat.mul_le_mul_left k (by omega)
    have hxx := hx.mul hx (by omega) (by omega)
    have few' : (c + c + 1 + 1) * 2 ^ digits = (c + 1) * (2 ^ digits * 2) := by ring
    have fits' : (k + k) * 2 ^ digits = k * (2 ^ digits * 2) := by ring
    rw [Binary64.timesPower]
    rcases Nat.even_or_odd' n with ⟨m, rfl | rfl⟩
    · have few'' : (c + c + 1 + 1) * m = (c + 1) * (2 * m) := by ring
      have fits'' : (k + k) * m = k * (2 * m) := by ring
      rw [if_neg (by omega), Nat.mul_div_cancel_left m two_pos, ← few'', ← fits'']
      exact ih (by omega) hr hxx (by omega) (by omega)
    · have few'' : d + c + 1 + (c + c + 1 + 1) * m = d + (c + 1) * (2 * m + 1) := by ring
      have fits'' : i + k + (k + k) * m = i + k * (2 * m + 1) := by ring
      have hrx := hr.mul hx (by omega) (by omega)
      rw [if_pos (by omega), show (2 * m + 1) / 2 = m by omega, ← few'', ← fits'']
      exact ih (by omega) hrx hxx (by omega) (by omega)

/-- A finite number that is the power is so without a rounding. -/
theorem of_exact (finite : x.isFinite = true) (positive : x.negative = false)
    (exact : x.magnitude = 10 ^ k * Format.binary64.one) : Near 0 x k := by
  refine ⟨finite, ?_⟩
  rw [toRat, positive, exact, sign, if_neg Bool.false_ne_true, one_mul, Nat.cast_mul,
    mul_div_cancel_right₀ _ cast_one_pos.ne', Nat.cast_pow, Nat.cast_ofNat, sub_self, abs_zero,
    pow_zero, sub_self, zero_mul]

end Near

/-! ## Powers of ten by squaring -/

theorem timesPower_add (a b : Nat) : timesPower (a + b) r x n
    = timesPower b (timesPower a r x n) ((fun x => x.mul x)^[a] x) (n / 2 ^ a) := by
  induction a generalizing r x n with
  | zero => rw [Nat.zero_add, Nat.pow_zero, Nat.div_one]; rfl
  | succ a ih =>
    rw [Nat.succ_add, timesPower, ih, timesPower, Nat.div_div_eq_div_mul, Nat.pow_succ']
    rfl

theorem timesPower_zero (digits : Nat) : timesPower digits r x 0 = r := by
  induction digits generalizing x with
  | zero => rfl
  | succ digits ih => exact ih

theorem timesPower_mod (digits : Nat) :
    timesPower digits r x (n % 2 ^ digits) = timesPower digits r x n := by
  induction digits generalizing r x n with
  | zero => rfl
  | succ digits ih =>
    rw [timesPower, timesPower, Nat.pow_succ', Nat.mod_mul_right_mod, Nat.mod_mul_right_div_self, ih]

/-- The powers below the sixteenth are exact, and so is the fourth square. -/
theorem near_low : (∀ n < 16, Near 0 (timesPower 4 (ofInt 1) (ofInt 10) n) n) ∧
    Near 0 ((fun x => x.mul x)^[4] (ofInt 10)) 16 := by
  have low : ∀ n < 16, (timesPower 4 (ofInt 1) (ofInt 10) n).isFinite = true ∧
      (timesPower 4 (ofInt 1) (ofInt 10) n).negative = false ∧
      (timesPower 4 (ofInt 1) (ofInt 10) n).magnitude = 10 ^ n * Format.binary64.one := by
    decide +kernel
  refine ⟨fun n h => ?_, .of_exact (by decide +kernel) (by decide +kernel) (by decide +kernel)⟩
  obtain ⟨finite, positive, exact⟩ := low n h
  exact .of_exact finite positive exact

/-- **A power of ten has one rounding in sixteen.** -/
theorem near_tenTo (h : n < 256) : Near (n / 16) (tenTo n) n := by
  have small : n.log2 < 8 := by
    rcases Nat.eq_zero_or_pos n with rfl | positive
    · rw [Nat.log2_zero]
      decide
    · exact (Nat.log2_lt positive.ne').2 h
  obtain ⟨rest, hrest⟩ := Nat.exists_eq_add_of_le (Nat.succ_le_of_lt small)
  -- further digits are zero
  have digits : tenTo n = timesPower (4 + 4) (ofInt 1) (ofInt 10) n := by
    rw [show 4 + 4 = n.log2 + 1 + rest from hrest, timesPower_add,
      Nat.div_eq_of_lt Nat.lt_log2_self, timesPower_zero, tenTo]
  rw [digits, timesPower_add, ← timesPower_mod 4 (r := ofInt 1)]
  have := (near_low.1 (n % 16) (Nat.mod_lt n (by decide))).timesPower (n := n / 16) 4
    (by omega) near_low.2 (by omega) (by omega)
  rwa [Nat.zero_add, Nat.zero_add, Nat.one_mul, Nat.mod_add_div] at this

/-- A power of ten is off by one part in `2 ^ 49` at most. -/
theorem tenTo_off (h : n < 256) : |(tenTo n).toRat - 10 ^ n| ≤ 10 ^ n / 2 ^ 49 := by
  have most : (1 + part) ^ (n / 16) - 1 ≤ 1 / 2 ^ 49 :=
    calc (1 + part) ^ (n / 16) - 1
      _ ≤ (1 + part) ^ 15 - 1 :=
        sub_le_sub_right (pow_le_pow_right₀ (by norm_num [part]) (by omega)) 1
      _ ≤ 1 / 2 ^ 49 := by norm_num [part]
  refine (near_tenTo h).off.trans ?_
  rw [div_eq_mul_one_div, mul_comm]
  exact mul_le_mul_of_nonneg_left most (by positivity)

/-- A power of ten is finite and not zero. -/
theorem tenTo_finite (h : n < 256) : (tenTo n).isFinite = true ∧ (tenTo n).unsigned ≠ 0 := by
  refine ⟨(near_tenTo h).finite, fun zero => ?_⟩
  have value : (tenTo n).toRat = 0 := by
    have none : (tenTo n).magnitude = 0 := by
      rw [magnitude, zero]
      rfl
    rw [toRat, none, Nat.cast_zero, zero_div, mul_zero]
  have off := tenTo_off h
  have positive : (0 : ℚ) < 10 ^ n := by positivity
  rw [value, zero_sub, abs_neg, abs_of_pos positive] at off
  linarith

/-! ## Decimal places undone -/

/-- **Undoing decimal places is nearly exact.** A number that stands for `q` as nearly as the format
can say it, times a power of ten, is off by less than a hundred thousandth, as long as the product
is that of a raw integer. -/
theorem near_scaled {q : ℚ} (h : n < 256) (stands : |x.toRat - q| ≤ |q| / 2 ^ 53 + tiny)
    (finite : (x.mul (tenTo n)).isFinite = true)
    (small : |(x.mul (tenTo n)).toRat| ≤ 2 ^ 32 + 1) :
    |(x.mul (tenTo n)).toRat - q * 10 ^ n| ≤ 1 / 2 ^ 16 := by
  obtain ⟨-, -, product⟩ := near_mul finite
  have power := tenTo_off h
  have tiny_le := tiny_le
  have scaled_tiny := ten_pow_mul_tiny_le (show n ≤ 258 by omega)
  have positive : (0 : ℚ) < 10 ^ n := by positivity
  generalize (x.mul (tenTo n)).toRat = p at *
  generalize (tenTo n).toRat = t at *
  generalize x.toRat = r at *
  generalize (10 : ℚ) ^ n = T at *
  have product_le : |r * t| ≤ 2 ^ 32 + 2 := by
    have := abs_sub_abs_le_abs_sub (r * t) p
    rw [abs_sub_comm] at this
    linarith
  have of_power : |r * t - r * T| ≤ |r| * T / 2 ^ 49 := by
    rw [← mul_sub, abs_mul, mul_div_assoc]
    exact mul_le_mul_of_nonneg_left power (abs_nonneg r)
  have size : |r| * T ≤ 2 ^ 32 + 3 := by
    have := abs_sub_abs_le_abs_sub (r * T) (r * t)
    rw [abs_sub_comm, abs_mul r T, abs_of_pos positive] at this
    linarith
  have of_source : |r * T - q * T| ≤ |q| * T / 2 ^ 53 + T * tiny := by
    have := mul_le_mul_of_nonneg_right stands positive.le
    rw [← sub_mul, abs_mul, abs_of_pos positive]
    linarith
  have source : |q| * T ≤ 2 ^ 32 + 4 := by
    have := abs_sub_abs_le_abs_sub (q * T) (r * T)
    rw [abs_sub_comm, abs_mul q, abs_mul r, abs_of_pos positive] at this
    linarith
  calc |p - q * T|
    _ ≤ |p - r * t| + |r * t - q * T| := abs_sub_le ..
    _ ≤ |p - r * t| + (|r * t - r * T| + |r * T - q * T|) :=
      add_le_add_right (abs_sub_le ..) _
    _ ≤ 1 / 2 ^ 16 := by linarith

end Binary64

end BusMaster
