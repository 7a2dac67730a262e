import Mathlib.Data.Nat.Bitwise

/-!
# Masks on 64-bit words

C code rounds sizes and offsets with masks: `x & ~(2^k - 1)` clears the low
`k` bits, rounding `x` down to a multiple of `2^k`, and `((x - 1) | (2^k - 1)) + 1`
rounds `x` up to one.  This module gives the value of such masks on `UInt64` in
unbounded arithmetic, and what the two roundings keep: `roundUp_spec` and
`roundDown_spec` say that they move a bound only towards a given aligned value,
with wrap-around at 0 and at the top.  A 32-bit counter that a loop raises
holds the sum of the amounts modulo `2^32` (`UInt32.toNat_foldl_add`).  Sums
and products that fit do not wrap, and the conversions between `int`, `loff_t`
and unsigned words keep small non-negative values.
-/

namespace Nat

/-- Or-ing in the low `k` bits goes to one below the next multiple of `2^k`. -/
theorem or_two_pow_sub_one_eq (x k : Nat) :
    x ||| (2 ^ k - 1) = x / 2 ^ k * 2 ^ k + (2 ^ k - 1) := by
  have below : 2 ^ k - 1 < 2 ^ k := Nat.sub_lt (Nat.two_pow_pos k) Nat.one_pos
  apply Nat.eq_of_testBit_eq
  intro i
  rw [Nat.testBit_or, Nat.mul_comm, Nat.testBit_two_pow_mul_add _ below,
    Nat.testBit_two_pow_sub_one, Nat.testBit_div_two_pow]
  by_cases low : i < k
  · simp [low]
  · simp [low, Nat.sub_add_cancel (Nat.le_of_not_lt low)]

/-- `2^k` divides an or exactly when it divides both sides. -/
theorem two_pow_dvd_or_iff {a b k : Nat} : 2 ^ k ∣ (a ||| b) ↔ 2 ^ k ∣ a ∧ 2 ^ k ∣ b := by
  simp only [Nat.dvd_iff_mod_eq_zero, ← Nat.and_two_pow_sub_one_eq_mod, Nat.and_or_distrib_right,
    Nat.or_eq_zero_iff]

/-- Bit `j` of `x` is clear exactly when `x &&& 2^j` is zero. -/
theorem and_two_pow_eq_zero_iff {x j : Nat} : x &&& 2 ^ j = 0 ↔ x.testBit j = false := by
  constructor
  · intro cleared
    have bit := congrArg (Nat.testBit · j) cleared
    simpa [Nat.testBit_and, Nat.testBit_two_pow] using bit
  · intro clear
    apply Nat.eq_of_testBit_eq
    intro i
    rw [Nat.testBit_and, Nat.testBit_two_pow, Nat.zero_testBit]
    by_cases same : j = i
    · subst same
      simp [clear]
    · simp [same]

/-- The bits of `2^t * m` below `t` are clear. -/
theorem testBit_two_pow_mul_of_lt {t m j : Nat} (below : j < t) : (2 ^ t * m).testBit j = false := by
  simp [Nat.testBit_two_pow_mul, Nat.not_le.mpr below]

/-- Bit `t` of `2^t * m` is set when `m` is odd. -/
theorem testBit_two_pow_mul_self {t m : Nat} (odd : m % 2 = 1) : (2 ^ t * m).testBit t = true := by
  simp [Nat.testBit_two_pow_mul, Nat.testBit_zero, odd]

/-- An or with a number below the alignment of the other is a sum. -/
theorem mul_two_pow_or_eq_add {q b i : Nat} (below : b < 2 ^ i) : q * 2 ^ i ||| b = q * 2 ^ i + b := by
  rw [Nat.mul_comm, Nat.two_pow_add_eq_or_of_lt below]

end Nat

namespace UInt64

/-- The complement of a low-bit mask is the block of the high `64 - k` bits. -/
theorem toNat_not_two_pow_sub_one {k : Nat} (kSmall : k ≤ 64) :
    (~~~(2 ^ k - 1 : Nat).toUInt64).toNat = (2 ^ (64 - k) - 1) <<< k := by
  have split : 2 ^ 64 = 2 ^ (64 - k) * 2 ^ k := by
    rw [← Nat.pow_add]
    congr 1
    omega
  have powPos : 0 < 2 ^ k := Nat.two_pow_pos k
  have powLe : 2 ^ k ≤ 2 ^ 64 := Nat.pow_le_pow_right (by decide) kSmall
  have sizeEq : UInt64.size = 2 ^ 64 := rfl
  rw [UInt64.toNat_not, Nat.toUInt64, UInt64.toNat_ofNat', Nat.shiftLeft_eq,
    Nat.mod_eq_of_lt (by omega), Nat.sub_mul, Nat.one_mul, ← split, sizeEq]
  omega

/-- Clearing the low `k` bits rounds down to a multiple of `2^k`. -/
theorem toNat_and_not_two_pow_sub_one (x : UInt64) {k : Nat} (kSmall : k ≤ 64) :
    (x &&& ~~~(2 ^ k - 1 : Nat).toUInt64).toNat = x.toNat / 2 ^ k * 2 ^ k := by
  have bound := x.toNat_lt
  have shifted : x.toNat / 2 ^ k * 2 ^ k = (x.toNat >>> k) <<< k := by
    simp [Nat.shiftLeft_eq, Nat.shiftRight_eq_div_pow]
  rw [UInt64.toNat_and, toNat_not_two_pow_sub_one kSmall, shifted]
  apply Nat.eq_of_testBit_eq
  intro i
  simp only [Nat.testBit_and, Nat.testBit_shiftLeft, Nat.testBit_two_pow_sub_one,
    Nat.testBit_shiftRight]
  -- bits below `k` are cleared on both sides; bits at or above 64 are zero in `x`
  by_cases low : k ≤ i
  · have index : k + (i - k) = i := by omega
    by_cases high : i < 64
    · simp [low, index, show i - k < 64 - k by omega]
    · have beyond : x.toNat.testBit i = false :=
        Nat.testBit_lt_two_pow
          (lt_of_lt_of_le bound (Nat.pow_le_pow_right (by decide) (by omega)))
      simp [low, index, beyond]
  · simp [low]

/-- `((x - 1) | mask) + 1`, with `mask` the low `k` bits, rounds `x` up to a
multiple of `2^k` and stays at or below any such multiple at or above `x`;
0 stays 0. -/
theorem roundUp_spec {x bound mask : UInt64} {k : Nat} (isMask : mask.toNat = 2 ^ k - 1)
    (below : x ≤ bound) (boundAligned : 2 ^ k ∣ bound.toNat) :
    x ≤ ((x - 1) ||| mask) + 1 ∧ ((x - 1) ||| mask) + 1 ≤ bound ∧
      2 ^ k ∣ (((x - 1) ||| mask) + 1).toNat := by
  by_cases zero : x = 0
  · subst zero
    rw [show (0 - 1 : UInt64) = -1 from rfl, UInt64.neg_one_or, show (-1 : UInt64) + 1 = 0 from rfl]
    exact ⟨UInt64.zero_le, UInt64.zero_le, Nat.dvd_zero _⟩
  · have positive : 1 ≤ x := by
      rw [UInt64.le_iff_toNat_le]
      have : x.toNat ≠ 0 := fun isZero => zero (UInt64.toNat_inj.mp isZero)
      simp only [UInt64.toNat_one]
      omega
    have powPos : 0 < 2 ^ k := Nat.two_pow_pos k
    rw [UInt64.le_iff_toNat_le] at below positive
    simp only [UInt64.toNat_one] at positive
    -- the multiple of `2^k` just above `x - 1` is at most the aligned bound
    have step : (x.toNat - 1) / 2 ^ k < bound.toNat / 2 ^ k :=
      Nat.div_lt_div_of_lt_of_dvd boundAligned (by omega)
    have fits : ((x.toNat - 1) / 2 ^ k + 1) * 2 ^ k ≤ bound.toNat := by
      calc ((x.toNat - 1) / 2 ^ k + 1) * 2 ^ k ≤ bound.toNat / 2 ^ k * 2 ^ k :=
            Nat.mul_le_mul_right _ step
        _ = bound.toNat := Nat.div_mul_cancel boundAligned
    have above : x.toNat - 1 < (x.toNat - 1) / 2 ^ k * 2 ^ k + 2 ^ k := Nat.lt_div_mul_add powPos
    have value : (((x - 1) ||| mask) + 1).toNat = ((x.toNat - 1) / 2 ^ k + 1) * 2 ^ k := by
      rw [UInt64.toNat_add, UInt64.toNat_or, UInt64.toNat_sub_of_le _ _
        (UInt64.le_iff_toNat_le.mpr (by simpa using positive)), isMask, UInt64.toNat_one,
        Nat.or_two_pow_sub_one_eq, Nat.succ_mul]
      have bound := bound.toNat_lt
      rw [Nat.mod_eq_of_lt (by rw [Nat.succ_mul] at fits; omega)]
      omega
    refine ⟨?_, ?_, ?_⟩
    · rw [UInt64.le_iff_toNat_le, value, Nat.succ_mul]
      omega
    · rw [UInt64.le_iff_toNat_le, value]
      exact fits
    · rw [value]
      exact Nat.dvd_mul_left _ _

/-- `((x + 1) & ~mask) - 1`, with `mask` the low `k` bits, rounds `x + 1` down to a
multiple of `2^k` and stays at or above any `low` with `low + 1` such a multiple;
the top value stays where it is. -/
theorem roundDown_spec {x low mask : UInt64} {k : Nat} (isMask : mask.toNat = 2 ^ k - 1)
    (kSmall : k ≤ 64) (above : low ≤ x) (lowAligned : 2 ^ k ∣ (low + 1).toNat) :
    low ≤ ((x + 1) &&& ~~~mask) - 1 ∧ ((x + 1) &&& ~~~mask) - 1 ≤ x ∧
      2 ^ k ∣ ((((x + 1) &&& ~~~mask) - 1) + 1).toNat := by
  by_cases top : x = 0 - 1
  · -- `x + 1` wraps to 0, and so does the rounding
    subst top
    simp only [show (0 - 1 : UInt64) + 1 = 0 from rfl, UInt64.zero_and]
    exact ⟨above, UInt64.le_refl _, by simp⟩
  · have maskEq : mask = (2 ^ k - 1 : Nat).toUInt64 := by
      apply UInt64.toNat_inj.mp
      have powLe : 2 ^ k ≤ 2 ^ 64 := Nat.pow_le_pow_right (by decide) kSmall
      rw [isMask, Nat.toUInt64, UInt64.toNat_ofNat', Nat.mod_eq_of_lt (by omega)]
    have xBelow : x.toNat < 2 ^ 64 - 1 := by
      have := x.toNat_lt
      have : x.toNat ≠ 2 ^ 64 - 1 := fun isTop => top (UInt64.toNat_inj.mp isTop)
      omega
    have succX : (x + 1).toNat = x.toNat + 1 := by
      rw [UInt64.toNat_add, UInt64.toNat_one, Nat.mod_eq_of_lt (by omega)]
    have succLow : (low + 1).toNat = low.toNat + 1 := by
      rw [UInt64.le_iff_toNat_le] at above
      rw [UInt64.toNat_add, UInt64.toNat_one, Nat.mod_eq_of_lt (by omega)]
    rw [succLow] at lowAligned
    rw [UInt64.le_iff_toNat_le] at above
    -- the multiple of `2^k` at or below `x + 1` is at least `low + 1`
    have lowFits : low.toNat + 1 ≤ (x.toNat + 1) / 2 ^ k * 2 ^ k := by
      obtain ⟨c, hc⟩ := lowAligned
      have cBound : c * 2 ^ k ≤ x.toNat + 1 := by
        rw [Nat.mul_comm]
        omega
      rw [hc, Nat.mul_comm]
      exact Nat.mul_le_mul_right _ ((Nat.le_div_iff_mul_le (Nat.two_pow_pos k)).mpr cBound)
    have floorLe := Nat.div_mul_le_self (x.toNat + 1) (2 ^ k)
    have rounded : ((x + 1) &&& ~~~mask).toNat = (x.toNat + 1) / 2 ^ k * 2 ^ k := by
      rw [maskEq, toNat_and_not_two_pow_sub_one _ kSmall, succX]
    have positive : 1 ≤ (x + 1) &&& ~~~mask := by
      rw [UInt64.le_iff_toNat_le, rounded, UInt64.toNat_one]
      omega
    have value : (((x + 1) &&& ~~~mask) - 1).toNat = (x.toNat + 1) / 2 ^ k * 2 ^ k - 1 := by
      rw [UInt64.toNat_sub_of_le _ _ positive, rounded, UInt64.toNat_one]
    refine ⟨?_, ?_, ?_⟩
    · rw [UInt64.le_iff_toNat_le, value]
      omega
    · rw [UInt64.le_iff_toNat_le, value]
      omega
    · rw [UInt64.toNat_add, value, UInt64.toNat_one, Nat.sub_add_cancel (by omega),
        Nat.mod_eq_of_lt (by have := x.toNat_lt; omega)]
      exact Nat.dvd_mul_left _ _

/-- One more than a word below another does not wrap. -/
theorem toNat_add_one_of_lt {a b : UInt64} (below : a < b) : (a + 1).toNat = a.toNat + 1 := by
  have bound := b.toNat_lt
  rw [UInt64.lt_iff_toNat_lt] at below
  rw [UInt64.toNat_add, UInt64.toNat_one, Nat.mod_eq_of_lt (by omega)]

/-- One less than a word above another does not wrap. -/
theorem toNat_sub_one_of_lt {a b : UInt64} (above : b < a) : (a - 1).toNat = a.toNat - 1 := by
  have positive : 1 ≤ a := by
    rw [UInt64.lt_iff_toNat_lt] at above
    rw [UInt64.le_iff_toNat_le, UInt64.toNat_one]
    omega
  rw [UInt64.toNat_sub_of_le _ _ positive, UInt64.toNat_one]

/-- The lower of two words, picked with a test. -/
theorem toNat_ite_lt (a b : UInt64) : (if a < b then a else b).toNat = min a.toNat b.toNat := by
  by_cases less : a < b
  · rw [if_pos less]
    rw [UInt64.lt_iff_toNat_lt] at less
    omega
  · rw [if_neg less]
    rw [UInt64.lt_iff_toNat_lt] at less
    omega

/-- The higher of two words, picked with a test. -/
theorem toNat_ite_gt (a b : UInt64) : (if a > b then a else b).toNat = max a.toNat b.toNat := by
  by_cases more : a > b
  · rw [if_pos more]
    rw [gt_iff_lt, UInt64.lt_iff_toNat_lt] at more
    omega
  · rw [if_neg more]
    rw [gt_iff_lt, UInt64.lt_iff_toNat_lt] at more
    omega

/-- The test `a > b + 1 && b != ~0` that C code writes to keep `b + 1` from
wrapping is the test in unbounded numbers. -/
theorem add_one_lt_and_ne_iff {a b : UInt64} :
    b + 1 < a ∧ b ≠ 0xffffffffffffffff ↔ b.toNat + 1 < a.toNat := by
  have bound := a.toNat_lt
  constructor
  · rintro ⟨below, notTop⟩
    have notTopNat : b.toNat ≠ 2 ^ 64 - 1 := fun top => notTop (UInt64.toNat_inj.mp top)
    rw [UInt64.lt_iff_toNat_lt, UInt64.toNat_add, UInt64.toNat_one,
      Nat.mod_eq_of_lt (by have := b.toNat_lt; omega)] at below
    exact below
  · intro below
    have notTop : b ≠ 0xffffffffffffffff := by
      intro top
      rw [top] at below
      exact absurd below (by simp only [UInt64.reduceToNat]; omega)
    refine ⟨?_, notTop⟩
    rw [UInt64.lt_iff_toNat_lt, UInt64.toNat_add, UInt64.toNat_one, Nat.mod_eq_of_lt (by omega)]
    exact below

/-- The test `a < b - 1 && b != 0` that C code writes to keep `b - 1` from
wrapping is the test in unbounded numbers. -/
theorem lt_sub_one_and_ne_iff {a b : UInt64} : a < b - 1 ∧ b ≠ 0 ↔ a.toNat + 1 < b.toNat := by
  constructor
  · rintro ⟨below, notZero⟩
    have positive : 1 ≤ b := by
      rw [UInt64.le_iff_toNat_le, UInt64.toNat_one]
      have : b.toNat ≠ 0 := fun zero => notZero (UInt64.toNat_inj.mp zero)
      omega
    rw [UInt64.lt_iff_toNat_lt, UInt64.toNat_sub_of_le _ _ positive, UInt64.toNat_one] at below
    omega
  · intro below
    have above : a < b := by
      rw [UInt64.lt_iff_toNat_lt]
      omega
    refine ⟨?_, fun zero => by simp [zero] at below⟩
    rw [UInt64.lt_iff_toNat_lt, toNat_sub_one_of_lt above]
    omega

/-- A sum that fits in 64 bits does not wrap. -/
theorem toNat_add_of_lt {a b : UInt64} (fits : a.toNat + b.toNat < 2 ^ 64) : (a + b).toNat = a.toNat + b.toNat := by
  rw [UInt64.toNat_add, Nat.mod_eq_of_lt fits]

/-- A product that fits in 64 bits does not wrap. -/
theorem toNat_mul_of_lt {a b : UInt64} (fits : a.toNat * b.toNat < 2 ^ 64) : (a * b).toNat = a.toNat * b.toNat := by
  rw [UInt64.toNat_mul, Nat.mod_eq_of_lt fits]

/-- Read as signed 64-bit numbers, words below `2^63` compare as unsigned ones. -/
theorem toInt64_lt_toInt64_iff {a b : UInt64} (aSmall : a.toNat < 2 ^ 63) (bSmall : b.toNat < 2 ^ 63) :
    a.toInt64 < b.toInt64 ↔ a.toNat < b.toNat := by
  rw [Int64.lt_iff_toInt_lt, ← Int64.toInt_toBitVec, ← Int64.toInt_toBitVec, UInt64.toBitVec_toInt64,
    UInt64.toBitVec_toInt64, BitVec.toInt_eq_toNat_of_lt (by simp only [UInt64.toNat_toBitVec]; omega),
    BitVec.toInt_eq_toNat_of_lt (by simp only [UInt64.toNat_toBitVec]; omega)]
  simp only [UInt64.toNat_toBitVec, Int.ofNat_lt]

end UInt64

namespace Int32

/-- Widening a non-negative `int` to a 64-bit word keeps its value. -/
theorem toNat_toUInt64_toInt64 {j : Int32} (nonneg : 0 ≤ j) : j.toInt64.toUInt64.toNat = j.toNatClampNeg := by
  have wide : 0 ≤ j.toInt64 := by
    rw [Int64.le_iff_toInt_le, Int32.toInt_toInt64]
    simpa [Int32.le_iff_toInt_le] using nonneg
  rw [Int64.toNat_toUInt64_of_le wide, Int32.toNatClampNeg_toInt64]

/-- Adding one to a non-negative `int` below the top does not wrap. -/
theorem toNatClampNeg_add_one {j : Int32} (nonneg : 0 ≤ j) (belowTop : j.toNatClampNeg + 1 < 2 ^ 31) :
    0 ≤ j + 1 ∧ (j + 1).toNatClampNeg = j.toNatClampNeg + 1 := by
  have value : 0 ≤ j.toInt := by simpa [Int32.le_iff_toInt_le] using nonneg
  have small : j.toInt + 1 < 2 ^ 31 := by
    have := Int32.cast_toNatClampNeg j nonneg
    omega
  have sum : (j + 1).toInt = j.toInt + 1 := by
    rw [Int32.toInt_add, Int32.toInt_one, Int.bmod_eq_of_le (by omega) (by omega)]
  constructor
  · rw [Int32.le_iff_toInt_le, sum]
    simp only [Int32.toInt_zero]
    omega
  · change (j + 1).toInt.toNat = j.toInt.toNat + 1
    rw [sum]
    omega

end Int32

namespace UInt64

/-- Truncating a small word to an `int` keeps its value. -/
theorem toNatClampNeg_toInt32_toUInt32 {v : UInt64} (small : v.toNat < 2 ^ 31) :
    0 ≤ v.toUInt32.toInt32 ∧ v.toUInt32.toInt32.toNatClampNeg = v.toNat := by
  have value : v.toUInt32.toInt32 = Int32.ofNat v.toNat := by
    rw [← UInt32.toInt32_ofNat']
    rfl
  rw [value, Int32.toNatClampNeg_ofNat_of_lt small]
  refine ⟨?_, rfl⟩
  rw [Int32.le_iff_toInt_le, Int32.toInt_ofNat_of_lt small]
  simp

end UInt64

namespace UInt32

/-- A `__u32` below `2^31` read as an `int` keeps its value. -/
theorem toNatClampNeg_toInt32 {v : UInt32} (small : v.toNat < 2 ^ 31) :
    0 ≤ v.toInt32 ∧ v.toInt32.toNatClampNeg = v.toNat := by
  have value : v.toInt32 = Int32.ofNat v.toNat := by
    rw [← UInt32.toInt32_ofNat', UInt32.ofNat_toNat]
  rw [value, Int32.toNatClampNeg_ofNat_of_lt small]
  refine ⟨?_, rfl⟩
  rw [Int32.le_iff_toInt_le, Int32.toInt_ofNat_of_lt small]
  simp

/-- Reading a `__u32` as an `int` keeps its value modulo `2^32`. -/
theorem toInt_toInt32 (v : UInt32) :
    v.toInt32.toInt = (v.toNat : Int).bmod (2 ^ 32) := by
  rw [show v.toInt32 = Int32.ofBitVec v.toBitVec from rfl, Int32.toInt_ofBitVec,
    BitVec.toInt_eq_toNat_bmod]
  rfl

/-- A counter that a fold raises by `f x` at each `x` that passes `q` holds the
sum of those amounts modulo `2^32`. -/
theorem toNat_foldl_add {α : Type*} (q : α → Bool) (f : α → UInt32) :
    ∀ (l : List α) (init : UInt32),
      (l.foldl (fun acc x => if q x then acc + f x else acc) init).toNat =
        (init.toNat + ((l.filter q).map fun x => (f x).toNat).sum) % 2 ^ 32
  | [], init => by simp [Nat.mod_eq_of_lt init.toNat_lt]
  | x :: l, init => by
    rw [List.foldl_cons, toNat_foldl_add q f l, List.filter_cons]
    cases q x with
    | false => rfl
    | true =>
      simp only [if_true, List.map_cons, List.sum_cons, UInt32.toNat_add]
      omega

end UInt32
