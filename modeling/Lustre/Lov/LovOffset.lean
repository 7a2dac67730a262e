import Lustre.Library.Raid0
import Lustre.Library.Word
import Lustre.Ldlm.ExtentPolicy

/-!
# Offsets in a striped file (lov/lov_offset.c)

A plain (RAID-0) layout stripes a file over `lsm_stripe_count` objects in chunks
of `lsm_stripe_size` bytes.  `lov_stripe_number` finds the stripe that holds a
byte of the file, `lov_stripe_offset` finds where a byte lands in a given
stripe, moving it to the start of that stripe's next chunk or to the end of its
last one when it is not in the stripe, `lov_stripe_size` turns the size of one
object back into the size of the file, and `lov_stripe_intersects` finds the
range of an object that holds bytes of a range of the file.

The words are modelled as the code computes them: `loff_t` values as 64-bit
words compared as signed where the code compares two `loff_t`s, the `int`
stripe number as `Int32`, and `lov_do_div64` as unsigned division, with a zero
divisor a trap (`none`).  Each function is shown to compute the corresponding
map of `Raid0`, and from that the mapping is inverted by `lov_stripe_size` and
the intersection is exact.
-/

namespace Lustre
namespace Lov

open Raid0

/-- The fields of `struct lov_stripe_md` that the offset functions read. -/
structure LovStripeMd where
  lsmStripeSize : UInt32
  lsmStripeCount : UInt16
  deriving Repr, DecidableEq

/-- `lsm_stripe_by_index_plain`: the width of one round of stripes,
`(loff_t)lsm_stripe_size * lsm_stripe_count`. -/
def lsmStripeByIndexPlain (lsm : LovStripeMd) : UInt64 :=
  lsm.lsmStripeSize.toUInt64 * lsm.lsmStripeCount.toUInt64

/-- `lsm_stripe_by_offset_plain`: the same width. -/
def lsmStripeByOffsetPlain (lsm : LovStripeMd) : UInt64 := lsmStripeByIndexPlain lsm

/-- `lov_do_div64(n, base)` on a 64-bit build: the remainder, and the quotient
that the macro leaves in `n`. -/
def lovDoDiv64 (n base : UInt64) : Option (UInt64 × UInt64) :=
  if base = 0 then none else some (n % base, n / base)

/-- `a < b` for two `loff_t` values. -/
def loffLt (a b : UInt64) : Bool := decide (a.toInt64 < b.toInt64)

/-- `(loff_t)stripeno` for an `int` stripe number. -/
def loffOfInt (stripeno : Int32) : UInt64 := stripeno.toInt64.toUInt64

/-- `lov_stripe_size`: the size of the file whose object `stripeno` has
`ostSize` bytes. -/
def lovStripeSize (lsm : LovStripeMd) (ostSize : UInt64) (stripeno : Int32) : Option UInt64 :=
  if ostSize = 0 then some 0
  else
    let ssize := lsm.lsmStripeSize.toUInt64
    let swidth := lsmStripeByIndexPlain lsm
    match lovDoDiv64 ostSize ssize with
    | none => none
    | some (stripeSize, ostSize) =>
      if stripeSize ≠ 0 then some (ostSize * swidth + loffOfInt stripeno * ssize + stripeSize)
      else some ((ostSize - 1) * swidth + loffOfInt (stripeno + 1) * ssize)

/-- `lov_stripe_offset`: the side on which byte `lovOff` of the file falls of
stripe `stripeno` (`-1` before its chunk, `1` after it, `0` in it) and the
offset in the stripe's object it is moved to (`*obdoff`). -/
def lovStripeOffset (lsm : LovStripeMd) (lovOff : UInt64) (stripeno : Int32) : Option (Int32 × UInt64) :=
  if lovOff = Ldlm.obdObjectEof then some (0, Ldlm.obdObjectEof)
  else
    let ssize := lsm.lsmStripeSize.toUInt64
    match lovDoDiv64 lovOff (lsmStripeByIndexPlain lsm) with
    | none => none
    | some (stripeOff, lovOff) =>
      let thisStripe := loffOfInt stripeno * ssize
      -- the first test compares two `loff_t`s, the second an `loff_t` with the
      -- `unsigned long` ssize, which C makes unsigned
      let (stripeOff, ret) : UInt64 × Int32 :=
        if loffLt stripeOff thisStripe then (0, -1)
        else if stripeOff - thisStripe ≥ ssize then (ssize, 1)
        else (stripeOff - thisStripe, 0)
      some (ret, lovOff * ssize + stripeOff)

/-- `lov_stripe_intersects`: whether stripe `stripeno` holds bytes of the file
extent `[start, stop]`, with the extent of its object that holds them
(`*obd_start`, `*obd_end`). -/
def lovStripeIntersects (lsm : LovStripeMd) (stripeno : Int32) (start stop : UInt64) :
    Option (Bool × UInt64 × UInt64) :=
  match lovStripeOffset lsm start stripeno, lovStripeOffset lsm stop stripeno with
  | some (startSide, obdStart), some (endSide, obdEnd) =>
    if startSide ≠ 0 ∧ endSide ≠ 0 ∧ obdStart = obdEnd then some (false, obdStart, obdEnd)
    -- an end moved forward past the stripe is moved back to the byte before
    else some (true, obdStart, if endSide ≠ 0 then obdEnd - 1 else obdEnd)
  | _, _ => none

/-- `lov_stripe_number`: the stripe that holds byte `lovOff` of the file. -/
def lovStripeNumber (lsm : LovStripeMd) (lovOff : UInt64) : Option Int32 :=
  match lovDoDiv64 lovOff (lsmStripeByOffsetPlain lsm) with
  | none => none
  | some (stripeOff, _) =>
    match lovDoDiv64 stripeOff lsm.lsmStripeSize.toUInt64 with
    | none => none
    | some (_, stripeOff) => some stripeOff.toUInt32.toInt32

theorem lovDoDiv64_of_ne {n base : UInt64} (nonzero : base ≠ 0) :
    lovDoDiv64 n base = some (n % base, n / base) := if_neg nonzero

/-! ## The words in unbounded numbers -/

section Layout

variable {lsm : LovStripeMd}

theorem toNat_lsmStripeByIndexPlain (lsm : LovStripeMd) :
    (lsmStripeByIndexPlain lsm).toNat = lsm.lsmStripeSize.toNat * lsm.lsmStripeCount.toNat := by
  have fits : lsm.lsmStripeSize.toNat * lsm.lsmStripeCount.toNat < 2 ^ 32 * 2 ^ 16 :=
    Nat.mul_lt_mul'' lsm.lsmStripeSize.toNat_lt lsm.lsmStripeCount.toNat_lt
  rw [lsmStripeByIndexPlain, UInt64.toNat_mul_of_lt] <;> simp only [UInt32.toNat_toUInt64, UInt16.toNat_toUInt64]
  omega

/-- A `loff_t` test between a remainder of the width and a stripe's start is
the test in unbounded numbers. -/
theorem loffLt_iff {a b : UInt64} (aSmall : a.toNat < 2 ^ 63) (bSmall : b.toNat < 2 ^ 63) :
    loffLt a b = true ↔ a.toNat < b.toNat := by
  rw [loffLt, decide_eq_true_iff, UInt64.toInt64_lt_toInt64_iff aSmall bSmall]

/-- The start `stripeno * ssize` of a stripe in a round does not wrap. -/
theorem toNat_thisStripe {j : Int32} (nonneg : 0 ≤ j) :
    (loffOfInt j * lsm.lsmStripeSize.toUInt64).toNat = j.toNatClampNeg * lsm.lsmStripeSize.toNat := by
  have fits : j.toNatClampNeg * lsm.lsmStripeSize.toNat < 2 ^ 31 * 2 ^ 32 :=
    Nat.mul_lt_mul'' j.toNatClampNeg_lt lsm.lsmStripeSize.toNat_lt
  rw [UInt64.toNat_mul_of_lt] <;> rw [loffOfInt, Int32.toNat_toUInt64_toInt64 nonneg, UInt32.toNat_toUInt64]
  omega

/-! ## Each function computes its map of `Raid0` -/

variable (sizePositive : 0 < lsm.lsmStripeSize.toNat) (countPositive : 0 < lsm.lsmStripeCount.toNat)
include sizePositive

theorem ssize_ne_zero : lsm.lsmStripeSize.toUInt64 ≠ 0 := by
  intro zero
  have := congrArg UInt64.toNat zero
  rw [UInt32.toNat_toUInt64] at this
  simp only [UInt64.toNat_zero] at this
  omega

include countPositive

theorem lsmStripeByIndexPlain_ne_zero : lsmStripeByIndexPlain lsm ≠ 0 := by
  intro zero
  have := toNat_lsmStripeByIndexPlain lsm
  rw [zero, UInt64.toNat_zero] at this
  exact Nat.ne_of_lt (Nat.mul_pos sizePositive countPositive) this

/-- `lov_stripe_number` gives the stripe of `Raid0`. -/
theorem lovStripeNumber_eq (off : UInt64) :
    ∃ k, lovStripeNumber lsm off = some k ∧ 0 ≤ k ∧
      k.toNatClampNeg = target lsm.lsmStripeSize.toNat lsm.lsmStripeCount.toNat off.toNat := by
  have value : (off % lsmStripeByIndexPlain lsm / lsm.lsmStripeSize.toUInt64).toNat =
      target lsm.lsmStripeSize.toNat lsm.lsmStripeCount.toNat off.toNat := by
    rw [UInt64.toNat_div, UInt64.toNat_mod, toNat_lsmStripeByIndexPlain, UInt32.toNat_toUInt64]
    rfl
  have small : target lsm.lsmStripeSize.toNat lsm.lsmStripeCount.toNat off.toNat < 2 ^ 31 := by
    have := target_lt sizePositive countPositive off.toNat
    have := lsm.lsmStripeCount.toNat_lt
    omega
  obtain ⟨nonneg, number⟩ := UInt64.toNatClampNeg_toInt32_toUInt32 (value ▸ small)
  unfold lovStripeNumber lsmStripeByOffsetPlain
  rw [lovDoDiv64_of_ne (lsmStripeByIndexPlain_ne_zero sizePositive countPositive)]
  dsimp only
  rw [lovDoDiv64_of_ne (ssize_ne_zero sizePositive)]
  exact ⟨_, rfl, nonneg, number.trans value⟩

/-- `lov_stripe_offset` moves a byte to its ceiling on the stripe, and says
"in the stripe" exactly when the byte is on it. -/
theorem lovStripeOffset_eq {off : UInt64} (notEof : off ≠ Ldlm.obdObjectEof) {j : Int32} (nonneg : 0 ≤ j) :
    ∃ side o, lovStripeOffset lsm off j = some (side, o) ∧
      o.toNat = ceilOffset lsm.lsmStripeSize.toNat lsm.lsmStripeCount.toNat j.toNatClampNeg off.toNat ∧
      (side = 0 ↔ target lsm.lsmStripeSize.toNat lsm.lsmStripeCount.toNat off.toNat = j.toNatClampNeg) := by
  have widthNat := toNat_lsmStripeByIndexPlain lsm
  have remNat : (off % lsmStripeByIndexPlain lsm).toNat =
      off.toNat % (lsm.lsmStripeSize.toNat * lsm.lsmStripeCount.toNat) := by
    rw [UInt64.toNat_mod, widthNat]
  have remSmall : off.toNat % (lsm.lsmStripeSize.toNat * lsm.lsmStripeCount.toNat) < 2 ^ 48 := by
    have := Nat.mod_lt off.toNat (Nat.mul_pos sizePositive countPositive)
    have := Nat.mul_lt_mul'' lsm.lsmStripeSize.toNat_lt lsm.lsmStripeCount.toNat_lt
    omega
  have thisNat : (loffOfInt j * lsm.lsmStripeSize.toUInt64).toNat = _ := toNat_thisStripe nonneg
  have thisSmall : j.toNatClampNeg * lsm.lsmStripeSize.toNat < 2 ^ 63 := by
    have := Nat.mul_lt_mul'' j.toNatClampNeg_lt lsm.lsmStripeSize.toNat_lt
    omega
  -- `lov_off * ssize + stripe_off` does not wrap once its value is the ceiling
  have obdoff : ∀ t : UInt64,
      off.toNat / (lsm.lsmStripeSize.toNat * lsm.lsmStripeCount.toNat) * lsm.lsmStripeSize.toNat + t.toNat =
        ceilOffset lsm.lsmStripeSize.toNat lsm.lsmStripeCount.toNat j.toNatClampNeg off.toNat →
      (off / lsmStripeByIndexPlain lsm * lsm.lsmStripeSize.toUInt64 + t).toNat =
        ceilOffset lsm.lsmStripeSize.toNat lsm.lsmStripeCount.toNat j.toNatClampNeg off.toNat := by
    intro t value
    have atMost := ceilOffset_le countPositive (s := lsm.lsmStripeSize.toNat) (k := j.toNatClampNeg) off.toNat
    have bound := off.toNat_lt
    have roundNat : (off / lsmStripeByIndexPlain lsm * lsm.lsmStripeSize.toUInt64).toNat =
        off.toNat / (lsm.lsmStripeSize.toNat * lsm.lsmStripeCount.toNat) * lsm.lsmStripeSize.toNat := by
      rw [UInt64.toNat_mul_of_lt] <;> rw [UInt64.toNat_div, widthNat, UInt32.toNat_toUInt64]
      omega
    rw [UInt64.toNat_add_of_lt (by rw [roundNat]; omega), roundNat, value]
  unfold lovStripeOffset
  rw [if_neg notEof, lovDoDiv64_of_ne (lsmStripeByIndexPlain_ne_zero sizePositive countPositive)]
  dsimp only
  by_cases early : off.toNat % (lsm.lsmStripeSize.toNat * lsm.lsmStripeCount.toNat) <
      j.toNatClampNeg * lsm.lsmStripeSize.toNat
  · -- before the stripe's chunk: moved to its start
    rw [if_pos ((loffLt_iff (by rw [remNat]; omega) (by rw [thisNat]; omega)).2 (by rw [remNat, thisNat]; exact early))]
    refine ⟨-1, _, rfl, obdoff 0 (by rw [ceilOffset, if_pos early]; rfl), ?_⟩
    rw [target_eq_iff sizePositive]
    simp only [show (-1 : Int32) ≠ 0 by decide, false_iff]
    omega
  · have notEarly : ¬loffLt (off % lsmStripeByIndexPlain lsm) (loffOfInt j * lsm.lsmStripeSize.toUInt64) = true := by
      rw [loffLt_iff (by rw [remNat]; omega) (by rw [thisNat]; omega), remNat, thisNat]
      exact early
    have within : loffOfInt j * lsm.lsmStripeSize.toUInt64 ≤ off % lsmStripeByIndexPlain lsm := by
      rw [UInt64.le_iff_toNat_le, remNat, thisNat]
      omega
    have intoNat : (off % lsmStripeByIndexPlain lsm - loffOfInt j * lsm.lsmStripeSize.toUInt64).toNat =
        off.toNat % (lsm.lsmStripeSize.toNat * lsm.lsmStripeCount.toNat) - j.toNatClampNeg * lsm.lsmStripeSize.toNat := by
      rw [UInt64.toNat_sub_of_le _ _ within, remNat, thisNat]
    rw [if_neg notEarly]
    by_cases late : lsm.lsmStripeSize.toNat ≤
        off.toNat % (lsm.lsmStripeSize.toNat * lsm.lsmStripeCount.toNat) - j.toNatClampNeg * lsm.lsmStripeSize.toNat
    · -- past the stripe's chunk: moved to its end
      rw [if_pos (by rw [ge_iff_le, UInt64.le_iff_toNat_le, intoNat, UInt32.toNat_toUInt64]; exact late)]
      refine ⟨1, _, rfl, obdoff _ (by rw [ceilOffset, if_neg early, if_pos late, UInt32.toNat_toUInt64]), ?_⟩
      rw [target_eq_iff sizePositive]
      simp only [show (1 : Int32) ≠ 0 by decide, false_iff]
      omega
    · -- in the stripe's chunk
      rw [if_neg (by rw [ge_iff_le, UInt64.le_iff_toNat_le, intoNat, UInt32.toNat_toUInt64]; exact late)]
      refine ⟨0, _, rfl, obdoff _ (by rw [ceilOffset, if_neg early, if_neg late, intoNat]), ?_⟩
      rw [target_eq_iff sizePositive]
      simp only [true_iff]
      omega

/-- `lov_stripe_size` gives one past the byte of the file at the last offset of
the object. -/
theorem lovStripeSize_eq {n : UInt64} (nonzero : n ≠ 0) {k : Int32} (nonneg : 0 ≤ k)
    (kBelow : k.toNatClampNeg < lsm.lsmStripeCount.toNat)
    (fits : fileOffset lsm.lsmStripeSize.toNat lsm.lsmStripeCount.toNat k.toNatClampNeg (n.toNat - 1) + 1 < 2 ^ 64) :
    ∃ v, lovStripeSize lsm n k = some v ∧
      v.toNat = fileOffset lsm.lsmStripeSize.toNat lsm.lsmStripeCount.toNat k.toNatClampNeg (n.toNat - 1) + 1 := by
  have widthNat := toNat_lsmStripeByIndexPlain lsm
  have remNat : (n % lsm.lsmStripeSize.toUInt64).toNat = n.toNat % lsm.lsmStripeSize.toNat := by
    rw [UInt64.toNat_mod, UInt32.toNat_toUInt64]
  have quotNat : (n / lsm.lsmStripeSize.toUInt64).toNat = n.toNat / lsm.lsmStripeSize.toNat := by
    rw [UInt64.toNat_div, UInt32.toNat_toUInt64]
  have positive : 0 < n.toNat := by
    rw [Nat.pos_iff_ne_zero]
    intro zero
    exact nonzero (UInt64.toNat_inj.1 (by rw [zero, UInt64.toNat_zero]))
  unfold lovStripeSize
  rw [if_neg nonzero]
  dsimp only
  rw [lovDoDiv64_of_ne (ssize_ne_zero sizePositive)]
  dsimp only
  by_cases whole : n.toNat % lsm.lsmStripeSize.toNat = 0
  · -- the object ends on a chunk boundary: the file ends with the chunk
    have remZero : n % lsm.lsmStripeSize.toUInt64 = 0 := UInt64.toNat_inj.1 (by rw [remNat, whole, UInt64.toNat_zero])
    rw [if_neg (not_not.2 remZero)]
    refine ⟨_, rfl, ?_⟩
    rw [fileOffset_pred_of_mod_eq_zero sizePositive positive whole] at fits ⊢
    have rounds : 0 < n.toNat / lsm.lsmStripeSize.toNat :=
      Nat.div_pos (Nat.le_of_dvd positive (Nat.dvd_of_mod_eq_zero whole)) sizePositive
    obtain ⟨nextNonneg, next⟩ := Int32.toNatClampNeg_add_one nonneg (by have := lsm.lsmStripeCount.toNat_lt; omega)
    have prevNat : (n / lsm.lsmStripeSize.toUInt64 - 1).toNat = n.toNat / lsm.lsmStripeSize.toNat - 1 := by
      rw [UInt64.toNat_sub_of_le _ _ (by rw [UInt64.le_iff_toNat_le, quotNat, UInt64.toNat_one]; omega), quotNat,
        UInt64.toNat_one]
    have roundsNat : ((n / lsm.lsmStripeSize.toUInt64 - 1) * lsmStripeByIndexPlain lsm).toNat =
        (n.toNat / lsm.lsmStripeSize.toNat - 1) * (lsm.lsmStripeSize.toNat * lsm.lsmStripeCount.toNat) := by
      rw [UInt64.toNat_mul_of_lt] <;> rw [prevNat, widthNat]
      omega
    have lastNat : (loffOfInt (k + 1) * lsm.lsmStripeSize.toUInt64).toNat =
        (k.toNatClampNeg + 1) * lsm.lsmStripeSize.toNat := by
      rw [toNat_thisStripe nextNonneg, next]
    rw [UInt64.toNat_add_of_lt (by rw [roundsNat, lastNat]; omega), roundsNat, lastNat]
  · -- the object ends inside a chunk
    have remNonzero : n % lsm.lsmStripeSize.toUInt64 ≠ 0 := fun zero => whole (by rw [← remNat, zero, UInt64.toNat_zero])
    rw [if_pos remNonzero]
    refine ⟨_, rfl, ?_⟩
    rw [fileOffset_pred_of_mod_ne_zero sizePositive whole] at fits ⊢
    have roundsNat : (n / lsm.lsmStripeSize.toUInt64 * lsmStripeByIndexPlain lsm).toNat =
        n.toNat / lsm.lsmStripeSize.toNat * (lsm.lsmStripeSize.toNat * lsm.lsmStripeCount.toNat) := by
      rw [UInt64.toNat_mul_of_lt] <;> rw [quotNat, widthNat]
      omega
    have chunkNat : (loffOfInt k * lsm.lsmStripeSize.toUInt64).toNat = _ := toNat_thisStripe nonneg
    have headNat : (n / lsm.lsmStripeSize.toUInt64 * lsmStripeByIndexPlain lsm +
        loffOfInt k * lsm.lsmStripeSize.toUInt64).toNat =
        n.toNat / lsm.lsmStripeSize.toNat * (lsm.lsmStripeSize.toNat * lsm.lsmStripeCount.toNat) +
          k.toNatClampNeg * lsm.lsmStripeSize.toNat := by
      rw [UInt64.toNat_add_of_lt (by rw [roundsNat, chunkNat]; omega), roundsNat, chunkNat]
    rw [UInt64.toNat_add_of_lt (by rw [headNat, remNat]; omega), headNat, remNat]

end Layout

/-! ## The mapping is inverted by `lov_stripe_size` -/

/-- For every byte of the file below `OBD_OBJECT_EOF`, `lov_stripe_offset` at
the byte's stripe puts it in the stripe at offset
`(off / swidth) * ssize + (off mod swidth - k * ssize)`, every other stripe
reports it outside, and `lov_stripe_size` of one past that offset is one past
the byte. -/
theorem lovStripeSize_lovStripeOffset_inverse (lsm : LovStripeMd) (off : UInt64)
    (sizePositive : 0 < lsm.lsmStripeSize.toNat) (countPositive : 0 < lsm.lsmStripeCount.toNat)
    (belowEof : off < Ldlm.obdObjectEof) :
    ∃ k o, lovStripeNumber lsm off = some k ∧ lovStripeOffset lsm off k = some (0, o) ∧
      (o.toNat : Int) = ((off.toNat / (lsmStripeByIndexPlain lsm).toNat * lsm.lsmStripeSize.toNat : Nat) : Int) +
        (((off.toNat % (lsmStripeByIndexPlain lsm).toNat : Nat) : Int) - k.toInt * lsm.lsmStripeSize.toNat) ∧
      (∀ j : Int32, 0 ≤ j → j ≠ k → ∃ side obdoff, lovStripeOffset lsm off j = some (side, obdoff) ∧ side ≠ 0) ∧
      lovStripeSize lsm (o + 1) k = some (off + 1) := by
  have notEof : off ≠ Ldlm.obdObjectEof := UInt64.ne_of_lt belowEof
  obtain ⟨k, number, nonneg, onStripe⟩ := lovStripeNumber_eq sizePositive countPositive off
  obtain ⟨side, o, offset, value, sideZero⟩ := lovStripeOffset_eq sizePositive countPositive notEof nonneg
  obtain rfl : side = 0 := sideZero.2 onStripe.symm
  have kBelow : k.toNatClampNeg < lsm.lsmStripeCount.toNat :=
    onStripe ▸ target_lt sizePositive countPositive off.toNat
  have back : fileOffset lsm.lsmStripeSize.toNat lsm.lsmStripeCount.toNat k.toNatClampNeg o.toNat = off.toNat := by
    rw [value]
    exact fileOffset_ceilOffset_of_target sizePositive onStripe.symm
  have atMost : o.toNat ≤ off.toNat := value ▸ ceilOffset_le countPositive off.toNat
  have offBelow : off.toNat + 1 < 2 ^ 64 := by
    rw [UInt64.lt_iff_toNat_lt, show Ldlm.obdObjectEof.toNat = 2 ^ 64 - 1 from rfl] at belowEof
    omega
  refine ⟨k, o, number, offset, ?_, ?_, ?_⟩
  · -- the byte is in its stripe's chunk, so the ceiling is the third branch
    obtain ⟨lower, upper⟩ := (target_eq_iff sizePositive).1 onStripe.symm
    have stripeInt : (k.toNatClampNeg : Int) = k.toInt := Int32.cast_toNatClampNeg k nonneg
    rw [value, ceilOffset, if_neg (Nat.not_lt.2 lower), if_neg (Nat.not_le.2 upper), toNat_lsmStripeByIndexPlain,
      Nat.cast_add, Nat.cast_sub lower, Nat.cast_mul, Nat.cast_mul, stripeInt]
  · -- another stripe of the same side would be the byte's stripe
    intro j jNonneg other
    obtain ⟨side, obdoff, offsetJ, -, sideZeroJ⟩ := lovStripeOffset_eq sizePositive countPositive notEof jNonneg
    refine ⟨side, obdoff, offsetJ, fun zero => other ?_⟩
    have sameNat : j.toNatClampNeg = k.toNatClampNeg := (sideZeroJ.1 zero).symm.trans onStripe.symm
    rw [← Int32.ofNat_toNatClampNeg j jNonneg, ← Int32.ofNat_toNatClampNeg k nonneg, sameNat]
  · -- one past the offset is the size of an object ending at the byte
    have oBelow : o < Ldlm.obdObjectEof := by
      rw [UInt64.lt_iff_toNat_lt, show Ldlm.obdObjectEof.toNat = 2 ^ 64 - 1 from rfl]
      omega
    have succNat : (o + 1).toNat = o.toNat + 1 := UInt64.toNat_add_one_of_lt oBelow
    have nonzero : o + 1 ≠ 0 := fun zero => by
      have := congrArg UInt64.toNat zero
      rw [succNat, UInt64.toNat_zero] at this
      omega
    obtain ⟨v, size, sizeNat⟩ := lovStripeSize_eq sizePositive countPositive nonzero nonneg kBelow
      (by rw [succNat, Nat.add_sub_cancel, back]; exact offBelow)
    rw [size, UInt64.toNat_inj.1 (by rw [sizeNat, succNat, Nat.add_sub_cancel, back,
      UInt64.toNat_add_one_of_lt belowEof] : v.toNat = (off + 1).toNat)]

/-- A layout of three stripes of four bytes: byte 17 is byte 1 of the second
chunk of stripe 1, at offset 5 of its object. -/
theorem lovStripeSize_lovStripeOffset_inverse_at_17 :
    0 < (⟨4, 3⟩ : LovStripeMd).lsmStripeSize.toNat ∧ 0 < (⟨4, 3⟩ : LovStripeMd).lsmStripeCount.toNat ∧
      (17 : UInt64) < Ldlm.obdObjectEof ∧
      ∃ k o, lovStripeNumber ⟨4, 3⟩ 17 = some k ∧ lovStripeOffset ⟨4, 3⟩ 17 k = some (0, o) ∧
        (o.toNat : Int) = ((UInt64.toNat 17 / (lsmStripeByIndexPlain ⟨4, 3⟩).toNat * UInt32.toNat 4 : Nat) : Int) +
          (((UInt64.toNat 17 % (lsmStripeByIndexPlain ⟨4, 3⟩).toNat : Nat) : Int) - k.toInt * UInt32.toNat 4) ∧
        (∀ j : Int32, 0 ≤ j → j ≠ k →
          ∃ side obdoff, lovStripeOffset ⟨4, 3⟩ 17 j = some (side, obdoff) ∧ side ≠ 0) ∧
        lovStripeSize ⟨4, 3⟩ (o + 1) k = some (17 + 1) :=
  ⟨by decide, by decide, by decide,
    lovStripeSize_lovStripeOffset_inverse ⟨4, 3⟩ 17 (by decide) (by decide) (by decide)⟩

/-! ## The intersection is exact -/

section Intersects

variable {lsm : LovStripeMd} (sizePositive : 0 < lsm.lsmStripeSize.toNat)
  (countPositive : 0 < lsm.lsmStripeCount.toNat)
include sizePositive countPositive

/-- `lov_stripe_number` names stripe `k` exactly for the bytes on it. -/
theorem lovStripeNumber_eq_some_iff {k : Int32} (nonneg : 0 ≤ k) (x : UInt64) :
    lovStripeNumber lsm x = some k ↔
      target lsm.lsmStripeSize.toNat lsm.lsmStripeCount.toNat x.toNat = k.toNatClampNeg := by
  obtain ⟨k', number, nonneg', value⟩ := lovStripeNumber_eq sizePositive countPositive x
  rw [number, Option.some_inj, ← value]
  constructor
  · rintro rfl
    rfl
  · intro same
    rw [← Int32.ofNat_toNatClampNeg k' nonneg', ← Int32.ofNat_toNatClampNeg k nonneg, same]

/-- Some byte of `[start, stop]` is on stripe `k` exactly when some offset of
its object holds a byte of `[start, stop]`. -/
theorem exists_lovStripeNumber_iff {k : Int32} (nonneg : 0 ≤ k) (kBelow : k.toNatClampNeg < lsm.lsmStripeCount.toNat)
    {start stop : UInt64} :
    (∃ x : UInt64, start ≤ x ∧ x ≤ stop ∧ lovStripeNumber lsm x = some k) ↔
      ∃ y, start.toNat ≤ fileOffset lsm.lsmStripeSize.toNat lsm.lsmStripeCount.toNat k.toNatClampNeg y ∧
        fileOffset lsm.lsmStripeSize.toNat lsm.lsmStripeCount.toNat k.toNatClampNeg y ≤ stop.toNat := by
  rw [← exists_target_iff_exists_fileOffset sizePositive kBelow]
  constructor
  · rintro ⟨x, low, high, number⟩
    exact ⟨x.toNat, UInt64.le_iff_toNat_le.1 low, UInt64.le_iff_toNat_le.1 high,
      (lovStripeNumber_eq_some_iff sizePositive countPositive nonneg x).1 number⟩
  · rintro ⟨x, low, high, onStripe⟩
    have value : (UInt64.ofNat x).toNat = x := UInt64.toNat_ofNat_of_lt' (Nat.lt_of_le_of_lt high stop.toNat_lt)
    refine ⟨UInt64.ofNat x, ?_, ?_, ?_⟩
    · rw [UInt64.le_iff_toNat_le, value]
      exact low
    · rw [UInt64.le_iff_toNat_le, value]
      exact high
    · rw [lovStripeNumber_eq_some_iff sizePositive countPositive nonneg, value]
      exact onStripe

end Intersects

/-- For every stripe `k` of the layout and every extent `[start, stop]` below
`OBD_OBJECT_EOF`, `lov_stripe_intersects` says whether some byte of the extent
is on stripe `k`, and when it is, `[obd_start, obd_end]` is exactly the set of
offsets of the stripe's object that hold bytes of the extent. -/
theorem lovStripeIntersects_exact (lsm : LovStripeMd) (k : Int32) (start stop : UInt64)
    (sizePositive : 0 < lsm.lsmStripeSize.toNat) (countPositive : 0 < lsm.lsmStripeCount.toNat)
    (nonneg : 0 ≤ k) (kBelow : k.toNatClampNeg < lsm.lsmStripeCount.toNat)
    (ordered : start ≤ stop) (belowEof : stop < Ldlm.obdObjectEof) :
    ∃ hit os oe, lovStripeIntersects lsm k start stop = some (hit, os, oe) ∧
      (hit = true ↔ ∃ x : UInt64, start ≤ x ∧ x ≤ stop ∧ lovStripeNumber lsm x = some k) ∧
      (hit = true → ∀ y : Nat, os.toNat ≤ y ∧ y ≤ oe.toNat ↔
        start.toNat ≤ fileOffset lsm.lsmStripeSize.toNat lsm.lsmStripeCount.toNat k.toNatClampNeg y ∧
          fileOffset lsm.lsmStripeSize.toNat lsm.lsmStripeCount.toNat k.toNatClampNeg y ≤ stop.toNat) := by
  have stopNotEof : stop ≠ Ldlm.obdObjectEof := UInt64.ne_of_lt belowEof
  have startNotEof : start ≠ Ldlm.obdObjectEof := UInt64.ne_of_lt (UInt64.lt_of_le_of_lt ordered belowEof)
  obtain ⟨startSide, os, startOffset, startValue, startOn⟩ :=
    lovStripeOffset_eq sizePositive countPositive startNotEof nonneg
  obtain ⟨endSide, oe, stopOffset, stopValue, stopOn⟩ :=
    lovStripeOffset_eq sizePositive countPositive stopNotEof nonneg
  have ceilLe : os.toNat ≤ oe.toNat := by
    rw [startValue, stopValue]
    exact ceilOffset_mono sizePositive kBelow (UInt64.le_iff_toNat_le.1 ordered)
  -- the offsets holding bytes from `start` on are those from its ceiling on
  have fromStart : ∀ y, start.toNat ≤ fileOffset lsm.lsmStripeSize.toNat lsm.lsmStripeCount.toNat k.toNatClampNeg y ↔
      os.toNat ≤ y := fun y => by
    rw [startValue]
    exact le_fileOffset_iff sizePositive kBelow
  rw [exists_lovStripeNumber_iff sizePositive countPositive nonneg kBelow]
  unfold lovStripeIntersects
  rw [startOffset, stopOffset]
  dsimp only
  by_cases endIn : endSide = 0
  · -- the end is on the stripe: the extent ends at its ceiling
    have upTo : ∀ y, fileOffset lsm.lsmStripeSize.toNat lsm.lsmStripeCount.toNat k.toNatClampNeg y ≤ stop.toNat ↔
        y ≤ oe.toNat := fun y => by
      rw [stopValue]
      exact fileOffset_le_iff_of_target sizePositive kBelow (stopOn.1 endIn)
    rw [if_neg (fun moved => moved.2.1 endIn)]
    refine ⟨true, os, _, rfl, ?_, fun _ y => ?_⟩
    · exact iff_of_true rfl ⟨oe.toNat, (fromStart _).2 ceilLe, (upTo _).2 (Nat.le_refl _)⟩
    · rw [if_neg (not_not.2 endIn), fromStart, upTo]
  · -- the end is off the stripe: the extent ends before its ceiling
    have before : ∀ y, fileOffset lsm.lsmStripeSize.toNat lsm.lsmStripeCount.toNat k.toNatClampNeg y ≤ stop.toNat ↔
        y < oe.toNat := fun y => by
      rw [stopValue]
      exact fileOffset_le_iff_of_ne sizePositive kBelow (mt stopOn.2 endIn)
    -- a hit is an offset from the start's ceiling to before the end's
    have hits : (∃ y, start.toNat ≤ fileOffset lsm.lsmStripeSize.toNat lsm.lsmStripeCount.toNat k.toNatClampNeg y ∧
        fileOffset lsm.lsmStripeSize.toNat lsm.lsmStripeCount.toNat k.toNatClampNeg y ≤ stop.toNat) ↔
        os.toNat < oe.toNat := by
      constructor
      · rintro ⟨y, low, high⟩
        exact Nat.lt_of_le_of_lt ((fromStart y).1 low) ((before y).1 high)
      · intro less
        exact ⟨os.toNat, (fromStart _).2 (Nat.le_refl _), (before _).2 less⟩
    have movedBack : os.toNat < oe.toNat → ∀ y, os.toNat ≤ y ∧ y ≤ (oe - 1).toNat ↔
        start.toNat ≤ fileOffset lsm.lsmStripeSize.toNat lsm.lsmStripeCount.toNat k.toNatClampNeg y ∧
          fileOffset lsm.lsmStripeSize.toNat lsm.lsmStripeCount.toNat k.toNatClampNeg y ≤ stop.toNat := by
      intro less y
      have : oe.toNat ≠ 0 := by omega
      rw [UInt64.toNat_sub_of_le _ _ (by rw [UInt64.le_iff_toNat_le, UInt64.toNat_one]; omega), UInt64.toNat_one,
        fromStart, before]
      omega
    by_cases startIn : startSide = 0
    · -- the start is on the stripe, so the extent holds its byte
      have less : os.toNat < oe.toNat := by
        have atStart : fileOffset lsm.lsmStripeSize.toNat lsm.lsmStripeCount.toNat k.toNatClampNeg os.toNat =
            start.toNat := by
          rw [startValue]
          exact fileOffset_ceilOffset_of_target sizePositive (startOn.1 startIn)
        exact (before _).1 (atStart ▸ UInt64.le_iff_toNat_le.1 ordered)
      rw [if_neg (fun moved => moved.1 startIn)]
      refine ⟨true, os, _, rfl, iff_of_true rfl (hits.2 less), fun _ => ?_⟩
      rw [if_pos endIn]
      exact movedBack less
    · by_cases same : os = oe
      · -- both ends moved to the same offset: no byte of the extent is on the stripe
        rw [if_pos ⟨startIn, endIn, same⟩]
        refine ⟨false, os, oe, rfl, ?_, fun miss => absurd miss Bool.false_ne_true⟩
        rw [hits, same]
        exact iff_of_false Bool.false_ne_true (Nat.lt_irrefl _)
      · have less : os.toNat < oe.toNat :=
          Nat.lt_of_le_of_ne ceilLe (fun eq => same (UInt64.toNat_inj.1 eq))
        rw [if_neg (fun moved => same moved.2.2)]
        refine ⟨true, os, _, rfl, iff_of_true rfl (hits.2 less), fun _ => ?_⟩
        rw [if_pos endIn]
        exact movedBack less

/-- Three stripes of four bytes: bytes 2 to 9 of the file take bytes 4 to 7,
offsets 0 to 3 of the object of stripe 1. -/
theorem lovStripeIntersects_exact_on_2_9 :
    0 < (⟨4, 3⟩ : LovStripeMd).lsmStripeSize.toNat ∧ 0 < (⟨4, 3⟩ : LovStripeMd).lsmStripeCount.toNat ∧
      (0 : Int32) ≤ 1 ∧ (1 : Int32).toNatClampNeg < (⟨4, 3⟩ : LovStripeMd).lsmStripeCount.toNat ∧
      (2 : UInt64) ≤ 9 ∧ (9 : UInt64) < Ldlm.obdObjectEof ∧
      ∃ hit os oe, lovStripeIntersects ⟨4, 3⟩ 1 2 9 = some (hit, os, oe) ∧
        (hit = true ↔ ∃ x : UInt64, 2 ≤ x ∧ x ≤ 9 ∧ lovStripeNumber ⟨4, 3⟩ x = some 1) ∧
        (hit = true → ∀ y : Nat, os.toNat ≤ y ∧ y ≤ oe.toNat ↔
          UInt64.toNat 2 ≤ fileOffset (UInt32.toNat 4) (UInt16.toNat 3) (Int32.toNatClampNeg 1) y ∧
            fileOffset (UInt32.toNat 4) (UInt16.toNat 3) (Int32.toNatClampNeg 1) y ≤ UInt64.toNat 9) :=
  ⟨by decide, by decide, by decide, by decide, by decide, by decide,
    lovStripeIntersects_exact ⟨4, 3⟩ 1 2 9 (by decide) (by decide) (by decide) (by decide) (by decide) (by decide)⟩

end Lov
end Lustre
