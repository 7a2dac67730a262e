import Mathlib.Data.UInt
import Lustre.Library.Word

/-!
# Server lock volume and grant plan of an LDLM pool

A server namespace keeps a lock pool (`struct ldlm_pool`) with a limit `L` on
its locks, the number `G` of locks granted, a grant plan for the next period
and the server lock volume (SLV) it sends to clients.  Every
`pl_recalc_period` seconds `ldlm_srv_pool_recalc` recomputes the SLV from the
last plan (`ldlm_pool_recalc_slv`), then a new plan (`ldlm_pool_recalc_grant_plan`);
under memory pressure `ldlm_srv_pool_shrink` lowers the SLV.

The model keeps the source's C types: the plan, the granted count and the
grant step are `int`, the limit is read as `__u32`, the SLV and its factor are
`__u64`.  A signed overflow, a shift by the width of `int` or more, and the
division by zero of `do_div` are undefined behaviour, and the model returns
`none` for them.  Unsigned arithmetic wraps, and the conversions between
`int` and `__u32` keep the bits, as the compiler does.

When the grant plan is defined, it lies between `min(G, L)` and `5L/4`
(`ldlmPoolRecalcGrantPlan_bounds`).  While `L + pl_grant_plan` fits in an
`int`, `ldlm_pool_recalc_slv` is the exact-arithmetic `exactSlv`: the SLV stays
between 1 and `L * LDLM_POOL_MAX_AGE` and moves in the direction the plan
says (`ldlmPoolRecalcSlv_bounds`).  `ldlmSrvPoolRecalc_bounds` puts the two
together for a whole recalculation.  A limit of 0, a limit above `2^31 / 5`, a
period of 128 seconds, or a plan left by a smaller limit break the
recalculation (`ldlmPoolRecalc_breaks_at_bounds`).
-/

namespace Lustre
namespace Ldlm

/-! ## C `int` arithmetic -/

/-- The `int` result of a C operation whose exact value is `v`, or `none`
when it does not fit: the signed overflow is undefined. -/
def cInt (v : Int) : Option Int32 :=
  if -2 ^ 31 ≤ v ∧ v < 2 ^ 31 then some (Int32.ofInt v) else none

theorem cInt_eq_some_iff {v : Int} {r : Int32} :
    cInt v = some r ↔ (-2 ^ 31 ≤ v ∧ v < 2 ^ 31) ∧ r.toInt = v := by
  unfold cInt
  split
  · next fits =>
      constructor
      · intro result
        cases result
        exact ⟨fits, Int32.toInt_ofInt_of_le fits.1 fits.2⟩
      · rintro ⟨-, value⟩
        rw [← value, Int32.ofInt_toInt]
  · next notFits =>
      simp only [reduceCtorEq, false_iff, not_and]
      intro fits
      exact absurd fits notFits

theorem cInt_of_fits {v : Int} (low : -2 ^ 31 ≤ v) (high : v < 2 ^ 31) :
    ∃ r, cInt v = some r ∧ r.toInt = v :=
  ⟨Int32.ofInt v, if_pos ⟨low, high⟩, Int32.toInt_ofInt_of_le low high⟩

/-- C's `/` on `int` truncates towards zero; by 100 it keeps the sign and
shrinks the value. -/
theorem tdiv_hundred_bounds (a : Int) :
    (0 ≤ a → 0 ≤ a.tdiv 100 ∧ 100 * a.tdiv 100 ≤ a) ∧
      (a < 0 → a ≤ 100 * a.tdiv 100 ∧ a.tdiv 100 ≤ 0) := by
  constructor
  · intro nonneg
    rw [Int.tdiv_eq_ediv_of_nonneg nonneg]
    omega
  · intro negative
    have flip : a.tdiv 100 = -((-a).tdiv 100) := by
      rw [Int.neg_tdiv, Int.neg_neg]
    rw [flip, Int.tdiv_eq_ediv_of_nonneg (by omega)]
    omega

/-- A `__u32` below `2^31` read as an `int` keeps its value. -/
theorem toInt_toInt32_of_lt {v : UInt32} (small : v.toNat < 2 ^ 31) : v.toInt32.toInt = v.toNat := by
  rw [UInt32.toInt_toInt32, Int.bmod_eq_of_le (by omega) (by omega)]

/-! ## The pool -/

/-- `LDLM_POOL_MAX_GSP`: the largest grant step, in percent. -/
def ldlmPoolMaxGsp : Int32 := 30

/-- `LDLM_POOL_MIN_GSP`: the smallest grant step, in percent. -/
def ldlmPoolMinGsp : Int32 := 1

/-- `LDLM_POOL_GSP_STEP_SHIFT`. -/
def ldlmPoolGspStepShift : UInt32 := 2

/-- `LDLM_POOL_MAX_AGE`: ten hours, in seconds. -/
def ldlmPoolMaxAge : UInt64 := 36000

/-- `LDLM_POOL_SLV_SHIFT`: the fixed-point bits of the SLV factor. -/
def ldlmPoolSlvShift : UInt32 := 10

/-- The fields of `struct ldlm_pool` that the server recalculation reads and
writes. -/
structure LdlmPool where
  /-- `pl_limit`, as `ldlm_pool_get_limit` returns it (`__u32`). -/
  plLimit : UInt32
  /-- `pl_granted`. -/
  plGranted : Int32
  /-- `pl_server_lock_volume`. -/
  plServerLockVolume : UInt64
  /-- `pl_grant_plan`. -/
  plGrantPlan : Int32
  /-- `pl_recalc_period` (`time_t`). -/
  plRecalcPeriod : Int64
  /-- `pl_recalc_time` (`time_t`). -/
  plRecalcTime : Int64
  deriving DecidableEq, Repr

/-- `dru(val, shift, round_up)`: `val >> shift`, rounded up when asked. -/
def dru (val : UInt64) (shift : UInt32) (roundUp : Bool) : UInt64 :=
  -- `(1 << shift) - 1` is an `int`, widened for the sum
  (val + (if roundUp then ((1 : Int32) <<< shift.toInt32 - 1).toInt64.toUInt64 else 0)) >>> shift.toUInt64

/-- `ldlm_pool_slv_max(L)`: all `L` locks for one client for ten hours. -/
def ldlmPoolSlvMax (l : UInt32) : UInt64 := l.toUInt64 * ldlmPoolMaxAge / 1

/-- `ldlm_pool_slv_min(L)`. -/
def ldlmPoolSlvMin (_l : UInt32) : UInt64 := 1

/-- `ldlm_pool_t2gsp(t)`: the grant step, in percent, for a recalculation
period `t`; `none` is the shift by 32 or more of an `int`. -/
def ldlmPoolT2gsp (t : UInt32) : Option Int32 :=
  let shift := t >>> ldlmPoolGspStepShift
  if shift ≥ 32 then none
  else some (ldlmPoolMaxGsp - ((ldlmPoolMaxGsp - ldlmPoolMinGsp) >>> shift.toInt32))

/-- `ldlm_pool_recalc_grant_plan(pl)`. -/
def ldlmPoolRecalcGrantPlan (pl : LdlmPool) : Option LdlmPool := do
  let limit : Int32 := pl.plLimit.toInt32
  let granted := pl.plGranted
  -- the `time_t` period is passed as `unsigned int`
  let grantStep ← ldlmPoolT2gsp pl.plRecalcPeriod.toUInt64.toUInt32
  let remaining ← cInt (limit.toInt - granted.toInt)
  let product ← cInt (remaining.toInt * grantStep.toInt)
  let grantStep := product / 100
  let grantPlan ← cInt (granted.toInt + grantStep.toInt)
  let limit5 ← cInt (limit.toInt * 5)
  let limit := limit5 >>> 2
  pure { pl with plGrantPlan := if grantPlan > limit then limit else grantPlan }

/-- `ldlm_pool_recalc_slv(pl)`; `none` is also the `do_div` by a zero limit. -/
def ldlmPoolRecalcSlv (pl : LdlmPool) : Option LdlmPool := do
  let slv := pl.plServerLockVolume
  let grantPlan := pl.plGrantPlan
  let limit := pl.plLimit
  let granted := pl.plGranted
  -- `granted < limit` compares in `unsigned int`
  let roundUp := granted.toUInt32 < limit
  let overPlan ← cInt (granted.toInt - grantPlan.toInt)
  -- `limit - (granted - grant_plan)` is `unsigned int`, and `max_t(int, .., 1)`
  -- reads it as an `int`
  let usage := (limit - overPlan.toUInt32).toInt32
  let grantUsage : UInt64 := (if usage > 1 then usage else 1).toInt64.toUInt64
  let slvFactor := grantUsage <<< ldlmPoolSlvShift.toUInt64
  if limit = 0 then none
  else
    let slvFactor := slvFactor / limit.toUInt64
    let slv := slv * slvFactor
    let slv := dru slv ldlmPoolSlvShift roundUp
    let slv := if slv > ldlmPoolSlvMax limit then ldlmPoolSlvMax limit
      else if slv < ldlmPoolSlvMin limit then ldlmPoolSlvMin limit else slv
    pure { pl with plServerLockVolume := slv }

/-- `ldlm_srv_pool_recalc(pl)` at time `now`: nothing before the period has
passed, else the SLV from the last plan and then the plan for the next
period.  The source checks the period twice, outside and inside `pl_lock`. -/
def ldlmSrvPoolRecalc (pl : LdlmPool) (now : Int64) : Option LdlmPool :=
  if now - pl.plRecalcTime < pl.plRecalcPeriod then some pl
  else do
    let pl ← ldlmPoolRecalcSlv pl
    let pl ← ldlmPoolRecalcGrantPlan pl
    pure { pl with plRecalcTime := now }

/-- `ldlm_srv_pool_shrink(pl, nr, gfp_mask)`: the value returned and the pool. -/
def ldlmSrvPoolShrink (pl : LdlmPool) (nr : Int32) : Int32 × LdlmPool :=
  if nr = 0 then (pl.plGranted, pl)
  else if pl.plGranted = 0 then (0, pl)
  else
    -- `nr < pl_server_lock_volume` compares in `__u64`
    let slv := if nr.toInt64.toUInt64 < pl.plServerLockVolume then pl.plServerLockVolume - nr.toInt64.toUInt64
      else ldlmPoolSlvMin pl.plLimit
    (0, { pl with plServerLockVolume := slv })

/-! ## The grant plan -/

/-- The grant step is between 1 and 30 percent whenever it is defined. -/
theorem ldlmPoolT2gsp_bounds {t : UInt32} {g : Int32} (step : ldlmPoolT2gsp t = some g) :
    1 ≤ g.toInt ∧ g.toInt ≤ 30 := by
  unfold ldlmPoolT2gsp at step
  dsimp only at step
  split at step
  · cases step
  · next inRange =>
      cases step
      have small : (t >>> ldlmPoolGspStepShift).toNat < 32 :=
        UInt32.lt_iff_toNat_lt.1 (UInt32.not_le.1 inRange)
      -- the shift takes one of 32 values
      have every : ∀ n : Fin 32,
          1 ≤ (ldlmPoolMaxGsp - (ldlmPoolMaxGsp - ldlmPoolMinGsp) >>> (UInt32.ofNat n).toInt32).toInt ∧
            (ldlmPoolMaxGsp - (ldlmPoolMaxGsp - ldlmPoolMinGsp) >>> (UInt32.ofNat n).toInt32).toInt ≤ 30 := by
        decide
      have atShift := every ⟨_, small⟩
      rwa [UInt32.ofNat_toNat] at atShift

/-- An arithmetic shift right by 2 of an `int` is the floor of a quarter. -/
theorem toInt_shiftRight_two (x : Int32) : (x >>> 2).toInt = x.toInt / 4 := by
  show (x.toBitVec.sshiftRight' ((2 : Int32).toBitVec.smod 32)).toInt = x.toInt / 4
  rw [BitVec.toInt_sshiftRight', show ((2 : Int32).toBitVec.smod 32).toNat = 2 by decide,
    Int.shiftRight_eq_div_pow]
  rfl

/-- The `int` quotient by 100 truncates towards zero and never overflows. -/
theorem toInt_div_hundred (x : Int32) : (x / 100).toInt = x.toInt.tdiv 100 := by
  have divBounds := tdiv_hundred_bounds x.toInt
  have low := x.le_toInt
  have high := x.toInt_lt
  rw [Int32.toInt_div, show (100 : Int32).toInt = 100 from rfl]
  apply Int.bmod_eq_of_le <;> omega

/-- The `int` a comparison keeps is the minimum. -/
theorem toInt_ite_gt (a b : Int32) : (if a > b then b else a).toInt = min a.toInt b.toInt := by
  split
  · next above =>
      rw [gt_iff_lt, Int32.lt_iff_toInt_lt] at above
      omega
  · next notOver =>
      rw [gt_iff_lt, Int32.lt_iff_toInt_lt] at notOver
      omega

/-- When `ldlm_pool_recalc_grant_plan` is defined, it changes only the plan,
and the plan lies between `min(G, L)` and `5L/4`. -/
theorem ldlmPoolRecalcGrantPlan_bounds {pl pl' : LdlmPool} (limitSmall : pl.plLimit.toNat < 2 ^ 31)
    (recalc : ldlmPoolRecalcGrantPlan pl = some pl') :
    pl' = { pl with plGrantPlan := pl'.plGrantPlan } ∧
      min pl.plGranted.toInt pl.plLimit.toNat ≤ pl'.plGrantPlan.toInt ∧
      pl'.plGrantPlan.toInt ≤ 5 * pl.plLimit.toNat / 4 := by
  simp only [ldlmPoolRecalcGrantPlan, Option.bind_eq_bind, Option.bind_eq_some_iff, Option.pure_def,
    Option.some.injEq] at recalc
  obtain ⟨g, step, remaining, remainingIs, product, productIs, plan, planIs, limit5, limit5Is, result⟩ := recalc
  have limitValue := toInt_toInt32_of_lt limitSmall
  have gBounds := ldlmPoolT2gsp_bounds step
  rw [cInt_eq_some_iff, limitValue] at remainingIs
  rw [cInt_eq_some_iff, remainingIs.2] at productIs
  rw [cInt_eq_some_iff] at planIs limit5Is
  rw [limitValue] at limit5Is
  -- the grant step of the remaining locks, truncated towards zero
  have quotient := toInt_div_hundred product
  have signs : (0 ≤ (pl.plLimit.toNat : Int) - pl.plGranted.toInt → 0 ≤ product.toInt) ∧
      ((pl.plLimit.toNat : Int) - pl.plGranted.toInt < 0 →
        100 * ((pl.plLimit.toNat : Int) - pl.plGranted.toInt) ≤ product.toInt) := by
    rw [productIs.2]
    constructor
    · intro nonneg
      exact Int.mul_nonneg nonneg (by omega)
    · intro negative
      rw [Int.mul_comm 100]
      exact Int.mul_le_mul_of_nonpos_left (by omega) (by omega)
  have divBounds := tdiv_hundred_bounds product.toInt
  rw [quotient] at planIs
  have capped := toInt_ite_gt plan (limit5 >>> 2)
  rw [toInt_shiftRight_two, limit5Is.2] at capped
  refine ⟨?_, ?_, ?_⟩
  · rw [← result]
  · rw [← result, capped]
    omega
  · rw [← result, capped]
    omega

/-! ## The server lock volume -/

/-- The SLV recalculation in exact arithmetic: the old SLV scaled by
`grant_usage / L` in 10-bit fixed point, where `grant_usage` is the limit
minus what the locks granted exceed the plan by, rounded up while `G < L`,
and kept between 1 and `L * LDLM_POOL_MAX_AGE`. -/
def exactSlv (limit : Nat) (granted plan : Int) (slv : Nat) : Nat :=
  let usage := (max 1 (limit + plan - granted)).toNat
  let factor := usage * 1024 / limit
  min (limit * 36000) (max 1 ((slv * factor + if granted < limit then 1023 else 0) / 1024))

theorem one_le_exactSlv {limit : Nat} {granted plan : Int} {slv : Nat} (limitPositive : 1 ≤ limit) :
    1 ≤ exactSlv limit granted plan slv := by
  unfold exactSlv
  dsimp only
  omega

theorem exactSlv_le (limit : Nat) (granted plan : Int) (slv : Nat) :
    exactSlv limit granted plan slv ≤ limit * 36000 :=
  Nat.min_le_left _ _

/-- While the locks granted stay within the plan, the factor is at least one
and the SLV does not fall. -/
theorem le_exactSlv {limit : Nat} {granted plan : Int} {slv : Nat} (limitPositive : 1 ≤ limit)
    (withinPlan : granted ≤ plan) (slvBelow : slv ≤ limit * 36000) :
    slv ≤ exactSlv limit granted plan slv := by
  have factorLarge : 1024 ≤ (max 1 (limit + plan - granted)).toNat * 1024 / limit := by
    rw [Nat.le_div_iff_mul_le (by omega)]
    have : limit ≤ (max 1 (limit + plan - granted)).toNat := by omega
    rw [Nat.mul_comm]
    exact Nat.mul_le_mul_right 1024 this
  have scaled : slv * 1024 ≤ slv * ((max 1 (limit + plan - granted)).toNat * 1024 / limit) :=
    Nat.mul_le_mul_left slv factorLarge
  unfold exactSlv
  dsimp only
  have : slv ≤ (slv * ((max 1 (limit + plan - granted)).toNat * 1024 / limit) +
      if granted < limit then 1023 else 0) / 1024 := by
    split <;> omega
  omega

/-- When the locks granted exceed the plan, the factor is at most one and the
SLV does not rise. -/
theorem exactSlv_le_self {limit : Nat} {granted plan : Int} {slv : Nat} (limitPositive : 1 ≤ limit)
    (overPlan : plan < granted) (slvPositive : 1 ≤ slv) :
    exactSlv limit granted plan slv ≤ slv := by
  have factorSmall : (max 1 (limit + plan - granted)).toNat * 1024 / limit ≤ 1024 := by
    apply Nat.div_le_of_le_mul
    have : (max 1 (limit + plan - granted)).toNat ≤ limit := by omega
    exact Nat.mul_le_mul_right 1024 this
  have scaled : slv * ((max 1 (limit + plan - granted)).toNat * 1024 / limit) ≤ slv * 1024 :=
    Nat.mul_le_mul_left slv factorSmall
  unfold exactSlv
  dsimp only
  have : (slv * ((max 1 (limit + plan - granted)).toNat * 1024 / limit) +
      if granted < limit then 1023 else 0) / 1024 ≤ slv := by
    split <;> omega
  omega

/-! ## The SLV recalculation in machine words -/

/-- `L * LDLM_POOL_MAX_AGE` does not wrap in 64 bits. -/
theorem toNat_ldlmPoolSlvMax (l : UInt32) : (ldlmPoolSlvMax l).toNat = l.toNat * 36000 := by
  have fits : l.toUInt64.toNat * ldlmPoolMaxAge.toNat < 2 ^ 64 := by
    have := l.toNat_lt
    rw [UInt32.toNat_toUInt64]
    exact Nat.lt_of_le_of_lt (Nat.mul_le_mul_right 36000 (Nat.le_of_lt this)) (by decide)
  rw [ldlmPoolSlvMax, UInt64.toNat_div, UInt64.toNat_mul_of_lt fits, UInt32.toNat_toUInt64,
    show ldlmPoolMaxAge.toNat = 36000 from rfl, show (1 : UInt64).toNat = 1 from rfl, Nat.div_one]

/-- The clamp of `ldlm_pool_recalc_slv` to `[slv_min, slv_max]`. -/
theorem toNat_slvClamp (slv : UInt64) {l : UInt32} (limitPositive : 1 ≤ l.toNat) :
    (if slv > ldlmPoolSlvMax l then ldlmPoolSlvMax l
      else if slv < ldlmPoolSlvMin l then ldlmPoolSlvMin l else slv).toNat =
      min (l.toNat * 36000) (max 1 slv.toNat) := by
  have maxValue := toNat_ldlmPoolSlvMax l
  have minValue : (ldlmPoolSlvMin l).toNat = 1 := rfl
  split
  · next above =>
      rw [gt_iff_lt, UInt64.lt_iff_toNat_lt, maxValue] at above
      rw [maxValue]
      omega
  · next notOver =>
      rw [gt_iff_lt, UInt64.lt_iff_toNat_lt, maxValue] at notOver
      split
      · next under =>
          rw [UInt64.lt_iff_toNat_lt, minValue] at under
          rw [minValue]
          omega
      · next notUnder =>
          rw [UInt64.lt_iff_toNat_lt, minValue] at notUnder
          omega

/-- `limit - (granted - grant_plan)` in `unsigned int`, read back as an
`int`, is the exact difference when that fits. -/
theorem toInt_usage {limit : UInt32} {overPlan : Int32} (limitSmall : limit.toNat < 2 ^ 31)
    (low : -2 ^ 31 ≤ (limit.toNat : Int) - overPlan.toInt) (high : (limit.toNat : Int) - overPlan.toInt < 2 ^ 31) :
    (limit - overPlan.toUInt32).toInt32.toInt = limit.toNat - overPlan.toInt := by
  have bits : (limit - overPlan.toUInt32).toInt32 = limit.toInt32 - overPlan := rfl
  rw [bits, Int32.toInt_sub, toInt_toInt32_of_lt limitSmall, Int.bmod_eq_of_le (by omega) (by omega)]

/-- `max_t(int, usage, 1)` widened to `__u64`. -/
theorem toNat_grantUsage (usage : Int32) :
    (if usage > 1 then usage else 1).toInt64.toUInt64.toNat = (max 1 usage.toInt).toNat := by
  have value : (if usage > 1 then usage else 1).toInt = max 1 usage.toInt := by
    split
    · next above =>
        rw [gt_iff_lt, Int32.lt_iff_toInt_lt, Int32.toInt_one] at above
        omega
    · next notOver =>
        rw [gt_iff_lt, Int32.lt_iff_toInt_lt, Int32.toInt_one] at notOver
        rw [Int32.toInt_one]
        omega
  have nonneg : 0 ≤ (if usage > 1 then usage else 1).toInt64 := by
    rw [Int64.le_iff_toInt_le, Int32.toInt_toInt64, value]
    simp only [Int64.toInt_zero]
    omega
  rw [Int64.toNat_toUInt64_of_le nonneg]
  show (if usage > 1 then usage else 1).toInt64.toInt.toNat = _
  rw [Int32.toInt_toInt64, value]

/-- `dru` by `LDLM_POOL_SLV_SHIFT` of a value that does not wrap. -/
theorem toNat_dru {v : UInt64} (roundUp : Bool) (fits : v.toNat + 1023 < 2 ^ 64) :
    (dru v ldlmPoolSlvShift roundUp).toNat = (v.toNat + if roundUp then 1023 else 0) / 1024 := by
  have ones : ((1 : Int32) <<< ldlmPoolSlvShift.toInt32 - 1).toInt64.toUInt64 = 1023 := by decide
  have shift : ldlmPoolSlvShift.toUInt64.toNat % 64 = 10 := by decide
  rw [dru, ones, UInt64.toNat_shiftRight, shift, Nat.shiftRight_eq_div_pow]
  cases roundUp
  · rw [if_neg Bool.false_ne_true, if_neg Bool.false_ne_true, UInt64.add_zero, Nat.add_zero]
  · rw [if_pos rfl, if_pos rfl, UInt64.toNat_add_of_lt (by rw [show (1023 : UInt64).toNat = 1023 from rfl]; exact fits)]
    rfl

/-- When the limit is positive and below `2^31`, the plan and the granted
count are not negative, `L + pl_grant_plan - G` is an `int` and the old SLV
is at most the maximum, `ldlm_pool_recalc_slv` computes `exactSlv` and
changes nothing else. -/
theorem ldlmPoolRecalcSlv_eq_exactSlv {pl : LdlmPool} (limitPositive : 1 ≤ pl.plLimit.toNat)
    (limitSmall : pl.plLimit.toNat < 2 ^ 31) (grantedNonneg : 0 ≤ pl.plGranted.toInt)
    (planNonneg : 0 ≤ pl.plGrantPlan.toInt)
    (usageFits : (pl.plLimit.toNat : Int) + pl.plGrantPlan.toInt - pl.plGranted.toInt < 2 ^ 31)
    (slvBelow : pl.plServerLockVolume.toNat ≤ pl.plLimit.toNat * 36000) :
    ∃ slv, ldlmPoolRecalcSlv pl = some { pl with plServerLockVolume := slv } ∧
      slv.toNat = exactSlv pl.plLimit.toNat pl.plGranted.toInt pl.plGrantPlan.toInt
        pl.plServerLockVolume.toNat := by
  have grantedSmall := pl.plGranted.toInt_lt
  have planSmall := pl.plGrantPlan.toInt_lt
  obtain ⟨overPlan, overPlanIs, overPlanValue⟩ :=
    cInt_of_fits (show -2 ^ 31 ≤ pl.plGranted.toInt - pl.plGrantPlan.toInt by omega) (by omega)
  have usageValue := toInt_usage limitSmall (show -2 ^ 31 ≤ (pl.plLimit.toNat : Int) - overPlan.toInt by omega)
    (by omega)
  have limitNonzero : ¬ pl.plLimit = 0 := fun zero => by
    rw [zero] at limitPositive
    exact absurd limitPositive (by decide)
  simp only [ldlmPoolRecalcSlv, Option.bind_eq_bind, overPlanIs, Option.bind_some, limitNonzero, if_false,
    Option.pure_def, Option.some.injEq]
  refine ⟨_, rfl, ?_⟩
  generalize (pl.plLimit - overPlan.toUInt32).toInt32 = usage at usageValue ⊢
  have grantUsage := toNat_grantUsage usage
  generalize (if usage > 1 then usage else 1).toInt64.toUInt64 = grantUsageWord at grantUsage ⊢
  have usageSmall : grantUsageWord.toNat < 2 ^ 31 := by
    rw [grantUsage]
    omega
  -- the factor `(grant_usage << 10) / L` does not wrap
  have factor : (grantUsageWord <<< ldlmPoolSlvShift.toUInt64 / pl.plLimit.toUInt64).toNat =
      grantUsageWord.toNat * 1024 / pl.plLimit.toNat := by
    rw [UInt64.toNat_div, UInt64.toNat_shiftLeft, show ldlmPoolSlvShift.toUInt64.toNat % 64 = 10 by decide,
      Nat.shiftLeft_eq, Nat.mod_eq_of_lt (by omega), UInt32.toNat_toUInt64]
  generalize grantUsageWord <<< ldlmPoolSlvShift.toUInt64 / pl.plLimit.toUInt64 = factorWord at factor ⊢
  -- nor does the old SLV times the factor, as the SLV is at most `L * 36000`
  have productSmall : pl.plServerLockVolume.toNat * factorWord.toNat < 2 ^ 63 := by
    rw [factor]
    calc pl.plServerLockVolume.toNat * (grantUsageWord.toNat * 1024 / pl.plLimit.toNat)
        ≤ pl.plLimit.toNat * 36000 * (grantUsageWord.toNat * 1024 / pl.plLimit.toNat) :=
          Nat.mul_le_mul_right _ slvBelow
      _ = 36000 * (pl.plLimit.toNat * (grantUsageWord.toNat * 1024 / pl.plLimit.toNat)) := by
          rw [Nat.mul_comm pl.plLimit.toNat 36000, Nat.mul_assoc]
      _ ≤ 36000 * (grantUsageWord.toNat * 1024) := Nat.mul_le_mul_left _ (Nat.mul_div_le _ _)
      _ < 2 ^ 63 := by omega
  have product : (pl.plServerLockVolume * factorWord).toNat = pl.plServerLockVolume.toNat * factorWord.toNat :=
    UInt64.toNat_mul_of_lt (by omega)
  generalize pl.plServerLockVolume * factorWord = productWord at product ⊢
  have roundUp : decide (pl.plGranted.toUInt32 < pl.plLimit) = true ↔ pl.plGranted.toInt < pl.plLimit.toNat := by
    have unsigned : pl.plGranted.toUInt32.toNat = pl.plGranted.toInt.toNat :=
      Int32.toNat_toUInt32_of_le (by rw [Int32.le_iff_toInt_le]; exact grantedNonneg)
    rw [decide_eq_true_iff, UInt32.lt_iff_toNat_lt, unsigned]
    omega
  rw [toNat_slvClamp _ limitPositive, toNat_dru _ (by omega), product, factor, grantUsage, usageValue,
    overPlanValue, exactSlv, show (pl.plLimit.toNat : Int) - (pl.plGranted.toInt - pl.plGrantPlan.toInt) =
      pl.plLimit.toNat + pl.plGrantPlan.toInt - pl.plGranted.toInt by omega]
  by_cases below : pl.plGranted.toInt < pl.plLimit.toNat
  · rw [if_pos (roundUp.2 below), if_pos below]
  · rw [if_neg (fun up => below (roundUp.1 up)), if_neg below]

/-- In the same range, the SLV after `ldlm_pool_recalc_slv` lies between 1 and
`L * LDLM_POOL_MAX_AGE`; it does not fall while the locks granted stay within
the plan, and does not rise when they exceed it. -/
theorem ldlmPoolRecalcSlv_bounds {pl pl' : LdlmPool} (limitPositive : 1 ≤ pl.plLimit.toNat)
    (limitSmall : pl.plLimit.toNat < 2 ^ 31) (grantedNonneg : 0 ≤ pl.plGranted.toInt)
    (planNonneg : 0 ≤ pl.plGrantPlan.toInt)
    (usageFits : (pl.plLimit.toNat : Int) + pl.plGrantPlan.toInt - pl.plGranted.toInt < 2 ^ 31)
    (slvPositive : 1 ≤ pl.plServerLockVolume.toNat)
    (slvBelow : pl.plServerLockVolume.toNat ≤ pl.plLimit.toNat * 36000)
    (recalc : ldlmPoolRecalcSlv pl = some pl') :
    pl' = { pl with plServerLockVolume := pl'.plServerLockVolume } ∧
      1 ≤ pl'.plServerLockVolume.toNat ∧ pl'.plServerLockVolume.toNat ≤ pl.plLimit.toNat * 36000 ∧
      (pl.plGranted.toInt ≤ pl.plGrantPlan.toInt → pl.plServerLockVolume.toNat ≤ pl'.plServerLockVolume.toNat) ∧
      (pl.plGrantPlan.toInt < pl.plGranted.toInt → pl'.plServerLockVolume.toNat ≤ pl.plServerLockVolume.toNat) := by
  obtain ⟨slv, computed, value⟩ :=
    ldlmPoolRecalcSlv_eq_exactSlv limitPositive limitSmall grantedNonneg planNonneg usageFits slvBelow
  rw [computed, Option.some.injEq] at recalc
  subst recalc
  refine ⟨rfl, ?_, ?_, ?_, ?_⟩
  · rw [value]
    exact one_le_exactSlv limitPositive
  · rw [value]
    exact exactSlv_le _ _ _ _
  · intro withinPlan
    rw [value]
    exact le_exactSlv limitPositive withinPlan slvBelow
  · intro overPlan
    rw [value]
    exact exactSlv_le_self limitPositive overPlan slvPositive

/-! ## Shrinking -/

/-- A pool of 1000 locks, half of them granted, with a plan of 600, an SLV of
1000 and a period of one second, last recalculated at 0. -/
def halfGrantedPool : LdlmPool := ⟨1000, 500, 1000, 600, 1, 0⟩

/-- `ldlm_srv_pool_shrink` with `nr > 0` keeps the SLV between 1 and its old
value. -/
theorem ldlmSrvPoolShrink_bounds {pl : LdlmPool} {nr : Int32} (positive : 0 < nr.toInt)
    (slvPositive : 1 ≤ pl.plServerLockVolume.toNat) :
    let pl' := (ldlmSrvPoolShrink pl nr).2
    pl' = { pl with plServerLockVolume := pl'.plServerLockVolume } ∧
      1 ≤ pl'.plServerLockVolume.toNat ∧ pl'.plServerLockVolume.toNat ≤ pl.plServerLockVolume.toNat := by
  have nonzero : nr ≠ 0 := fun zero => by
    rw [zero] at positive
    exact absurd positive (by decide)
  have wide : nr.toInt64.toUInt64.toNat = nr.toInt.toNat := by
    rw [Int64.toNat_toUInt64_of_le (by rw [Int64.le_iff_toInt_le, Int32.toInt_toInt64]; simp only [Int64.toInt_zero]; omega)]
    show nr.toInt64.toInt.toNat = _
    rw [Int32.toInt_toInt64]
  dsimp only
  rw [ldlmSrvPoolShrink, if_neg nonzero]
  split
  · exact ⟨rfl, slvPositive, le_refl _⟩
  · dsimp only
    split
    · next fewer =>
        rw [UInt64.lt_iff_toNat_lt, wide] at fewer
        rw [UInt64.toNat_sub_of_le _ _ (by rw [UInt64.le_iff_toNat_le, wide]; omega), wide]
        exact ⟨rfl, by omega, by omega⟩
    · exact ⟨rfl, le_refl _, slvPositive⟩

theorem ldlmSrvPoolShrink_bounds_hundred :
    let pl' := (ldlmSrvPoolShrink halfGrantedPool 100).2
    pl' = { halfGrantedPool with plServerLockVolume := pl'.plServerLockVolume } ∧
      1 ≤ pl'.plServerLockVolume.toNat ∧
      pl'.plServerLockVolume.toNat ≤ halfGrantedPool.plServerLockVolume.toNat :=
  ldlmSrvPoolShrink_bounds (by decide) (by decide)

/-! ## When the recalculation is defined -/

/-- The grant step is defined for every period below 128 seconds. -/
theorem ldlmPoolT2gsp_isSome {t : UInt32} (periodSmall : t.toNat < 128) : ∃ g, ldlmPoolT2gsp t = some g := by
  unfold ldlmPoolT2gsp
  dsimp only
  rw [if_neg]
  · exact ⟨_, rfl⟩
  · rw [ge_iff_le, UInt32.le_iff_toNat_le, UInt32.toNat_shiftRight]
    show ¬ 32 ≤ t.toNat >>> 2
    rw [Nat.shiftRight_eq_div_pow]
    omega

/-- `ldlm_pool_recalc_grant_plan` is defined when `5L` is an `int`, the period
is below 128 seconds and 30 times the locks between `G` and `L` is an `int`. -/
theorem ldlmPoolRecalcGrantPlan_isSome {pl : LdlmPool} (limitSmall : pl.plLimit.toNat * 5 < 2 ^ 31)
    (periodSmall : pl.plRecalcPeriod.toUInt64.toUInt32.toNat < 128)
    (stepFits : -2 ^ 31 ≤ ((pl.plLimit.toNat : Int) - pl.plGranted.toInt) * 30 ∧
      ((pl.plLimit.toNat : Int) - pl.plGranted.toInt) * 30 < 2 ^ 31) :
    ∃ pl', ldlmPoolRecalcGrantPlan pl = some pl' := by
  obtain ⟨g, step⟩ := ldlmPoolT2gsp_isSome periodSmall
  have gBounds := ldlmPoolT2gsp_bounds step
  have limitValue := toInt_toInt32_of_lt (show pl.plLimit.toNat < 2 ^ 31 by omega)
  have grantedLow := pl.plGranted.le_toInt
  have grantedHigh := pl.plGranted.toInt_lt
  obtain ⟨remaining, remainingIs, remainingValue⟩ :=
    cInt_of_fits (show -2 ^ 31 ≤ pl.plLimit.toInt32.toInt - pl.plGranted.toInt by omega) (by omega)
  -- the grant step lies between 0 and 30 times the remaining locks
  have between : (0 ≤ remaining.toInt → 0 ≤ remaining.toInt * g.toInt ∧
        remaining.toInt * g.toInt ≤ remaining.toInt * 30) ∧
      (remaining.toInt < 0 → remaining.toInt * 30 ≤ remaining.toInt * g.toInt ∧
        remaining.toInt * g.toInt ≤ 0) := by
    constructor
    · intro nonneg
      exact ⟨Int.mul_nonneg nonneg (by omega), Int.mul_le_mul_of_nonneg_left (by omega) nonneg⟩
    · intro negative
      exact ⟨Int.mul_le_mul_of_nonpos_left (by omega) (by omega),
        Int.mul_nonpos_of_nonpos_of_nonneg (by omega) (by omega)⟩
  obtain ⟨product, productIs, productValue⟩ :=
    cInt_of_fits (show -2 ^ 31 ≤ remaining.toInt * g.toInt by omega) (by omega)
  have divBounds := tdiv_hundred_bounds product.toInt
  obtain ⟨plan, planIs, -⟩ :=
    cInt_of_fits (show -2 ^ 31 ≤ pl.plGranted.toInt + (product / 100).toInt by rw [toInt_div_hundred]; omega)
      (by rw [toInt_div_hundred]; omega)
  obtain ⟨limit5, limit5Is, -⟩ := cInt_of_fits (show -2 ^ 31 ≤ pl.plLimit.toInt32.toInt * 5 by omega) (by omega)
  simp only [ldlmPoolRecalcGrantPlan, Option.bind_eq_bind, step, Option.bind_some, remainingIs, productIs,
    planIs, limit5Is, Option.pure_def]
  exact ⟨_, rfl⟩

/-- Inside the claimed ranges the server recalculation is not always defined:
a limit of 0 divides by zero in `do_div`; the largest limit `2^31 - 1` at the
default period of one second overflows `limit * 5`; a period of 128 seconds
shifts an `int` by 32.  And after the limit rose to `2^31 - 1` with a plan of
1 left from a smaller limit and no lock granted, `L - (G - plan)` is `2^31`,
which `max_t(int, .., 1)` reads as negative: the SLV falls from 1000 to 1
although `G` is within the plan. -/
theorem ldlmPoolRecalc_breaks_at_bounds :
    ldlmSrvPoolRecalc ⟨0, 0, 1, 0, 1, 0⟩ 1 = none ∧
      ldlmSrvPoolRecalc ⟨2147483647, 0, 1, 0, 1, 0⟩ 1 = none ∧
      ldlmSrvPoolRecalc ⟨1000, 0, 1, 0, 128, 0⟩ 128 = none ∧
      (ldlmPoolRecalcSlv ⟨2147483647, 0, 1000, 1, 1, 0⟩).map (·.plServerLockVolume) = some 1 := by
  decide

end Ldlm
end Lustre
