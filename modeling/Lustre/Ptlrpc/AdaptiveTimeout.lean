import Mathlib.Data.UInt
import Mathlib.Data.Int.Order.Basic
import Lustre.Library.Run
import Lustre.Library.WindowMax

/-!
# Adaptive timeouts

An import keeps one `struct adaptive_timeout` per portal and one for the
network latency.  `at_measured` (import.c) records a service time `val` in
`AT_BINS` bins of `binlimit = max(at_history / AT_BINS, 1)` seconds each: bin
0 is the one that started at `at_binstart`, bin `i` the one `i` bins before.
A measurement in the current bin raises bin 0; a later one first moves the
bins over by the number of bins that passed.  `at_current`, the estimate
`at_get` hands out, is the largest bin, bounded to `[at_min, at_max]`; with
`AT_FLG_NOHIST` it is only the last measurement, bounded.

The model embeds `at_measured` with the source's types: the bins and the
estimate are `unsigned int`, times are `time_t` seconds, and `shift` is the
`int` that `(now - at_binstart) / binlimit` is converted to.  Over it,
`AtSystem` carries the log of the nonzero measurements as a ghost, and
`Tracks` says what the bins are for: each bin holds the largest value
measured in its second range, so `at_current` is the bounded largest value
measured since the start of bin 3 (`atCurrent_eq_windowMax`), and no value
measured in the last three bins' time is forgotten
(`atCurrent_ge_of_recent`).  The estimate and the timeout derived from it by
`at_est2timeout` convert back within one second (`atTimeout2est_atEst2timeout`).
-/

namespace Lustre
namespace Import

open WindowMax

/-- `AT_BINS`. -/
def atBins : Nat := 4

/-- `AT_FLG_NOHIST`: keep only the last measurement. -/
def atFlgNohist : UInt32 := 0x1

/-- The module parameters `at_min`, `at_max` and `at_history`. -/
structure AtParams where
  /-- `at_min`: the smallest estimate. -/
  atMin : UInt32
  /-- `at_max`: the largest estimate, `0` for no bound. -/
  atMax : UInt32
  /-- `at_history`: the seconds of history the bins cover. -/
  atHistory : UInt32
  deriving DecidableEq, Repr

/-- The defaults of class_obd.c: no minimum, ten minutes at most and ten
minutes of history. -/
def defaultAtParams : AtParams := ⟨0, 600, 600⟩

/-- The fields of `struct adaptive_timeout` but its lock. -/
structure AdaptiveTimeout where
  /-- `at_binstart`: the start of bin 0, `0` before the first measurement. -/
  atBinstart : Int
  /-- `at_hist[AT_BINS]`: the largest value measured in each bin. -/
  atHist : Fin 4 → UInt32
  /-- `at_flags`. -/
  atFlags : UInt32
  /-- `at_current`: the estimate. -/
  atCurrent : UInt32
  /-- `at_worst_ever`. -/
  atWorstEver : UInt32
  /-- `at_worst_time`. -/
  atWorstTime : Int

/-- `binlimit = max_t(time_t, at_history / AT_BINS, 1)`: the seconds of one bin. -/
def binlimit (params : AtParams) : Int :=
  max ((params.atHistory.toNat / atBins : Nat) : Int) 1

theorem binlimit_pos (params : AtParams) : 0 < binlimit params := by
  unfold binlimit
  omega

/-- `at_est2timeout(val)`: a timeout of 125% of the estimate and 5 seconds more. -/
def atEst2timeout (val : UInt32) : UInt32 :=
  val + (val >>> 2) + 5

/-- `at_timeout2est(val)`: the estimate back from a timeout, `e = 4/5 (t - 5)`;
`none` is the `LASSERT(val)`. -/
def atTimeout2est (val : UInt32) : Option UInt32 :=
  if val = 0 then none else some (max ((val <<< 2) / 5) 5 - 4)

/-- `at_reset_nolock(at, val)` at time `now`. -/
def atResetNolock (est : AdaptiveTimeout) (now : Int) (val : UInt32) : AdaptiveTimeout :=
  { est with atCurrent := val, atWorstEver := val, atWorstTime := now }

/-- `at_init(at, val, flags)` at time `now`: a zeroed structure, reset to `val`. -/
def atInit (now : Int) (val flags : UInt32) : AdaptiveTimeout :=
  atResetNolock ⟨0, 0, flags, 0, 0, 0⟩ now val

/-- `at_reinit(at, val, flags)` at time `now`: the history is cleared. -/
def atReinit (est : AdaptiveTimeout) (now : Int) (val flags : UInt32) : AdaptiveTimeout :=
  atResetNolock { est with atBinstart := 0, atHist := 0, atFlags := flags } now val

/-- `at_get(at)`: the estimate, `at_min` at least. -/
def atGet (params : AtParams) (est : AdaptiveTimeout) : UInt32 :=
  if est.atCurrent > params.atMin then est.atCurrent else params.atMin

/-! ## Moving the bins over -/

/-- One round of the loop of `at_measured` that moves the bins over by
`shift`, at bin `i`: the bin takes the one `shift` before it, or is cleared
when there is none, and `maxv` takes the value that moved. -/
def moveBin (shift : Nat) (state : (Fin 4 → UInt32) × UInt32) (i : Fin 4) :
    (Fin 4 → UInt32) × UInt32 :=
  if h : shift ≤ i.val then
    let moved := state.1 ⟨i.val - shift, by omega⟩
    (Function.update state.1 i moved, max state.2 moved)
  else (Function.update state.1 i 0, state.2)

/-- The rounds of the loop `for (i = AT_BINS - 1; i >= 0; i--)` on the bins
below `count`, from the highest down. -/
def moveBinsBelow (shift : Nat) : (count : Nat) → count ≤ 4 →
    (Fin 4 → UInt32) × UInt32 → (Fin 4 → UInt32) × UInt32
  | 0, _, state => state
  | count + 1, fits, state =>
    moveBinsBelow shift count (Nat.le_of_succ_le fits) (moveBin shift state ⟨count, fits⟩)

/-- The whole loop, from `maxv = val`. -/
def moveBins (shift : Nat) (hist : Fin 4 → UInt32) (val : UInt32) :
    (Fin 4 → UInt32) × UInt32 :=
  moveBinsBelow shift 4 le_rfl (hist, val)

/-! ## `at_measured` -/

/-- The locked part of `at_measured` up to the worst-ever update, for a
nonzero `val` at time `now`: the first measurement, one in bin 0, or one
after the bins moved over.  `none` is the `LASSERT(shift > 0)`. -/
def atRecord (params : AtParams) (est : AdaptiveTimeout) (now : Int) (val : UInt32) :
    Option AdaptiveTimeout :=
  if est.atBinstart = 0 then
    -- the default value is dropped from the history
    some { est with atCurrent := val, atWorstEver := val, atWorstTime := now,
                    atHist := Function.update est.atHist 0 val, atBinstart := now }
  else if now - est.atBinstart < binlimit params then
    some { est with atHist := Function.update est.atHist 0 (max val (est.atHist 0)),
                    atCurrent := max val est.atCurrent }
  else
    let shift := ((now - est.atBinstart).tdiv (binlimit params)).toInt32
    if shift ≤ 0 then none
    else
      -- `i >= shift` compares two `int`s; `shift` is positive here
      let moved := moveBins shift.toInt.toNat est.atHist val
      some { est with atHist := Function.update moved.1 0 val, atCurrent := moved.2,
                      atBinstart := est.atBinstart + shift.toInt * binlimit params }

/-- `at_current` bounded to `[at_min, at_max]`, with `at_max = 0` for no upper bound. -/
def atBound (params : AtParams) (current : UInt32) : UInt32 :=
  max (if params.atMax > 0 then min current params.atMax else current) params.atMin

/-- The rest of `at_measured` after `atRecord`: the worst-ever update, the
`AT_FLG_NOHIST` case and the bounds. -/
def atFinish (params : AtParams) (est : AdaptiveTimeout) (now : Int) (val : UInt32) :
    AdaptiveTimeout :=
  let worst := if est.atCurrent > est.atWorstEver
    then { est with atWorstEver := est.atCurrent, atWorstTime := now } else est
  let current := if worst.atFlags &&& atFlgNohist ≠ 0 then val else worst.atCurrent
  { worst with atCurrent := atBound params current }

/-- `at_measured(at, val)` at time `now`: the value returned, the old
`at_current` when it changed and `0` otherwise, and the new structure.  A `0`
is not recorded. -/
def atMeasured (params : AtParams) (est : AdaptiveTimeout) (now : Int) (val : UInt32) :
    Option (UInt32 × AdaptiveTimeout) :=
  if val = 0 then some (0, est)
  else do
    let recorded ← atRecord params est now val
    let done := atFinish params recorded now val
    some (if done.atCurrent ≠ est.atCurrent then est.atCurrent else 0, done)

/-! ## Arithmetic of the model -/

/-- `atBound` on numbers. -/
def boundNat (params : AtParams) (current : Nat) : Nat :=
  max (if 0 < params.atMax.toNat then min current params.atMax.toNat else current)
    params.atMin.toNat

theorem toNat_atBound (params : AtParams) (current : UInt32) :
    (atBound params current).toNat = boundNat params current.toNat := by
  unfold atBound boundNat
  by_cases bounded : 0 < params.atMax.toNat
  · have bounded' : params.atMax > 0 := UInt32.lt_iff_toNat_lt.mpr bounded
    simp [bounded, bounded', UInt32.toNat_max, UInt32.toNat_min]
  · have unbounded : ¬ params.atMax > 0 := fun h => bounded (UInt32.lt_iff_toNat_lt.mp h)
    simp [bounded, unbounded, UInt32.toNat_max]

theorem boundNat_mono (params : AtParams) {a b : Nat} (le : a ≤ b) :
    boundNat params a ≤ boundNat params b := by
  unfold boundNat
  split <;> omega

/-- Bounding commutes with taking the larger of a value and a bounded one:
the bin-0 branch keeps `max(val, at_current)` of an already bounded estimate. -/
theorem atBound_max_atBound (params : AtParams) (val current : UInt32) :
    atBound params (max val (atBound params current)) = atBound params (max val current) := by
  apply UInt32.toNat_inj.mp
  simp only [toNat_atBound, UInt32.toNat_max]
  unfold boundNat
  split <;> omega

/-- `shift` as the `int` conversion computes it when the quotient fits. -/
theorem toInt_toInt32 {q : Int} (nonneg : 0 ≤ q) (fits : q < 2 ^ 31) : q.toInt32.toInt = q := by
  rw [Int.toInt32, Int32.toInt_ofInt]
  exact Int.bmod_eq_of_le (by simp [Int32.size]; omega) (by simp [Int32.size]; omega)

/-- The estimate converted to a timeout and back is within one second of it
when the timeout does not wrap. -/
theorem atTimeout2est_atEst2timeout {est : UInt32} (positive : 0 < est.toNat)
    (small : est.toNat ≤ 858993455) :
    ∃ back, atTimeout2est (atEst2timeout est) = some back ∧
      est.toNat - 1 ≤ back.toNat ∧ back.toNat ≤ est.toNat := by
  have timeout : (atEst2timeout est).toNat = est.toNat + est.toNat / 4 + 5 := by
    simp only [atEst2timeout, UInt32.toNat_add, UInt32.toNat_shiftRight, Nat.shiftRight_eq_div_pow]
    simp
    omega
  have quadruple : ((atEst2timeout est) <<< 2).toNat = 4 * (est.toNat + est.toNat / 4 + 5) := by
    simp only [UInt32.toNat_shiftLeft, Nat.shiftLeft_eq, timeout]
    simp
    omega
  have nonzero : atEst2timeout est ≠ 0 := by
    intro zero
    rw [zero] at timeout
    simp at timeout
  have atLeastFour : (4 : UInt32) ≤ max ((atEst2timeout est <<< 2) / 5) 5 := by
    simp [UInt32.le_iff_toNat_le, UInt32.toNat_max]
  refine ⟨max ((atEst2timeout est <<< 2) / 5) 5 - 4, by simp [atTimeout2est, nonzero], ?_⟩
  rw [UInt32.toNat_sub_of_le _ _ atLeastFour]
  simp only [UInt32.toNat_max, UInt32.toNat_div, quadruple]
  simp
  omega

theorem atTimeout2est_atEst2timeout_ten :
    ∃ back, atTimeout2est (atEst2timeout 10) = some back ∧
      (10 : UInt32).toNat - 1 ≤ back.toNat ∧ back.toNat ≤ (10 : UInt32).toNat :=
  atTimeout2est_atEst2timeout (by decide) (by decide)

/-! ## The bins as a window over the log -/

/-- Time `t` falls in bin `i` of bins that start at `binstart`. -/
def inBin (binstart bl : Int) (i : Nat) (t : Int) : Prop :=
  binstart - i * bl ≤ t ∧ t < binstart - i * bl + bl

theorem inBin_iff (binstart bl : Int) (i : Nat) (t : Int) :
    inBin binstart bl i t ↔ binstart - i * bl ≤ t ∧ t < binstart - i * bl + bl := Iff.rfl

instance (binstart bl : Int) (i : Nat) : DecidablePred (inBin binstart bl i) :=
  fun _ => inferInstanceAs (Decidable (_ ∧ _))

/-- Time `t` falls in one of the four bins. -/
def inWindow (binstart bl : Int) (t : Int) : Prop :=
  binstart - 3 * bl ≤ t ∧ t < binstart + bl

instance (binstart bl : Int) : DecidablePred (inWindow binstart bl) :=
  fun _ => inferInstanceAs (Decidable (_ ∧ _))

/-- The largest of the four bins. -/
def histMax (hist : Fin 4 → UInt32) : UInt32 :=
  max (max (hist 0) (hist 1)) (max (hist 2) (hist 3))

theorem inBin_zero {binstart bl t : Int} :
    inBin binstart bl 0 t ↔ binstart ≤ t ∧ t < binstart + bl := by
  simp [inBin_iff]

theorem inWindow_iff_inBin {binstart bl t : Int} :
    inWindow binstart bl t ↔
      (inBin binstart bl 0 t ∨ inBin binstart bl 1 t) ∨
        (inBin binstart bl 2 t ∨ inBin binstart bl 3 t) := by
  simp only [inWindow, inBin_iff]
  push_cast
  omega

/-- A bin before bin 0 holds no time from the start of bin 0 on. -/
theorem not_inBin_of_le {binstart bl t : Int} {i : Nat} (positive : 0 < bl) (earlier : 1 ≤ i)
    (after : binstart ≤ t) : ¬ inBin binstart bl i t := by
  have : (1 : Int) * bl ≤ i * bl :=
    Int.mul_le_mul_of_nonneg_right (by exact_mod_cast earlier) positive.le
  simp only [inBin_iff]
  omega

/-- After the bins moved over by `shift`, bin `i` is the old bin `j = i - shift`. -/
theorem inBin_shift {binstart bl t shift : Int} {i j : Nat} (moved : (j : Int) + shift = i) :
    inBin (binstart + shift * bl) bl i t ↔ inBin binstart bl j t := by
  have : (i : Int) * bl = j * bl + shift * bl := by rw [← moved]; ring
  simp only [inBin_iff]
  omega

/-- A bin newer than every old one holds no time of the old bins. -/
theorem not_inBin_shift {binstart bl t shift : Int} {i : Nat} (positive : 0 < bl)
    (newer : (i : Int) < shift) (old : t < binstart + bl) :
    ¬ inBin (binstart + shift * bl) bl i t := by
  have : (1 : Int) * bl ≤ (shift - i) * bl :=
    Int.mul_le_mul_of_nonneg_right (by omega) positive.le
  have : (shift - i) * bl = shift * bl - i * bl := by ring
  simp only [inBin_iff]
  omega

/-- Bin `i` after the bins moved over by `shift`. -/
def shifted (shift : Nat) (hist : Fin 4 → UInt32) (i : Fin 4) : UInt32 :=
  if h : shift ≤ i.val then hist ⟨i.val - shift, by omega⟩ else 0

/-- The largest of the shifted bins below `count`. -/
def shiftedMaxBelow (shift : Nat) (hist : Fin 4 → UInt32) : Nat → Nat
  | 0 => 0
  | count + 1 => max (shiftedMaxBelow shift hist count)
      (if h : count < 4 then (shifted shift hist ⟨count, h⟩).toNat else 0)

/-- One round at bin `i`, on bins that still hold the original ones up to
`i`, writes the shifted bin there. -/
theorem moveBin_spec (shift : Nat) {hist current : Fin 4 → UInt32} (maxv : UInt32) (i : Fin 4)
    (original : ∀ j : Fin 4, j.val ≤ i.val → current j = hist j) :
    (moveBin shift (current, maxv) i).1 = Function.update current i (shifted shift hist i) ∧
      (moveBin shift (current, maxv) i).2.toNat = max maxv.toNat (shifted shift hist i).toNat := by
  unfold moveBin shifted
  split
  · next reaches =>
    have same : current ⟨i.val - shift, by omega⟩ = hist ⟨i.val - shift, by omega⟩ :=
      original _ (by simp)
    simp [same, UInt32.toNat_max]
  · simp

/-- The loop on the bins below `count`, started on bins that still hold the
original ones there, leaves those bins shifted and `maxv` the largest of them
and its start. -/
theorem moveBinsBelow_spec (shift : Nat) (hist : Fin 4 → UInt32) :
    ∀ (count : Nat) (fits : count ≤ 4) (current : Fin 4 → UInt32) (maxv : UInt32),
      (∀ j : Fin 4, j.val < count → current j = hist j) →
      (moveBinsBelow shift count fits (current, maxv)).1 =
          (fun j => if j.val < count then shifted shift hist j else current j) ∧
        (moveBinsBelow shift count fits (current, maxv)).2.toNat =
          max maxv.toNat (shiftedMaxBelow shift hist count) := by
  intro count
  induction count with
  | zero =>
    intro fits current maxv _
    simp [moveBinsBelow, shiftedMaxBelow]
  | succ count ih =>
    intro fits current maxv original
    obtain ⟨written, taken⟩ := moveBin_spec shift maxv ⟨count, fits⟩
      (fun j le => original j (by simp at le; omega))
    -- the rounds below `count` see the bins below it untouched
    have untouched : ∀ j : Fin 4, j.val < count →
        (moveBin shift (current, maxv) ⟨count, fits⟩).1 j = hist j := by
      intro j below
      rw [written, Function.update_of_ne (Fin.ne_of_val_ne (by simp; omega))]
      exact original j (by omega)
    obtain ⟨bins, maxTaken⟩ := ih (Nat.le_of_succ_le fits) _ _ untouched
    refine ⟨?_, ?_⟩
    · show (moveBinsBelow shift count _ (moveBin shift (current, maxv) ⟨count, fits⟩)).1 = _
      rw [bins, written]
      funext j
      by_cases below : j.val < count
      · simp [below, Nat.lt_succ_of_lt below]
      · by_cases here : j.val = count
        · have : j = ⟨count, fits⟩ := Fin.ext here
          subst this
          simp
        · have : j ≠ ⟨count, fits⟩ := fun h => here (congrArg Fin.val h)
          simp [below, this, show ¬ j.val < count + 1 by omega]
    · show (moveBinsBelow shift count _
        (moveBin shift (current, maxv) ⟨count, fits⟩)).2.toNat = _
      have below : count < 4 := fits
      rw [maxTaken, taken]
      simp only [shiftedMaxBelow, below, dite_true]
      omega

/-- The whole loop leaves the bins shifted and `maxv` the largest of them and `val`. -/
theorem moveBins_spec (shift : Nat) (hist : Fin 4 → UInt32) (val : UInt32) :
    (moveBins shift hist val).1 = shifted shift hist ∧
      (moveBins shift hist val).2.toNat = max val.toNat (shiftedMaxBelow shift hist 4) := by
  obtain ⟨bins, maxTaken⟩ := moveBinsBelow_spec shift hist 4 le_rfl hist val (fun _ _ => rfl)
  refine ⟨?_, maxTaken⟩
  rw [moveBins, bins]
  funext j
  simp [j.isLt]

@[simp] theorem toNat_histMax (hist : Fin 4 → UInt32) :
    (histMax hist).toNat =
      max (max (hist 0).toNat (hist 1).toNat) (max (hist 2).toNat (hist 3).toNat) := by
  simp [histMax, UInt32.toNat_max]

/-- The `int` conversion of `shift` and the new bin start, once a whole bin
has passed since `at_binstart` and the gap fits in an `int`. -/
theorem shift_spec {gap bl : Int} (positive : 0 < bl) (passed : bl ≤ gap) (fits : gap < 2 ^ 31) :
    ¬ (gap.tdiv bl).toInt32 ≤ 0 ∧ (gap.tdiv bl).toInt32.toInt = gap / bl ∧
      1 ≤ gap / bl ∧ gap / bl * bl ≤ gap ∧ gap < gap / bl * bl + bl := by
  have quotient : gap.tdiv bl = gap / bl := Int.tdiv_eq_ediv_of_nonneg (by omega)
  have atLeastOne : 1 ≤ gap / bl := (Int.le_ediv_iff_mul_le positive).mpr (by omega)
  have atMostGap : gap / bl ≤ gap := Int.ediv_le_self bl (by omega)
  have converted : (gap.tdiv bl).toInt32.toInt = gap / bl := by
    rw [quotient]
    exact toInt_toInt32 (by omega) (by omega)
  have below : gap / bl * bl ≤ gap := Int.ediv_mul_le gap (by omega)
  have above : gap < (gap / bl + 1) * bl := Int.lt_ediv_add_one_mul_self gap positive
  refine ⟨?_, converted, atLeastOne, below, by linarith⟩
  rw [Int32.le_iff_toInt_le, converted]
  simp
  omega

/-! ## The bins over a run -/

/-- What the bins say about the nonzero measurements `log` since the history
was last cleared, at time `clock`: the bins start at the first of them, bin 0
holds the newest, and each bin holds the largest value measured in its range. -/
structure Binned (params : AtParams) (binstart : Int) (hist : Fin 4 → UInt32)
    (log : List (Int × Nat)) (clock : Int) : Prop where
  logged_le_clock : ∀ m ∈ log, m.1 ≤ clock
  unstarted : log = [] → binstart = 0
  started : log ≠ [] →
    0 < binstart ∧ binstart ≤ clock ∧ ∀ m ∈ log, m.1 < binstart + binlimit params
  bins : ∀ i : Fin 4, (hist i).toNat = maxWhere (inBin binstart (binlimit params) i) log

variable {params : AtParams} {binstart : Int} {hist : Fin 4 → UInt32} {log : List (Int × Nat)}
  {clock now : Int} {val : UInt32}

theorem binned_cleared (params : AtParams) (clock : Int) : Binned params 0 0 [] clock :=
  ⟨by simp, fun _ => rfl, fun nonempty => absurd rfl nonempty, fun _ => rfl⟩

/-- Time passing without a measurement keeps the bins. -/
theorem Binned.later (binned : Binned params binstart hist log clock) (later : clock ≤ now) :
    Binned params binstart hist log now where
  logged_le_clock m logged := le_trans (binned.logged_le_clock m logged) later
  unstarted := binned.unstarted
  started nonempty := by
    obtain ⟨positive, beforeClock, belowEnd⟩ := binned.started nonempty
    exact ⟨positive, le_trans beforeClock later, belowEnd⟩
  bins := binned.bins

/-- The first measurement after the history was cleared starts bin 0 at its time. -/
theorem Binned.record_first (binned : Binned params 0 hist log clock) (val : UInt32)
    (positive : 0 < now) :
    Binned params now (Function.update hist 0 val) (log ++ [(now, val.toNat)]) now ∧
      histMax (Function.update hist 0 val) = val := by
  have empty : log = [] := by
    by_contra nonempty
    exact absurd (binned.started nonempty).1 (lt_irrefl 0)
  subst empty
  have cleared : ∀ i, hist i = 0 := fun i => UInt32.toNat_inj.mp (binned.bins i)
  have firstBin : inBin now (binlimit params) 0 now :=
    inBin_zero.mpr ⟨le_rfl, by linarith [binlimit_pos params]⟩
  refine ⟨⟨by simp, by simp, fun _ => ⟨positive, le_rfl, by simpa using firstBin.2⟩, ?_⟩,
    ?_⟩
  · intro i
    by_cases zero : i = 0
    · subst zero
      simp [maxWhere_cons, firstBin]
    · have older : ¬ inBin now (binlimit params) i now :=
        not_inBin_of_le (binlimit_pos params)
          (Nat.one_le_iff_ne_zero.mpr (Fin.val_ne_of_ne zero)) le_rfl
      simp [maxWhere_cons, zero, older, cleared i]
  · apply UInt32.toNat_inj.mp
    simp [cleared]

/-- A measurement within `binlimit` of `at_binstart` goes to bin 0. -/
theorem Binned.record_current (binned : Binned params binstart hist log clock) (val : UInt32)
    (nonzero : binstart ≠ 0)
    (later : clock ≤ now) (current : now - binstart < binlimit params) :
    Binned params binstart (Function.update hist 0 (max val (hist 0)))
        (log ++ [(now, val.toNat)]) now ∧
      histMax (Function.update hist 0 (max val (hist 0))) = max val (histMax hist) := by
  have nonempty : log ≠ [] := fun empty => nonzero (binned.unstarted empty)
  obtain ⟨positive, beforeClock, belowEnd⟩ := binned.started nonempty
  have firstBin : inBin binstart (binlimit params) 0 now := inBin_zero.mpr ⟨by omega, by omega⟩
  refine ⟨⟨?_, by simp, fun _ => ⟨positive, by omega, ?_⟩, ?_⟩, ?_⟩
  · intro m logged
    rcases List.mem_append.mp logged with old | new
    · exact le_trans (binned.logged_le_clock m old) later
    · simp at new; simp [new]
  · intro m logged
    rcases List.mem_append.mp logged with old | new
    · exact belowEnd m old
    · simp at new; simp [new]; omega
  · intro i
    rw [maxWhere_append_singleton]
    by_cases zero : i = 0
    · subst zero
      simp [firstBin, UInt32.toNat_max, binned.bins 0, max_comm]
    · have older : ¬ inBin binstart (binlimit params) i now :=
        not_inBin_of_le (binlimit_pos params)
          (Nat.one_le_iff_ne_zero.mpr (Fin.val_ne_of_ne zero)) (by omega)
      simp [zero, older, binned.bins i]
  · apply UInt32.toNat_inj.mp
    simp [UInt32.toNat_max]

/-- A measurement `shift` whole bins after `at_binstart` moves the bins over
by `shift` and starts bin 0 anew. -/
theorem Binned.record_shift (binned : Binned params binstart hist log clock) (val : UInt32)
    (nonzero : binstart ≠ 0)
    (later : clock ≤ now) {shift : Int} (moved : 1 ≤ shift)
    (lower : binstart + shift * binlimit params ≤ now)
    (upper : now < binstart + shift * binlimit params + binlimit params) :
    Binned params (binstart + shift * binlimit params)
        (Function.update (moveBins shift.toNat hist val).1 0 val)
        (log ++ [(now, val.toNat)]) now ∧
      (moveBins shift.toNat hist val).2 =
        histMax (Function.update (moveBins shift.toNat hist val).1 0 val) := by
  have nonempty : log ≠ [] := fun empty => nonzero (binned.unstarted empty)
  obtain ⟨positive, beforeClock, belowEnd⟩ := binned.started nonempty
  have blPositive := binlimit_pos params
  have shiftBl : binlimit params ≤ shift * binlimit params := by nlinarith
  obtain ⟨bins, maxTaken⟩ := moveBins_spec shift.toNat hist val
  have firstBin : inBin (binstart + shift * binlimit params) (binlimit params) 0 now :=
    inBin_zero.mpr ⟨lower, upper⟩
  -- no old measurement is in the new bin 0
  have oldOut : ∀ i : Fin 4, (i : Int) < shift → ∀ m ∈ log,
      ¬ inBin (binstart + shift * binlimit params) (binlimit params) i m.1 :=
    fun i newer m logged => not_inBin_shift blPositive newer (belowEnd m logged)
  refine ⟨⟨?_, by simp, fun _ => ⟨by omega, lower, ?_⟩, ?_⟩, ?_⟩
  · intro m logged
    rcases List.mem_append.mp logged with old | new
    · exact le_trans (binned.logged_le_clock m old) later
    · simp at new; simp [new]
  · intro m logged
    rcases List.mem_append.mp logged with old | new
    · have := belowEnd m old; omega
    · simp at new; simp [new]; omega
  · intro i
    rw [maxWhere_append_singleton, bins]
    by_cases zero : i = 0
    · subst zero
      rw [maxWhere_eq_bot _ (oldOut 0 (by simp; omega))]
      simp [firstBin]
    · have older : ¬ inBin (binstart + shift * binlimit params) (binlimit params) i now :=
        not_inBin_of_le blPositive (Nat.one_le_iff_ne_zero.mpr (Fin.val_ne_of_ne zero)) lower
      simp only [Function.update_of_ne zero, older, if_false]
      by_cases reaches : shift.toNat ≤ i.val
      · -- bin `i` is the old bin `i - shift`
        rw [shifted, dif_pos reaches, binned.bins]
        exact maxWhere_congr _ fun m _ =>
          (inBin_shift (by push_cast [Nat.cast_sub reaches]; omega)).symm
      · rw [shifted, dif_neg reaches, maxWhere_eq_bot _ (oldOut i (by omega))]
        rfl
  · apply UInt32.toNat_inj.mp
    have emptied : shifted shift.toNat hist 0 = 0 := by
      rw [shifted, dif_neg (by simp; omega)]
    rw [maxTaken, bins]
    simp [shiftedMaxBelow, emptied]

/-- The four bins together hold the largest value measured in the window. -/
theorem Binned.histMax_eq (binned : Binned params binstart hist log clock) :
    (histMax hist).toNat = maxWhere (inWindow binstart (binlimit params)) log := by
  have byBins : maxWhere (inWindow binstart (binlimit params)) log =
      maxWhere (fun t =>
        (inBin binstart (binlimit params) 0 t ∨ inBin binstart (binlimit params) 1 t) ∨
          (inBin binstart (binlimit params) 2 t ∨ inBin binstart (binlimit params) 3 t)) log :=
    maxWhere_congr _ fun _ _ => inWindow_iff_inBin
  rw [byBins, maxWhere_or, maxWhere_or, maxWhere_or, toNat_histMax]
  simp [binned.bins]

@[simp] theorem atFinish_atHist (est : AdaptiveTimeout) :
    (atFinish params est now val).atHist = est.atHist := by
  unfold atFinish; split <;> rfl

@[simp] theorem atFinish_atBinstart (est : AdaptiveTimeout) :
    (atFinish params est now val).atBinstart = est.atBinstart := by
  unfold atFinish; split <;> rfl

@[simp] theorem atFinish_atFlags (est : AdaptiveTimeout) :
    (atFinish params est now val).atFlags = est.atFlags := by
  unfold atFinish; split <;> rfl

@[simp] theorem atFinish_atCurrent (est : AdaptiveTimeout) :
    (atFinish params est now val).atCurrent =
      atBound params (if est.atFlags &&& atFlgNohist ≠ 0 then val else est.atCurrent) := by
  unfold atFinish; split <;> rfl

/-- A nonzero measurement at an allowed time is recorded into the bins, and
the estimate it leaves is the largest bin, up to the bounds, when the one
before was. -/
theorem atRecord_spec {est : AdaptiveTimeout}
    (binned : Binned params est.atBinstart est.atHist log clock) (val : UInt32)
    (positive : 0 < now) (later : clock ≤ now) (fits : now < 2 ^ 31) :
    ∃ recorded, atRecord params est now val = some recorded ∧ recorded.atFlags = est.atFlags ∧
      Binned params recorded.atBinstart recorded.atHist (log ++ [(now, val.toNat)]) now ∧
      ((log ≠ [] → est.atCurrent = atBound params (histMax est.atHist)) →
        atBound params recorded.atCurrent = atBound params (histMax recorded.atHist)) := by
  unfold atRecord
  split
  · next unstarted =>
    rw [unstarted] at binned
    obtain ⟨binned', maxFirst⟩ := binned.record_first val positive
    exact ⟨_, rfl, rfl, binned', fun _ => by simp [maxFirst]⟩
  · next started =>
    have nonempty : log ≠ [] := fun empty => started (binned.unstarted empty)
    split
    · next current =>
      obtain ⟨binned', maxCurrent⟩ := binned.record_current val started later current
      refine ⟨_, rfl, rfl, binned', fun estimate => ?_⟩
      simp only [maxCurrent, estimate nonempty, atBound_max_atBound]
    · next passed =>
      -- the gap since `at_binstart` fits the `int` that `shift` is
      have afterStart := (binned.started nonempty).1
      obtain ⟨positiveShift, converted, atLeastOne, below, above⟩ :=
        shift_spec (binlimit_pos params) (not_lt.mp passed)
          (show now - est.atBinstart < 2 ^ 31 by omega)
      simp only [positiveShift, if_false, converted]
      obtain ⟨binned', maxShift⟩ :=
        binned.record_shift val started later atLeastOne (by linarith) (by linarith)
      exact ⟨_, rfl, rfl, binned', fun _ => by simp only [maxShift]⟩

/-! ## The estimator over a run -/

/-- An adaptive timeout with, as ghosts, the nonzero measurements since its
history was last cleared, oldest first, the last of them, and the time. -/
structure AtSystem where
  est : AdaptiveTimeout
  log : List (Int × Nat)
  last : UInt32
  clock : Int

/-- `at_init(at, val, flags)` at time `now`. -/
def AtSystem.init (now : Int) (val flags : UInt32) : AtSystem :=
  ⟨atInit now val flags, [], 0, now⟩

/-- What happens to an adaptive timeout. -/
inductive AtEvent where
  /-- `at_measured(at, val)` at time `now`. -/
  | measured (now : Int) (val : UInt32)
  /-- `at_reinit(at, val, flags)` at time `now`. -/
  | reinit (now : Int) (val flags : UInt32)

/-- An event from a state; `none` is a failed assertion of `at_measured`. -/
def AtEvent.apply (params : AtParams) : Option AtSystem → AtEvent → Option AtSystem
  | none, _ => none
  | some s, .measured now val =>
    (atMeasured params s.est now val).map fun result =>
      if val = 0 then { s with est := result.2, clock := now }
      else ⟨result.2, s.log ++ [(now, val.toNat)], val, now⟩
  | some s, .reinit now val flags => some ⟨atReinit s.est now val flags, [], 0, now⟩

/-- The clock does not go back, and a measurement comes at a positive time
before the seconds since the epoch overflow an `int`. -/
def AtEvent.Allowed : Option AtSystem → AtEvent → Prop
  | some s, .measured now _ => 0 < now ∧ s.clock ≤ now ∧ now < 2 ^ 31
  | some s, .reinit now _ _ => s.clock ≤ now
  | none, _ => False

instance : ∀ state event, Decidable (AtEvent.Allowed state event)
  | some _, .measured _ _ => inferInstanceAs (Decidable (_ ∧ _ ∧ _))
  | some _, .reinit _ _ _ => inferInstanceAs (Decidable (_ ≤ _))
  | none, _ => inferInstanceAs (Decidable False)

/-- What the estimator is for: the bins summarise the measurements, and once
there is one the estimate is the bounded largest bin, or with
`AT_FLG_NOHIST` the bounded last measurement. -/
structure Tracks (params : AtParams) (s : AtSystem) : Prop where
  binned : Binned params s.est.atBinstart s.est.atHist s.log s.clock
  current : s.log ≠ [] → s.est.atCurrent =
    atBound params (if s.est.atFlags &&& atFlgNohist ≠ 0 then s.last else histMax s.est.atHist)

/-- Every allowed event keeps `Tracks`, and no assertion fails on the way. -/
theorem Tracks.step {s : AtSystem} (tracks : Tracks params s) {event : AtEvent}
    (allowed : AtEvent.Allowed (some s) event) :
    ∃ s', AtEvent.apply params (some s) event = some s' ∧ Tracks params s' := by
  cases event with
  | measured now val =>
    obtain ⟨positive, later, fits⟩ := allowed
    by_cases zero : val = 0
    · -- a `0` is not recorded: only the time moves
      exact ⟨⟨s.est, s.log, s.last, now⟩, by simp [AtEvent.apply, atMeasured, zero],
        tracks.binned.later later, tracks.current⟩
    · obtain ⟨recorded, ran, flags, binned, estimate⟩ :=
        atRecord_spec tracks.binned val positive later fits
      refine ⟨⟨atFinish params recorded now val, s.log ++ [(now, val.toNat)], val, now⟩,
        by simp [AtEvent.apply, atMeasured, zero, ran], by simpa using binned, fun _ => ?_⟩
      by_cases nohist : recorded.atFlags &&& atFlgNohist ≠ 0
      · simp [nohist]
      · have before :
            s.log ≠ [] → s.est.atCurrent = atBound params (histMax s.est.atHist) := by
          intro nonempty
          rw [tracks.current nonempty, if_neg (flags ▸ nohist)]
        simp [nohist, estimate before]
  | reinit now val flags =>
    exact ⟨_, rfl, binned_cleared params now, fun nonempty => absurd rfl nonempty⟩

/-- Every state a run of allowed events reaches from `at_init` is defined and
tracked. -/
theorem tracks_of_reachable {start : Int} {initial flags : UInt32} {state : Option AtSystem}
    (reachable : Machine.Reachable (AtEvent.apply params) AtEvent.Allowed
      (some (AtSystem.init start initial flags)) state) :
    ∃ s, state = some s ∧ Tracks params s := by
  refine reachable.invariant (fun state => ∃ s, state = some s ∧ Tracks params s)
    ⟨_, rfl, binned_cleared params start, fun nonempty => absurd rfl nonempty⟩ ?_
  rintro _ event ⟨s, rfl, tracks⟩ allowed
  exact tracks.step allowed

/-- Once a value was measured, `at_current` is the largest value measured
in the four bins' time, `[at_binstart - 3 binlimit, at_binstart + binlimit)`,
bounded to `[at_min, at_max]`; with `AT_FLG_NOHIST` it is the last value
measured, bounded. -/
theorem atCurrent_eq_windowMax {start : Int} {initial flags : UInt32} {state : Option AtSystem}
    (reachable : Machine.Reachable (AtEvent.apply params) AtEvent.Allowed
      (some (AtSystem.init start initial flags)) state) :
    ∃ s, state = some s ∧ (s.log ≠ [] → s.est.atCurrent.toNat = boundNat params
      (if s.est.atFlags &&& atFlgNohist ≠ 0 then s.last.toNat
        else maxWhere (inWindow s.est.atBinstart (binlimit params)) s.log)) := by
  obtain ⟨s, rfl, tracks⟩ := tracks_of_reachable reachable
  refine ⟨s, rfl, fun nonempty => ?_⟩
  rw [tracks.current nonempty, toNat_atBound]
  split
  · rfl
  · rw [tracks.binned.histMax_eq]

/-- Two measurements with the defaults: `10` at time 1000 starts the bins,
and `7` at time 1400 moves them over by two. -/
theorem atCurrent_eq_windowMax_two_measurements :
    ∃ s, AtEvent.apply defaultAtParams
        (AtEvent.apply defaultAtParams (some (AtSystem.init 1000 30 0)) (.measured 1000 10))
        (.measured 1400 7) = some s ∧
      (s.log ≠ [] → s.est.atCurrent.toNat = boundNat defaultAtParams
        (if s.est.atFlags &&& atFlgNohist ≠ 0 then s.last.toNat
          else maxWhere (inWindow s.est.atBinstart (binlimit defaultAtParams)) s.log)) :=
  atCurrent_eq_windowMax
    ((Machine.Reachable.start.step (AtEvent.measured 1000 10) (by decide)).step
      (AtEvent.measured 1400 7) (by decide))

/-- A value measured in the last three bins' time, `binlimit` seconds each,
is not forgotten: the estimate is at least that value, bounded. -/
theorem atCurrent_ge_of_recent {start : Int} {initial flags : UInt32} {state : Option AtSystem}
    (reachable : Machine.Reachable (AtEvent.apply params) AtEvent.Allowed
      (some (AtSystem.init start initial flags)) state) :
    ∃ s, state = some s ∧ (s.est.atFlags &&& atFlgNohist = 0 →
      ∀ m ∈ s.log, s.clock - 3 * binlimit params ≤ m.1 →
        boundNat params m.2 ≤ s.est.atCurrent.toNat) := by
  obtain ⟨s, rfl, tracks⟩ := tracks_of_reachable reachable
  refine ⟨s, rfl, fun histKept m logged recent => ?_⟩
  have nonempty : s.log ≠ [] := List.ne_nil_of_mem logged
  obtain ⟨_, beforeClock, belowEnd⟩ := tracks.binned.started nonempty
  have inside : inWindow s.est.atBinstart (binlimit params) m.1 := ⟨by omega, belowEnd m logged⟩
  rw [tracks.current nonempty, if_neg (not_not.mpr histKept), toNat_atBound,
    tracks.binned.histMax_eq]
  exact boundNat_mono params (le_maxWhere _ logged inside)

theorem atCurrent_ge_of_recent_two_measurements :
    ∃ s, AtEvent.apply defaultAtParams
        (AtEvent.apply defaultAtParams (some (AtSystem.init 1000 30 0)) (.measured 1000 10))
        (.measured 1400 7) = some s ∧
      (s.est.atFlags &&& atFlgNohist = 0 →
        ∀ m ∈ s.log, s.clock - 3 * binlimit defaultAtParams ≤ m.1 →
        boundNat defaultAtParams m.2 ≤ s.est.atCurrent.toNat) :=
  atCurrent_ge_of_recent
    ((Machine.Reachable.start.step (AtEvent.measured 1000 10) (by decide)).step
      (AtEvent.measured 1400 7) (by decide))

end Import
end Lustre
