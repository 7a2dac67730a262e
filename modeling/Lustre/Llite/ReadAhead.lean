import Mathlib.Data.Nat.Count
import Mathlib.Data.UInt
import Mathlib.Tactic.Ring
import Lustre.Library.Loop
import Lustre.Library.Raid0
import Lustre.Library.Word

/-!
# Strided read-ahead windows

`ll_readahead` describes the pages to read ahead in a `struct ra_io_arg`: the
page indices `[ria_start, ria_end]`, and for a strided reader a stride pattern
of `ria_pages` pages read out of every `ria_length`, counted from page
`ria_stoff`.  `ras_inside_ra_window` says whether a page is in the pattern,
`ria_page_count` counts the pages of the window through `stride_pg_count`, and
`ll_read_ahead_pages` walks the window, reading each page of the pattern until
the reserved pages run out and jumping over the gaps of the pattern.

The model keeps the source's words: `pgoff_t` and `unsigned long` are
`UInt64`, and the count is returned as an `int`.  The loop of
`ll_read_ahead_pages` runs on fuel, with the environment's answers
(`cl_io_read_ahead`, `ll_read_ahead_page`) as functions.

`stride_pg_count` counts the window exactly when it starts at or after
`ria_stoff` (`riaPageCount_eq_windowPages`), and `ll_read_ahead_pages` reads
the first pages of the window in order, one reserved page each, as long as no
gap of the pattern is longer than one page (`llReadAheadPages_reads_window`).
But a non-strided pattern (`ria_length = ria_pages`) starting before
`ria_stoff` is counted only from `ria_stoff` on, and the jump over a longer
gap lands one page past the start of the next period, so
`ll_read_ahead_pages` never reads the first page of a period after a gap
(`llReadAheadPages_skips_period_starts`).
-/

namespace Lustre
namespace Llite

/-- The window fields of `struct ra_io_arg`. -/
structure RaIoArg where
  /-- `ria_start`: the first page of the window. -/
  riaStart : UInt64
  /-- `ria_end`: the last page of the window. -/
  riaEnd : UInt64
  /-- `ria_stoff`: the page the stride pattern is counted from. -/
  riaStoff : UInt64
  /-- `ria_length`: the period of the stride pattern. -/
  riaLength : UInt64
  /-- `ria_pages`: the pages read at the start of each period. -/
  riaPages : UInt64
  deriving DecidableEq, Repr

/-- `stride_pg_count(st_off, st_len, st_pgs, off, length)`: the pages of
`[off, off + length)` in the pattern of `st_pgs` pages out of every `st_len`
from `st_off`. -/
def stridePgCount (stOff stLen stPgs off length : UInt64) : UInt64 :=
  let start := if off > stOff then off - stOff else 0
  let stop := if off + length > stOff then off + length - stOff else 0
  if stLen = 0 ∨ length = 0 ∨ stop = 0 then length
  else
    -- `do_div` leaves the quotient in place and returns the remainder
    let startLeft := start % stLen
    let start := start / stLen
    let startLeft := if startLeft < stPgs then stPgs - startLeft else 0
    let endLeft := stop % stLen
    let stop := stop / stLen
    let endLeft := if endLeft > stPgs then stPgs else endLeft
    if start = stop then endLeft - (stPgs - startLeft)
    else startLeft + stPgs * (stop - start - 1) + endLeft

/-- `ria_page_count(ria)`; the `unsigned long` count is returned as an `int`. -/
def riaPageCount (ria : RaIoArg) : Int32 :=
  let length : UInt64 := if ria.riaEnd ≥ ria.riaStart then ria.riaEnd - ria.riaStart + 1 else 0
  (stridePgCount ria.riaStoff ria.riaLength ria.riaPages ria.riaStart length).toUInt32.toInt32

/-- `ras_inside_ra_window(idx, ria)`. -/
def rasInsideRaWindow (idx : UInt64) (ria : RaIoArg) : Bool :=
  ria.riaLength = 0 || ria.riaLength = ria.riaPages ||
    (idx ≥ ria.riaStoff && (idx - ria.riaStoff) % ria.riaLength < ria.riaPages)

/-- The pages of `[ria_start, ria_end]` inside the window, in increasing order. -/
def windowPages (ria : RaIoArg) : List UInt64 :=
  ((List.range (ria.riaEnd.toNat + 1 - ria.riaStart.toNat)).map fun k => UInt64.ofNat (ria.riaStart.toNat + k)).filter
    (rasInsideRaWindow · ria)

/-! ## The read-ahead loop -/

/-- What the environment answers in `ll_read_ahead_pages`. -/
structure ReadAheadEnv where
  /-- `cl_io_read_ahead(env, io, index, &ra)`: its return code and `cra_end`. -/
  clIoReadAhead : UInt64 → Int32 × UInt64
  /-- `ll_read_ahead_page(env, io, queue, index)`: its return code. -/
  llReadAheadPage : UInt64 → Int32

/-- The variables of the loop of `ll_read_ahead_pages`. -/
structure RaLoop where
  /-- `page_idx`. -/
  pageIdx : UInt64
  /-- `*reserved_pages`. -/
  reserved : UInt64
  /-- `count`. -/
  count : Int32
  /-- `ra.cra_end`. -/
  craEnd : UInt64
  /-- The pages passed to `ll_read_ahead_page`, in order. -/
  calls : List UInt64
  deriving DecidableEq, Repr

/-- The read of one page of the pattern: the read-ahead extent is fetched
again when the page lies past it, and the page is read. -/
def readOnePage (env : ReadAheadEnv) (st : RaLoop) : Option RaLoop ⊕ RaLoop :=
  let fetched := if st.craEnd = 0 ∨ st.craEnd < st.pageIdx then some (env.clIoReadAhead st.pageIdx) else none
  let read (craEnd : UInt64) : Option RaLoop ⊕ RaLoop :=
    let rc := env.llReadAheadPage st.pageIdx
    let st := { st with craEnd := craEnd, calls := st.calls ++ [st.pageIdx] }
    let st := if rc = 0 then { st with reserved := st.reserved - 1, count := st.count + 1 } else st
    .inr { st with pageIdx := st.pageIdx + 1 }
  match fetched with
  | none => read st.craEnd
  | some (rc, craEnd) =>
    -- `break` on an error
    if rc < 0 then .inl (some st)
    -- `LASSERTF(ra.cra_end >= page_idx)`
    else if craEnd < st.pageIdx then .inl none
    else read craEnd

/-- One round of the `for` loop of `ll_read_ahead_pages`: `inl` leaves the
loop (with `none` for a failed `LASSERTF`), `inr` goes round again. -/
def llReadAheadPagesBody (env : ReadAheadEnv) (ria : RaIoArg) (strideRia : Bool) (st : RaLoop) :
    Option RaLoop ⊕ RaLoop :=
  if ¬ (st.pageIdx ≤ ria.riaEnd ∧ st.reserved > 0) then .inl (some st)
  else if rasInsideRaWindow st.pageIdx ria then readOnePage env st
  else if strideRia then
    -- `LASSERTF(page_idx >= ria->ria_stoff)`
    if st.pageIdx < ria.riaStoff then .inl none
    else
      let offset := (st.pageIdx - ria.riaStoff) % ria.riaLength
      -- skip the stride gap; the `for` increment still follows the `continue`
      if offset > ria.riaPages then .inr { st with pageIdx := st.pageIdx + (ria.riaLength - offset) + 1 }
      else .inr { st with pageIdx := st.pageIdx + 1 }
  else .inr { st with pageIdx := st.pageIdx + 1 }

/-- `ll_read_ahead_pages(env, io, queue, ria, reserved_pages, ra_end)` run for
at most `fuel` rounds: the loop's variables when it ends, with `page_idx` as
`*ra_end`; `none` is a failed `LASSERTF` or fuel that ran out. -/
def llReadAheadPages (env : ReadAheadEnv) (ria : RaIoArg) (reserved : UInt64) (fuel : Nat) : Option RaLoop :=
  let strideRia := ria.riaLength > ria.riaPages && ria.riaPages > 0
  (Loop.run (llReadAheadPagesBody env ria strideRia) fuel
    ⟨ria.riaStart, reserved, 0, 0, []⟩).join

/-- An environment in which every read-ahead extent ends at the page asked
for and every page read succeeds. -/
def readsAll : ReadAheadEnv where
  clIoReadAhead := fun idx => (0, idx)
  llReadAheadPage := fun _ => 0

/-! ## The count of a window -/

/-- The words `stride_pg_count` divides, read as numbers: the start and the
end of the window counted from `st_off`, a period, and the pages of a period. -/
structure StrideWords (sw ew len pgs : UInt64) (s e : Nat) : Prop where
  start : sw.toNat = s
  stop : ew.toNat = e
  ordered : s ≤ e
  stopSmall : e < 2 ^ 64
  periodPositive : 0 < len.toNat
  pagesLe : pgs.toNat ≤ len.toNat

/-- `start_left` after its fix-up: the pages of the pattern left in the first
period. -/
theorem StrideWords.toNat_startLeft {sw ew len pgs : UInt64} {s e : Nat} (words : StrideWords sw ew len pgs s e) :
    (if sw % len < pgs then pgs - sw % len else 0).toNat = pgs.toNat - min (s % len.toNat) pgs.toNat := by
  have offset : (sw % len).toNat = s % len.toNat := by rw [UInt64.toNat_mod, words.start]
  split
  · next inside =>
      rw [UInt64.lt_iff_toNat_lt, offset] at inside
      rw [UInt64.toNat_sub_of_le _ _ (by rw [UInt64.le_iff_toNat_le, offset]; omega), offset]
      omega
  · next outside =>
      rw [UInt64.lt_iff_toNat_lt, offset] at outside
      show 0 = _
      omega

/-- `end_left` after its fix-up: the pages of the pattern in the last period. -/
theorem StrideWords.toNat_endLeft {sw ew len pgs : UInt64} {s e : Nat} (words : StrideWords sw ew len pgs s e) :
    (if ew % len > pgs then pgs else ew % len).toNat = min (e % len.toNat) pgs.toNat := by
  have offset : (ew % len).toNat = e % len.toNat := by rw [UInt64.toNat_mod, words.stop]
  split
  · next above =>
      rw [gt_iff_lt, UInt64.lt_iff_toNat_lt, offset] at above
      omega
  · next notAbove =>
      rw [gt_iff_lt, UInt64.lt_iff_toNat_lt, offset] at notAbove
      rw [offset]
      omega

/-- The count `stride_pg_count` makes from its words is the number of pages of
`[s, e)` in the pattern. -/
theorem StrideWords.toNat_count {sw ew len pgs : UInt64} {s e : Nat} (words : StrideWords sw ew len pgs s e) :
    (if sw / len = ew / len then
        (if ew % len > pgs then pgs else ew % len) - (pgs - (if sw % len < pgs then pgs - sw % len else 0))
      else (if sw % len < pgs then pgs - sw % len else 0) + pgs * (ew / len - sw / len - 1) +
        (if ew % len > pgs then pgs else ew % len)).toNat =
      Nat.count (fun k => (s + k) % len.toNat < pgs.toNat) (e - s) := by
  have periods := words.periodPositive
  have pagesLe := words.pagesLe
  rw [Raid0.count_mod_lt_window periods pagesLe, Nat.add_sub_cancel' words.ordered]
  have startLeft := words.toNat_startLeft
  have endLeft := words.toNat_endLeft
  have startDiv : (sw / len).toNat = s / len.toNat := by rw [UInt64.toNat_div, words.start]
  have stopDiv : (ew / len).toNat = e / len.toNat := by rw [UInt64.toNat_div, words.stop]
  have startSplit := Nat.div_add_mod s len.toNat
  have stopSplit := Nat.div_add_mod e len.toNat
  have startMod := Nat.mod_lt s periods
  have stopMod := Nat.mod_lt e periods
  have ordered := words.ordered
  have rounds : s / len.toNat ≤ e / len.toNat := Nat.div_le_div_right ordered
  split
  · next samePeriod =>
      have same : s / len.toNat = e / len.toNat := by rw [← startDiv, ← stopDiv, samePeriod]
      rw [same] at startSplit ⊢
      -- both ends lie in one period: only the offsets differ
      generalize len.toNat * (e / len.toNat) = base at startSplit stopSplit
      have fewer : (pgs - (if sw % len < pgs then pgs - sw % len else 0)).toNat ≤
          (if ew % len > pgs then pgs else ew % len).toNat := by
        rw [UInt64.toNat_sub_of_le _ _ (by rw [UInt64.le_iff_toNat_le, startLeft]; omega), startLeft, endLeft]
        omega
      rw [UInt64.toNat_sub_of_le _ _ (UInt64.le_iff_toNat_le.2 fewer), endLeft,
        UInt64.toNat_sub_of_le _ _ (by rw [UInt64.le_iff_toNat_le, startLeft]; omega), startLeft]
      omega
  · next otherPeriod =>
      have later : s / len.toNat < e / len.toNat := by
        have : s / len.toNat ≠ e / len.toNat := fun same =>
          otherPeriod (UInt64.toNat.inj (by rw [startDiv, stopDiv, same]))
        omega
      -- the whole periods between the first and the last
      obtain ⟨whole, wholeIs⟩ : ∃ whole, e / len.toNat = s / len.toNat + whole + 1 :=
        ⟨e / len.toNat - s / len.toNat - 1, by omega⟩
      have middle : (ew / len - sw / len - 1).toNat = whole := by
        have apart : (ew / len - sw / len).toNat = whole + 1 := by
          rw [UInt64.toNat_sub_of_le _ _ (by rw [UInt64.le_iff_toNat_le, startDiv, stopDiv]; omega), startDiv,
            stopDiv]
          omega
        rw [UInt64.toNat_sub_of_le _ _ (by rw [UInt64.le_iff_toNat_le, apart]; simp), apart, UInt64.toNat_one]
        omega
      have wholePages : pgs.toNat * whole ≤ len.toNat * whole := Nat.mul_le_mul_right whole pagesLe
      have stopRounds : len.toNat * (e / len.toNat) = len.toNat * (s / len.toNat) + len.toNat * whole + len.toNat := by
        rw [wholeIs]
        ring
      have countRounds : e / len.toNat * pgs.toNat = s / len.toNat * pgs.toNat + pgs.toNat * whole + pgs.toNat := by
        rw [wholeIs]
        ring
      have stopSmall := words.stopSmall
      -- the products are atoms for the arithmetic below
      generalize len.toNat * (e / len.toNat) = stopBase at stopRounds stopSplit
      generalize len.toNat * (s / len.toNat) = startBase at stopRounds startSplit
      generalize len.toNat * whole = wholeSpan at stopRounds wholePages
      generalize e / len.toNat * pgs.toNat = stopCount at countRounds ⊢
      generalize s / len.toNat * pgs.toNat = startCount at countRounds ⊢
      generalize wholeCountIs : pgs.toNat * whole = wholeCount at wholePages countRounds
      have wholeValue : (pgs * (ew / len - sw / len - 1)).toNat = wholeCount := by
        rw [UInt64.toNat_mul_of_lt (by rw [middle, wholeCountIs]; omega), middle, wholeCountIs]
      have headValue : ((if sw % len < pgs then pgs - sw % len else 0) + pgs * (ew / len - sw / len - 1)).toNat =
          pgs.toNat - min (s % len.toNat) pgs.toNat + wholeCount := by
        rw [UInt64.toNat_add_of_lt (by rw [startLeft, wholeValue]; omega), startLeft, wholeValue]
      rw [UInt64.toNat_add_of_lt (by rw [headValue, endLeft]; omega), headValue, endLeft]
      omega

/-- `stride_pg_count` of a window that starts at or after `st_off` and ends
below the top of the address space, for a pattern of at most `st_len` pages:
the whole window without a pattern, else its pages in the pattern. -/
theorem toNat_stridePgCount {stOff stLen stPgs off length : UInt64} (afterStoff : stOff ≤ off)
    (fits : off.toNat + length.toNat < 2 ^ 64) (pagesLe : stPgs.toNat ≤ stLen.toNat) :
    (stridePgCount stOff stLen stPgs off length).toNat =
      if stLen = 0 then length.toNat
      else Nat.count (fun k => (off.toNat - stOff.toNat + k) % stLen.toNat < stPgs.toNat) length.toNat := by
  have offLe := UInt64.le_iff_toNat_le.1 afterStoff
  have sumNat : (off + length).toNat = off.toNat + length.toNat := UInt64.toNat_add_of_lt fits
  have startIs : (if off > stOff then off - stOff else 0) = off - stOff := by
    split
    · rfl
    · next notAfter =>
        rw [UInt64.le_antisymm (UInt64.not_lt.1 notAfter) afterStoff, UInt64.sub_self]
  unfold stridePgCount
  dsimp only
  rw [startIs]
  by_cases periodZero : stLen = 0
  · rw [if_pos (Or.inl periodZero), if_pos periodZero]
  rw [if_neg periodZero]
  by_cases empty : length = 0
  · rw [if_pos (Or.inr (Or.inl empty)), empty]
    rfl
  have nonempty : 0 < length.toNat := by
    rcases Nat.eq_zero_or_pos length.toNat with zero | positive
    · exact absurd (UInt64.toNat.inj (zero.trans UInt64.toNat_zero.symm)) empty
    · exact positive
  have stopIs : (if off + length > stOff then off + length - stOff else 0) = off + length - stOff :=
    if_pos (by rw [gt_iff_lt, UInt64.lt_iff_toNat_lt, sumNat]; omega)
  have stopNat : (off + length - stOff).toNat = off.toNat - stOff.toNat + length.toNat := by
    rw [UInt64.toNat_sub_of_le _ _ (by rw [UInt64.le_iff_toNat_le, sumNat]; omega), sumNat]
    omega
  have stopNonzero : ¬ off + length - stOff = 0 := fun zero => by
    have := congrArg UInt64.toNat zero
    rw [stopNat, UInt64.toNat_zero] at this
    omega
  rw [stopIs, if_neg (by simp only [periodZero, empty, stopNonzero, or_self, not_false_eq_true])]
  have words : StrideWords (off - stOff) (off + length - stOff) stLen stPgs (off.toNat - stOff.toNat)
      (off.toNat - stOff.toNat + length.toNat) :=
    ⟨UInt64.toNat_sub_of_le _ _ afterStoff, stopNat, by omega, by omega,
      Nat.pos_of_ne_zero fun zero => periodZero (UInt64.toNat.inj (zero.trans UInt64.toNat_zero.symm)), pagesLe⟩
  rw [words.toNat_count, Nat.add_sub_cancel_left]

/-- With a pattern and from `ria_stoff` on, a page is in the window exactly
when its offset in its period is below `ria_pages`. -/
theorem rasInsideRaWindow_iff {idx : UInt64} {ria : RaIoArg} (afterStoff : ria.riaStoff ≤ idx)
    (periodPositive : 0 < ria.riaLength.toNat) :
    rasInsideRaWindow idx ria = true ↔
      (idx.toNat - ria.riaStoff.toNat) % ria.riaLength.toNat < ria.riaPages.toNat := by
  have offset : ((idx - ria.riaStoff) % ria.riaLength).toNat = (idx.toNat - ria.riaStoff.toNat) % ria.riaLength.toNat := by
    rw [UInt64.toNat_mod, UInt64.toNat_sub_of_le _ _ afterStoff]
  have periodNonzero : ria.riaLength ≠ 0 := fun zero => by
    rw [zero, UInt64.toNat_zero] at periodPositive
    exact absurd periodPositive (Nat.lt_irrefl 0)
  unfold rasInsideRaWindow
  by_cases whole : ria.riaLength = ria.riaPages
  · -- without gaps every offset is in the pattern
    have below := Nat.mod_lt (idx.toNat - ria.riaStoff.toNat) periodPositive
    rw [← whole]
    simp only [periodNonzero, decide_true, decide_false, Bool.false_or, Bool.true_or, true_iff]
    exact below
  · simp only [periodNonzero, whole, decide_false, Bool.false_or, Bool.and_eq_true, decide_eq_true_eq,
      afterStoff, true_and, UInt64.lt_iff_toNat_lt, offset]

/-- The pages of the window, as a count over the offsets from `ria_start`. -/
theorem length_windowPages (ria : RaIoArg) :
    (windowPages ria).length =
      Nat.count (fun k => rasInsideRaWindow (UInt64.ofNat (ria.riaStart.toNat + k)) ria = true)
        (ria.riaEnd.toNat + 1 - ria.riaStart.toNat) := by
  rw [windowPages, ← List.countP_eq_length_filter, List.countP_map, Nat.count]
  simp only [Function.comp_def, Bool.decide_eq_true]

/-- For a window from `ria_stoff` on that ends below the top of the address
space, with at most `ria_length` pages in a period and fewer than `2^31`
pages, `ria_page_count` is the number of pages in the window. -/
theorem riaPageCount_eq_windowPages {ria : RaIoArg} (ordered : ria.riaStart ≤ ria.riaEnd)
    (belowTop : ria.riaEnd.toNat + 1 < 2 ^ 64) (afterStoff : ria.riaStoff ≤ ria.riaStart)
    (pagesLe : ria.riaPages.toNat ≤ ria.riaLength.toNat) (small : (windowPages ria).length < 2 ^ 31) :
    (riaPageCount ria).toInt = (windowPages ria).length := by
  have orderedNat := UInt64.le_iff_toNat_le.1 ordered
  have stoffNat := UInt64.le_iff_toNat_le.1 afterStoff
  have lengthNat : (ria.riaEnd - ria.riaStart + 1).toNat = ria.riaEnd.toNat + 1 - ria.riaStart.toNat := by
    rw [UInt64.toNat_add_of_lt (by rw [UInt64.toNat_sub_of_le _ _ ordered, UInt64.toNat_one]; omega),
      UInt64.toNat_sub_of_le _ _ ordered, UInt64.toNat_one]
    omega
  -- every page of the window, read as a word, is the page itself
  have pageNat : ∀ k < ria.riaEnd.toNat + 1 - ria.riaStart.toNat,
      (UInt64.ofNat (ria.riaStart.toNat + k)).toNat = ria.riaStart.toNat + k := fun k within => by
    rw [UInt64.toNat_ofNat', Nat.mod_eq_of_lt (by omega)]
  have counted : (stridePgCount ria.riaStoff ria.riaLength ria.riaPages ria.riaStart
      (ria.riaEnd - ria.riaStart + 1)).toNat = (windowPages ria).length := by
    rw [toNat_stridePgCount afterStoff (by rw [lengthNat]; omega) pagesLe, lengthNat, length_windowPages]
    split
    · next noPattern =>
        -- without a pattern every page is in the window
        symm
        apply Nat.count_iff_forall.2
        intro k _
        simp only [rasInsideRaWindow, noPattern, decide_true, Bool.true_or]
    · next pattern =>
        have periodPositive : 0 < ria.riaLength.toNat :=
          Nat.pos_of_ne_zero fun zero => pattern (UInt64.toNat.inj (zero.trans UInt64.toNat_zero.symm))
        apply le_antisymm
        all_goals
          apply Nat.count_mono_left
          intro k within
          rw [rasInsideRaWindow_iff (by rw [UInt64.le_iff_toNat_le, pageNat k within]; omega) periodPositive,
            pageNat k within, show ria.riaStart.toNat + k - ria.riaStoff.toNat =
              ria.riaStart.toNat - ria.riaStoff.toNat + k by omega]
          exact id
  rw [riaPageCount, if_pos ordered, UInt32.toInt_toInt32, UInt64.toNat_toUInt32, counted, Nat.mod_eq_of_lt (by omega),
    Int.bmod_eq_of_le (by omega) (by omega)]

/-! ## Reading the window -/

/-- The pages of the window from page `i` on. -/
def windowPagesFrom (ria : RaIoArg) (i : Nat) : List UInt64 :=
  ((List.range (ria.riaEnd.toNat + 1 - i)).map fun k => UInt64.ofNat (i + k)).filter (rasInsideRaWindow · ria)

theorem windowPagesFrom_start (ria : RaIoArg) : windowPagesFrom ria ria.riaStart.toNat = windowPages ria := rfl

theorem windowPagesFrom_past (ria : RaIoArg) : windowPagesFrom ria (ria.riaEnd.toNat + 1) = [] := by
  simp [windowPagesFrom]

/-- The window from a page of it is that page, if it is in the pattern, and
the window from the next page. -/
theorem windowPagesFrom_of_le {ria : RaIoArg} {i : Nat} (within : i ≤ ria.riaEnd.toNat) :
    windowPagesFrom ria i =
      (if rasInsideRaWindow (UInt64.ofNat i) ria then [UInt64.ofNat i] else []) ++ windowPagesFrom ria (i + 1) := by
  unfold windowPagesFrom
  rw [show ria.riaEnd.toNat + 1 - i = (ria.riaEnd.toNat + 1 - (i + 1)) + 1 by omega, List.range_succ_eq_map]
  simp only [List.map_cons, List.map_map, Nat.add_zero, Function.comp_def, Nat.add_succ, Nat.succ_add]
  rw [List.filter_cons]
  split <;> rfl

/-- The environment of the claim: every `cl_io_read_ahead` succeeds with an
extent that covers the page, and every page is read. -/
structure ReadsEveryPage (env : ReadAheadEnv) : Prop where
  extent : ∀ idx, ¬ (env.clIoReadAhead idx).1 < 0 ∧ ¬ (env.clIoReadAhead idx).2 < idx
  page : ∀ idx, env.llReadAheadPage idx = 0

/-- In such an environment a page of the pattern is read, the reserve goes
down by one, and the loop goes on with the next page. -/
theorem ReadsEveryPage.readOnePage {env : ReadAheadEnv} (reads : ReadsEveryPage env) (st : RaLoop) :
    ∃ next, Llite.readOnePage env st = .inr next ∧ next.calls = st.calls ++ [st.pageIdx] ∧
      next.reserved = st.reserved - 1 ∧ next.pageIdx = st.pageIdx + 1 := by
  unfold Llite.readOnePage
  dsimp only
  by_cases refetch : st.craEnd = 0 ∨ st.craEnd < st.pageIdx
  · -- the page lies past the extent: `cl_io_read_ahead` again
    obtain ⟨succeeded, covers⟩ := reads.extent st.pageIdx
    rw [if_pos refetch]
    dsimp only
    rw [if_neg succeeded, if_neg covers, if_pos (reads.page st.pageIdx)]
    exact ⟨_, rfl, rfl, rfl, rfl⟩
  · rw [if_neg refetch]
    dsimp only
    rw [if_pos (reads.page st.pageIdx)]
    exact ⟨_, rfl, rfl, rfl, rfl⟩

/-- The loop of `ll_read_ahead_pages` at a page of the window: the pages read
so far, followed by as many next pages of the window as the reserve allows,
are the first `r` pages of the window, and each read took one page from the
reserve. -/
structure Reading (ria : RaIoArg) (r : Nat) (st : RaLoop) : Prop where
  started : ria.riaStart.toNat ≤ st.pageIdx.toNat
  within : st.pageIdx.toNat ≤ ria.riaEnd.toNat + 1
  read : st.calls ++ (windowPagesFrom ria st.pageIdx.toNat).take st.reserved.toNat = (windowPages ria).take r
  reserve : st.reserved.toNat + st.calls.length = r

/-- What `ll_read_ahead_pages` should end with: the first `r` pages of the
window read, in order, and one page of the reserve spent on each. -/
def ReadWindow (ria : RaIoArg) (r : Nat) : Option RaLoop → Prop
  | some st => st.calls = (windowPages ria).take r ∧ st.reserved.toNat = r - min r (windowPages ria).length
  | none => False

/-- Where the loop stops, the pages it read are the first `r` of the window. -/
theorem Reading.readWindow {ria : RaIoArg} {r : Nat} {st : RaLoop} (reading : Reading ria r st)
    (stops : ¬ (st.pageIdx ≤ ria.riaEnd ∧ st.reserved > 0)) : ReadWindow ria r (some st) := by
  have rest : (windowPagesFrom ria st.pageIdx.toNat).take st.reserved.toNat = [] := by
    by_cases past : st.pageIdx ≤ ria.riaEnd
    · have empty : st.reserved.toNat = 0 := by
        have : ¬ st.reserved > 0 := fun positive => stops ⟨past, positive⟩
        rw [gt_iff_lt, UInt64.lt_iff_toNat_lt, UInt64.toNat_zero] at this
        omega
      rw [empty, List.take_zero]
    · rw [UInt64.le_iff_toNat_le] at past
      rw [show st.pageIdx.toNat = ria.riaEnd.toNat + 1 by have := reading.within; omega, windowPagesFrom_past,
        List.take_nil]
  have read := reading.read
  rw [rest, List.append_nil] at read
  have reserve := reading.reserve
  refine ⟨read, ?_⟩
  rw [read, List.length_take] at reserve
  omega

section Loop

variable {env : ReadAheadEnv} {ria : RaIoArg} {r : Nat}

/-- A page that is not in the pattern is passed over by one: the jump over a
gap is never taken when no gap is longer than one page. -/
theorem llReadAheadPagesBody_of_outside {st : RaLoop}
    (noGap : ria.riaPages = 0 ∨ ria.riaLength.toNat ≤ ria.riaPages.toNat + 1)
    (afterStoff : ria.riaPages < ria.riaLength → 0 < ria.riaPages → ria.riaStoff ≤ st.pageIdx)
    (goesOn : st.pageIdx ≤ ria.riaEnd ∧ st.reserved > 0) (outside : rasInsideRaWindow st.pageIdx ria = false) :
    llReadAheadPagesBody env ria (ria.riaLength > ria.riaPages && ria.riaPages > 0) st =
      .inr { st with pageIdx := st.pageIdx + 1 } := by
  unfold llReadAheadPagesBody
  rw [if_neg (not_not.2 goesOn), if_neg (by rw [outside]; exact Bool.false_ne_true)]
  split
  · next stride =>
      simp only [Bool.and_eq_true, decide_eq_true_eq, gt_iff_lt] at stride
      have after := afterStoff stride.1 stride.2
      rw [if_neg (UInt64.not_lt.2 after)]
      dsimp only
      have gap : ria.riaLength.toNat ≤ ria.riaPages.toNat + 1 := by
        rcases noGap with none | short
        · exact absurd stride.2 (by rw [none]; exact UInt64.lt_irrefl 0)
        · exact short
      have offsetSmall := Nat.mod_lt (st.pageIdx - ria.riaStoff).toNat
        (show 0 < ria.riaLength.toNat from Nat.lt_of_le_of_lt (Nat.zero_le _) (UInt64.lt_iff_toNat_lt.1 stride.1))
      rw [if_neg (by rw [gt_iff_lt, UInt64.lt_iff_toNat_lt, UInt64.toNat_mod]; omega)]
  · rfl

/-- One round of the loop from a page of the window, in the environment of
the claim and with no gap longer than one page: the loop stops with the first
`r` pages of the window read, or goes on to the next page with `Reading`
kept. -/
theorem Reading.step {st : RaLoop} (reads : ReadsEveryPage env) (belowTop : ria.riaEnd.toNat + 1 < 2 ^ 64)
    (noGap : ria.riaPages = 0 ∨ ria.riaLength.toNat ≤ ria.riaPages.toNat + 1)
    (strided : ria.riaPages < ria.riaLength → 0 < ria.riaPages → ria.riaStoff ≤ ria.riaStart)
    (reading : Reading ria r st) :
    (∃ result, llReadAheadPagesBody env ria (ria.riaLength > ria.riaPages && ria.riaPages > 0) st = .inl result ∧
        ReadWindow ria r result) ∨
      ∃ next, llReadAheadPagesBody env ria (ria.riaLength > ria.riaPages && ria.riaPages > 0) st = .inr next ∧
        Reading ria r next ∧ next.pageIdx.toNat = st.pageIdx.toNat + 1 := by
  by_cases goesOn : st.pageIdx ≤ ria.riaEnd ∧ st.reserved > 0
  swap
  · unfold llReadAheadPagesBody
    exact .inl ⟨_, if_pos goesOn, reading.readWindow goesOn⟩
  have idxNat := UInt64.le_iff_toNat_le.1 goesOn.1
  have nextIdx : (st.pageIdx + 1).toNat = st.pageIdx.toNat + 1 :=
    UInt64.toNat_add_of_lt (by rw [UInt64.toNat_one]; omega)
  have windowHere := windowPagesFrom_of_le idxNat
  rw [UInt64.ofNat_toNat] at windowHere
  cases inside : rasInsideRaWindow st.pageIdx ria
  · -- not in the pattern: the next page, nothing read
    rw [inside, if_neg Bool.false_ne_true, List.nil_append] at windowHere
    have after : ria.riaPages < ria.riaLength → 0 < ria.riaPages → ria.riaStoff ≤ st.pageIdx :=
      fun longer some => UInt64.le_trans (strided longer some) (UInt64.le_iff_toNat_le.2 reading.started)
    refine .inr ⟨_, llReadAheadPagesBody_of_outside noGap after goesOn inside, ⟨?_, ?_, ?_, reading.reserve⟩, nextIdx⟩
    · show ria.riaStart.toNat ≤ (st.pageIdx + 1).toNat
      rw [nextIdx]
      exact Nat.le_succ_of_le reading.started
    · show (st.pageIdx + 1).toNat ≤ ria.riaEnd.toNat + 1
      rw [nextIdx]
      omega
    · show st.calls ++ (windowPagesFrom ria (st.pageIdx + 1).toNat).take st.reserved.toNat = _
      rw [nextIdx, ← windowHere]
      exact reading.read
  · -- in the pattern: the page is read
    rw [inside, if_pos rfl] at windowHere
    obtain ⟨next, readsIt, calls, reserved, idx⟩ := reads.readOnePage st
    have positive : 0 < st.reserved.toNat := by
      have := goesOn.2
      rwa [gt_iff_lt, UInt64.lt_iff_toNat_lt, UInt64.toNat_zero] at this
    have reserveNat : (st.reserved - 1).toNat = st.reserved.toNat - 1 :=
      UInt64.toNat_sub_of_le _ _ (UInt64.le_iff_toNat_le.2 (by rw [UInt64.toNat_one]; omega)) |>.trans
        (by rw [UInt64.toNat_one])
    have body : llReadAheadPagesBody env ria (ria.riaLength > ria.riaPages && ria.riaPages > 0) st = .inr next := by
      unfold llReadAheadPagesBody
      rw [if_neg (not_not.2 goesOn), if_pos inside, readsIt]
    refine .inr ⟨next, body, ⟨?_, ?_, ?_, ?_⟩, by rw [idx, nextIdx]⟩
    · rw [idx, nextIdx]
      exact Nat.le_succ_of_le reading.started
    · rw [idx, nextIdx]
      omega
    · -- the page read moves from the window to the pages read
      obtain ⟨left, leftIs⟩ : ∃ left, st.reserved.toNat = left + 1 := ⟨st.reserved.toNat - 1, by omega⟩
      rw [calls, reserved, idx, nextIdx, reserveNat, ← reading.read, windowHere, leftIs, Nat.add_sub_cancel,
        List.singleton_append, List.take_succ_cons, List.append_assoc, List.singleton_append]
    · rw [calls, reserved, reserveNat, List.length_append, List.length_singleton, ← reading.reserve]
      omega

/-- With enough fuel, in the environment of the claim, for a window that ends
below the top of the address space and has no gap longer than one page,
`ll_read_ahead_pages` reads exactly the first `r` pages of the window, in
order, and spends one reserved page on each. -/
theorem llReadAheadPages_reads_window {reserved : UInt64} {fuel : Nat} (reads : ReadsEveryPage env)
    (ordered : ria.riaStart ≤ ria.riaEnd) (belowTop : ria.riaEnd.toNat + 1 < 2 ^ 64)
    (noGap : ria.riaPages = 0 ∨ ria.riaLength.toNat ≤ ria.riaPages.toNat + 1)
    (strided : ria.riaPages < ria.riaLength → 0 < ria.riaPages → ria.riaStoff ≤ ria.riaStart)
    (enough : ria.riaEnd.toNat + 1 - ria.riaStart.toNat < fuel) :
    ∃ st, llReadAheadPages env ria reserved fuel = some st ∧
      st.calls = (windowPages ria).take reserved.toNat ∧
      st.reserved.toNat = reserved.toNat - min reserved.toNat (windowPages ria).length := by
  have start : Reading ria reserved.toNat ⟨ria.riaStart, reserved, 0, 0, []⟩ :=
    ⟨le_refl _, show ria.riaStart.toNat ≤ ria.riaEnd.toNat + 1 by have := UInt64.le_iff_toNat_le.1 ordered; omega,
      by rw [windowPagesFrom_start]; rfl, rfl⟩
  -- the rank is the number of pages left before the end of the window
  obtain ⟨result, good, ran⟩ := Loop.run_of_ranked
    (fun rank st => Reading ria reserved.toNat st ∧ rank = ria.riaEnd.toNat + 1 - st.pageIdx.toNat)
    (ReadWindow ria reserved.toNat)
    (fun rank st ⟨reading, rankIs⟩ => by
      rcases reading.step reads belowTop noGap strided with ⟨result, leaves, good⟩ | ⟨next, goesOn, kept, idx⟩
      · exact .inl ⟨result, leaves, good⟩
      · refine .inr ⟨_, next, ?_, goesOn, kept, rfl⟩
        have := kept.within
        omega)
    _ _ ⟨start, rfl⟩ fuel enough
  cases result with
  | none => exact absurd good id
  | some st =>
    refine ⟨st, ?_, good⟩
    rw [llReadAheadPages, ran, Option.join_some]

theorem readsAll_readsEveryPage : ReadsEveryPage readsAll :=
  ⟨fun idx => ⟨(by decide : ¬ (0 : Int32) < 0), UInt64.lt_irrefl idx⟩, fun _ => rfl⟩

/-- A strided reader of one page out of every four from page 0, with the
window `[0, 11]` and ten pages reserved: the window holds pages 0, 4 and 8,
but each jump over a gap lands on the second page of the next period, so
`ll_read_ahead_pages` reads page 0 only.  And a pattern without gaps
(`ria_length = ria_pages = 5`) counted from page 10, in the window `[0, 19]`
of twenty pages, is counted as ten. -/
theorem llReadAheadPages_skips_period_starts :
    ReadsEveryPage readsAll ∧ windowPages ⟨0, 11, 0, 4, 1⟩ = [0, 4, 8] ∧
      (llReadAheadPages readsAll ⟨0, 11, 0, 4, 1⟩ 10 20).map (·.calls) = some [0] ∧
      (windowPages ⟨0, 19, 10, 5, 5⟩).length = 20 ∧ riaPageCount ⟨0, 19, 10, 5, 5⟩ = 10 :=
  ⟨readsAll_readsEveryPage, by decide, by decide, by decide, by decide⟩

end Loop

end Llite
end Lustre
