import Lustre.Ldlm.IntervalTree
import Lustre.Library.Word
import Mathlib.Data.Nat.Factorization.Basic

/-!
# Growing a granted extent lock (ldlm/ldlm_extent.c)

When the server grants an extent lock it may grant more than was asked:
`ldlm_extent_policy` grows the lock's extent as far as the granted locks of
conflicting modes (`ldlm_extent_internal_policy_granted`, through
`interval_expand` on each mode's interval tree) and the waiting locks
(`ldlm_extent_internal_policy_waiting`) let it, and then
`ldlm_extent_internal_policy_fixup` shrinks the result back to the alignment of
the request and, on a contended resource, to at most 32MB.

The lock modes are the bits of `enum ldlm_mode`, and `lockmode_compat` reads the
compatibility bitmasks of `lck_compat_array`.  A resource keeps its granted and
waiting queues and one interval tree per mode, `lr_itree[i]` holding the modes
`1 << i`.  The locks attached to an interval node (its `li_group`) are not stored
in the node: they are the granted locks of the tree's mode with the node's
extent, in the order of the granted queue, which is how `ldlm_extent_add_lock`
builds them.

`ldlmExtentInternalPolicyFixup_aligned` says that the fix-up only shrinks and
keeps the alignment of the request: for a request whose start and end + 1 are
page aligned and a candidate extent around it, the result lies between the two,
and it starts and ends + 1 on multiples of the largest power of two dividing both
the request's start and end + 1, unless it is the whole file.
-/

namespace Lustre.Ldlm

/-! ## Modes, extents and locks -/

/-- enum ldlm_mode, without LCK_MINMODE and LCK_MAXMODE. -/
inductive LdlmMode
  | ex
  | pw
  | pr
  | cw
  | cr
  | nl
  | group
  | cos
  deriving DecidableEq, Repr

namespace LdlmMode

/-- The value of the mode, one bit. -/
def bits : LdlmMode → Nat
  | ex => 1
  | pw => 2
  | pr => 4
  | cw => 8
  | cr => 16
  | nl => 32
  | group => 64
  | cos => 128

/-- ldlm_mode_to_index: the tree of the mode in `lr_itree`. -/
def toIndex : LdlmMode → Nat
  | ex => 0
  | pw => 1
  | pr => 2
  | cw => 3
  | cr => 4
  | nl => 5
  | group => 6
  | cos => 7

theorem bits_eq_two_pow_toIndex (mode : LdlmMode) : mode.bits = 2 ^ mode.toIndex := by
  cases mode <;> rfl

theorem toIndex_injective : Function.Injective toIndex := by
  intro a b same
  cases a <;> cases b <;> first | rfl | cases same

/-- Two modes share no bit unless they are one mode. -/
theorem bits_and_bits_eq_zero {a b : LdlmMode} (other : a ≠ b) : a.bits &&& b.bits = 0 := by
  cases a <;> cases b <;> first | exact absurd rfl other | decide

end LdlmMode

/-- LCK_MODE_NUM -/
def lckModeNum : Nat := 8

theorem LdlmMode.toIndex_lt_lckModeNum (mode : LdlmMode) : mode.toIndex < lckModeNum := by
  cases mode <;> decide

/-- Each index of `lr_itree` is the index of a mode. -/
theorem LdlmMode.exists_toIndex_eq {idx : Nat} (below : idx < lckModeNum) :
    ∃ mode : LdlmMode, mode.toIndex = idx :=
  match idx, below with
  | 0, _ => ⟨.ex, rfl⟩
  | 1, _ => ⟨.pw, rfl⟩
  | 2, _ => ⟨.pr, rfl⟩
  | 3, _ => ⟨.cw, rfl⟩
  | 4, _ => ⟨.cr, rfl⟩
  | 5, _ => ⟨.nl, rfl⟩
  | 6, _ => ⟨.group, rfl⟩
  | 7, _ => ⟨.cos, rfl⟩

/-- lck_compat_array: the modes compatible with each mode, as a mask. -/
def lckCompatArray : LdlmMode → Nat
  | .ex => 32
  | .pw => 32 ||| 16
  | .pr => 32 ||| 16 ||| 4
  | .cw => 32 ||| 16 ||| 8
  | .cr => 32 ||| 16 ||| 8 ||| 4 ||| 2
  | .nl => 32 ||| 16 ||| 8 ||| 4 ||| 2 ||| 1 ||| 64
  | .group => 64 ||| 32
  | .cos => 128

/-- lockmode_compat -/
def lockmodeCompat (existMode newMode : LdlmMode) : Bool :=
  lckCompatArray existMode &&& newMode.bits ≠ 0

theorem lockmodeCompat_comm (a b : LdlmMode) : lockmodeCompat a b = lockmodeCompat b a := by
  cases a <;> cases b <;> decide

/-- struct ldlm_extent: the range from `start` to `stop` (its `end`) and the group id. -/
structure LdlmExtent where
  start : UInt64
  stop : UInt64
  gid : UInt64
  deriving DecidableEq, Repr

/-- ldlm_extent_overlap -/
def ldlmExtentOverlap (ex1 ex2 : LdlmExtent) : Bool :=
  ex1.start ≤ ex2.stop && ex2.start ≤ ex1.stop

/-- OBD_OBJECT_EOF -/
def obdObjectEof : UInt64 := 0xffffffffffffffff

/-- PAGE_CACHE_SIZE -/
def pageCacheSize : UInt64 := 4096

/-- LDLM_MAX_GROWN_EXTENT -/
def ldlmMaxGrownExtent : UInt64 := 32 * 1024 * 1024 - 1

/-- The bits of `l_flags` the extent code reads or sets. -/
def ldlmFlLockChanged : UInt64 := 0x1

def ldlmFlAstSent : UInt64 := 0x20

def ldlmFlNoTimeout : UInt64 := 0x20000

def ldlmFlBlockNowait : UInt64 := 0x40000

/-- The fields of struct ldlm_lock that extent locking reads: the lock is
named by its handle, which stands for its address; `lGrantedMode` is `none`
while the lock is not granted (LCK_MINMODE); `lPolicyExtent` is
`l_policy_data.l_extent`; `lExport` names the export, `none` for a local lock;
`lBlockingAst` says whether the lock has a blocking callback. -/
structure LdlmLock where
  lHandle : Nat
  lReqMode : LdlmMode
  lGrantedMode : Option LdlmMode
  lReqExtent : LdlmExtent
  lPolicyExtent : LdlmExtent
  lExport : Option Nat
  lFlags : UInt64
  lReaders : Nat
  lWriters : Nat
  lBlockingAst : Bool
  deriving DecidableEq, Repr

/-- struct ldlm_interval_tree -/
structure LdlmIntervalTree where
  litSize : Nat
  litMode : LdlmMode
  litRoot : SearchTree.Tree IntervalNode

/-- The queues and trees of struct ldlm_resource that extent locking uses;
`lrItree` is `lr_itree`, in index order. -/
structure LdlmResource where
  lrGranted : List LdlmLock
  lrWaiting : List LdlmLock
  lrItree : List LdlmIntervalTree

/-! ## ldlm_extent_internal_policy_fixup -/

/-- One round of the loop that doubles the mask up to the lowest set bit of the
request's alignment. -/
def alignMaskBody (reqAlign : UInt64) (mask : UInt64) : UInt64 ⊕ UInt64 :=
  if reqAlign &&& mask = 0 then .inr (mask <<< 1) else .inl mask

/-- The alignment mask of the fix-up before `mask -= 1`: PAGE_CACHE_SIZE, or the
lowest set bit of a page-aligned `reqAlign`; `none` if the loop were still
going after 64 rounds. -/
def alignMask (reqAlign : UInt64) : Option UInt64 :=
  if reqAlign ≠ 0 ∧ reqAlign &&& (pageCacheSize - 1) = 0 then
    Loop.run (alignMaskBody reqAlign) 64 pageCacheSize
  else some pageCacheSize

/-- The first step of the fix-up: a PW or CW lock on a contended resource
grows at most LDLM_MAX_GROWN_EXTENT past its start. -/
def fixupClamp (req : LdlmLock) (newEx : LdlmExtent) (conflicting : Nat) : LdlmExtent :=
  let reqStart := req.lReqExtent.start
  let reqEnd := req.lReqExtent.stop
  if conflicting > 32 ∧ (req.lReqMode = .pw ∨ req.lReqMode = .cw) ∧
      reqEnd < reqStart + ldlmMaxGrownExtent then
    { newEx with stop := minU64 (reqStart + ldlmMaxGrownExtent) newEx.stop }
  else newEx

/-- ldlm_extent_internal_policy_fixup: the grown extent `newEx` of `req` after
the 32MB clamp and the alignment; `none` where one of its two assertions fails. -/
def ldlmExtentInternalPolicyFixup (req : LdlmLock) (newEx : LdlmExtent) (conflicting : Nat) :
    Option LdlmExtent :=
  let reqStart := req.lReqExtent.start
  let reqEnd := req.lReqExtent.stop
  let newEx := fixupClamp req newEx conflicting
  if newEx.start = 0 ∧ newEx.stop = obdObjectEof then some newEx
  else
    (alignMask ((reqEnd + 1) ||| reqStart)).bind fun mask =>
      let mask := mask - 1
      let fixed := { newEx with start := ((newEx.start - 1) ||| mask) + 1,
                                stop := ((newEx.stop + 1) &&& ~~~mask) - 1 }
      if fixed.start ≤ reqStart ∧ fixed.stop ≥ reqEnd then some fixed else none

/-- `2^k` is the largest power of two that divides both `a` and `b`. -/
def IsLargestCommonPowerOfTwo (a b k : Nat) : Prop :=
  2 ^ k ∣ a ∧ 2 ^ k ∣ b ∧ ¬ (2 ^ (k + 1) ∣ a ∧ 2 ^ (k + 1) ∣ b)


/-- The mask loop stops at the lowest set bit of a nonzero, page-aligned
`reqAlign`: it starts at bit 12 and moves up one bit a round while that bit is
clear. -/
theorem alignMask_spec {reqAlign : UInt64} (nonzero : reqAlign ≠ 0)
    (aligned : 2 ^ 12 ∣ reqAlign.toNat) :
    ∃ t mask, alignMask reqAlign = some mask ∧ mask.toNat = 2 ^ t ∧ 12 ≤ t ∧ t < 64 ∧
      2 ^ t ∣ reqAlign.toNat ∧ ¬ 2 ^ (t + 1) ∣ reqAlign.toNat := by
  have notZero : reqAlign.toNat ≠ 0 := fun isZero => nonzero (UInt64.toNat_inj.mp isZero)
  obtain ⟨t, m, odd, split⟩ := Nat.exists_eq_two_pow_mul_odd notZero
  have oddBit : m % 2 = 1 := Nat.odd_iff.mp odd
  have atLeast : 12 ≤ t := by
    have coprime : Nat.Coprime (2 ^ 12) m := Nat.Coprime.pow_left 12 (Nat.coprime_two_left.mpr odd)
    rw [split, Nat.mul_comm] at aligned
    exact (Nat.pow_dvd_pow_iff_le_right (by decide)).mp (coprime.dvd_of_dvd_mul_left aligned)
  have below : t < 64 := by
    have fits := reqAlign.toNat_lt
    have powLe : 2 ^ t ≤ reqAlign.toNat := by
      rw [split]
      exact Nat.le_mul_of_pos_right _ (Nat.pos_of_ne_zero (by omega))
    have powLt : 2 ^ t < 2 ^ 64 := by omega
    exact (Nat.pow_lt_pow_iff_right (show 1 < 2 by decide)).mp powLt
  have notNext : ¬ 2 ^ (t + 1) ∣ reqAlign.toNat := by
    rw [split, Nat.pow_succ, Nat.mul_dvd_mul_iff_left (Nat.two_pow_pos t)]
    omega
  -- the loop: from bit `j` at most `t`, with `t - j` rounds still to go
  let inside : Nat → UInt64 → Prop := fun rank mask =>
    ∃ j, mask.toNat = 2 ^ j ∧ j ≤ t ∧ rank = t - j
  have step : ∀ rank mask, inside rank mask →
      (∃ result, alignMaskBody reqAlign mask = .inl result ∧ result.toNat = 2 ^ t) ∨
        ∃ lower next, lower < rank ∧ alignMaskBody reqAlign mask = .inr next ∧
          inside lower next := by
    rintro rank mask ⟨j, isBit, upTo, rfl⟩
    have andValue : (reqAlign &&& mask).toNat = reqAlign.toNat &&& 2 ^ j := by
      rw [UInt64.toNat_and, isBit]
    rcases Nat.lt_or_eq_of_le upTo with lower | rfl
    · -- bit `j` is below the lowest set bit: clear, so the mask moves up
      have clear : reqAlign &&& mask = 0 := by
        apply UInt64.toNat_inj.mp
        rw [andValue, UInt64.toNat_zero, Nat.and_two_pow_eq_zero_iff, split]
        exact Nat.testBit_two_pow_mul_of_lt lower
      right
      refine ⟨t - (j + 1), mask <<< 1, by omega, by simp [alignMaskBody, clear], j + 1, ?_,
        by omega, rfl⟩
      have powLt : 2 ^ (j + 1) < 2 ^ 64 := Nat.pow_lt_pow_right (by decide) (by omega)
      rw [UInt64.toNat_shiftLeft, isBit, show (1 : UInt64).toNat % 64 = 1 from rfl,
        Nat.shiftLeft_eq, Nat.pow_one, ← Nat.pow_succ, Nat.mod_eq_of_lt powLt]
    · -- bit `t` is set: the loop stops with it
      have set : reqAlign &&& mask ≠ 0 := by
        intro cleared
        have bit := congrArg UInt64.toNat cleared
        rw [andValue, UInt64.toNat_zero, Nat.and_two_pow_eq_zero_iff, split,
          Nat.testBit_two_pow_mul_self oddBit] at bit
        cases bit
      left
      exact ⟨mask, by simp [alignMaskBody, set], isBit⟩
  have start : inside (t - 12) pageCacheSize := ⟨12, rfl, atLeast, rfl⟩
  obtain ⟨mask, isBit, ran⟩ := Loop.run_of_ranked inside _ step (t - 12) pageCacheSize start 64
    (by omega)
  have pageAligned : reqAlign &&& (pageCacheSize - 1) = 0 := by
    apply UInt64.toNat_inj.mp
    rw [UInt64.toNat_and, show (pageCacheSize - 1).toNat = 2 ^ 12 - 1 from rfl,
      Nat.and_two_pow_sub_one_eq_mod]
    exact Nat.mod_eq_zero_of_dvd aligned
  refine ⟨t, mask, ?_, isBit, atLeast, below, ⟨m, split⟩, notNext⟩
  simp only [alignMask, ne_eq, nonzero, not_false_eq_true, pageAligned, and_self, if_true]
  exact ran


theorem le_minU64 {a b c : UInt64} (belowA : c ≤ a) (belowB : c ≤ b) : c ≤ minU64 a b := by
  unfold minU64
  split <;> assumption

theorem minU64_le_right (a b : UInt64) : minU64 a b ≤ b := by
  unfold minU64
  split
  · exact UInt64.le_of_lt ‹_›
  · exact UInt64.le_refl b

/-- The clamp keeps the start and lowers the end, never below the request's end. -/
theorem fixupClamp_bounds (req : LdlmLock) (newEx : LdlmExtent) (conflicting : Nat)
    (endAbove : req.lReqExtent.stop ≤ newEx.stop) :
    (fixupClamp req newEx conflicting).start = newEx.start ∧
      req.lReqExtent.stop ≤ (fixupClamp req newEx conflicting).stop ∧
      (fixupClamp req newEx conflicting).stop ≤ newEx.stop := by
  simp only [fixupClamp]
  split
  · next contended =>
    exact ⟨rfl, le_minU64 (UInt64.le_of_lt contended.2.2) endAbove, minU64_le_right _ _⟩
  · exact ⟨rfl, endAbove, UInt64.le_refl _⟩

/-- The fix-up only shrinks and keeps the alignment: for a request whose start
and end + 1 are page aligned (or whose end is the end of file) and a candidate
extent around it, whatever the contention, the assertions hold and the result
lies between the request and the candidate; unless it is the whole file, it
starts and ends + 1 (modulo 2^64) on multiples of the largest power of two
dividing both the request's start and end + 1, which is at least a page. -/
theorem ldlmExtentInternalPolicyFixup_aligned (req : LdlmLock) (newEx : LdlmExtent)
    (conflicting : Nat) (startAligned : pageCacheSize.toNat ∣ req.lReqExtent.start.toNat)
    (endAligned : pageCacheSize.toNat ∣ (req.lReqExtent.stop + 1).toNat ∨
      req.lReqExtent.stop = obdObjectEof)
    (startBelow : newEx.start ≤ req.lReqExtent.start) (endAbove : req.lReqExtent.stop ≤ newEx.stop) :
    ∃ fixed, ldlmExtentInternalPolicyFixup req newEx conflicting = some fixed ∧
      newEx.start ≤ fixed.start ∧ fixed.start ≤ req.lReqExtent.start ∧
      req.lReqExtent.stop ≤ fixed.stop ∧ fixed.stop ≤ newEx.stop ∧
      ((fixed.start = 0 ∧ fixed.stop = obdObjectEof) ∨
        ∃ k, IsLargestCommonPowerOfTwo req.lReqExtent.start.toNat (req.lReqExtent.stop + 1).toNat k ∧
          pageCacheSize.toNat ≤ 2 ^ k ∧ 2 ^ k ∣ fixed.start.toNat ∧ 2 ^ k ∣ (fixed.stop + 1).toNat) := by
  obtain ⟨clampStart, clampAbove, clampBelow⟩ := fixupClamp_bounds req newEx conflicting endAbove
  generalize clampEq : fixupClamp req newEx conflicting = clamped at clampStart clampAbove clampBelow
  simp only [ldlmExtentInternalPolicyFixup, clampEq]
  by_cases whole : clamped.start = 0 ∧ clamped.stop = obdObjectEof
  · -- the whole file is left as it is
    rw [if_pos whole]
    exact ⟨clamped, rfl, clampStart ▸ UInt64.le_refl _, whole.1 ▸ UInt64.zero_le, clampAbove,
      clampBelow, .inl whole⟩
  · rw [if_neg whole]
    have startDvd : 2 ^ 12 ∣ req.lReqExtent.start.toNat := startAligned
    have endDvd : 2 ^ 12 ∣ (req.lReqExtent.stop + 1).toNat := by
      rcases endAligned with aligned | atEof
      · exact aligned
      · rw [atEof]
        exact Nat.dvd_zero _
    have alignValue : ((req.lReqExtent.stop + 1) ||| req.lReqExtent.start).toNat =
        (req.lReqExtent.stop + 1).toNat ||| req.lReqExtent.start.toNat := UInt64.toNat_or _ _
    -- a request from 0 to the end of file has only the whole file around it
    have nonzero : (req.lReqExtent.stop + 1) ||| req.lReqExtent.start ≠ 0 := by
      intro isZero
      have zeros := congrArg UInt64.toNat isZero
      rw [alignValue, UInt64.toNat_zero, Nat.or_eq_zero_iff] at zeros
      have startZero : req.lReqExtent.start = 0 := UInt64.toNat_inj.mp zeros.2
      have endTop : req.lReqExtent.stop = obdObjectEof := by
        apply UInt64.toNat_inj.mp
        have := zeros.1
        rw [UInt64.toNat_add, UInt64.toNat_one] at this
        have := req.lReqExtent.stop.toNat_lt
        show req.lReqExtent.stop.toNat = 2 ^ 64 - 1
        omega
      apply whole
      constructor
      · rw [clampStart]
        exact UInt64.le_antisymm (startZero ▸ startBelow) UInt64.zero_le
      · rw [endTop] at clampAbove
        apply UInt64.toNat_inj.mp
        have := UInt64.le_iff_toNat_le.mp clampAbove
        have := clamped.stop.toNat_lt
        show clamped.stop.toNat = 2 ^ 64 - 1
        rw [show obdObjectEof.toNat = 2 ^ 64 - 1 from rfl] at *
        omega
    obtain ⟨t, mask, maskRun, maskBit, atLeast, below, tDvd, notNext⟩ :=
      alignMask_spec nonzero (alignValue ▸ Nat.two_pow_dvd_or_iff.mpr ⟨endDvd, startDvd⟩)
    rw [alignValue] at tDvd notNext
    obtain ⟨endTDvd, startTDvd⟩ := Nat.two_pow_dvd_or_iff.mp tDvd
    have maskValue : (mask - 1).toNat = 2 ^ t - 1 := by
      have positive : 1 ≤ mask := by
        rw [UInt64.le_iff_toNat_le, maskBit, UInt64.toNat_one]
        exact Nat.one_le_two_pow
      rw [UInt64.toNat_sub_of_le _ _ positive, maskBit, UInt64.toNat_one]
    obtain ⟨startUp, startLe, startAlignedT⟩ :=
      UInt64.roundUp_spec maskValue (clampStart ▸ startBelow) startTDvd
    obtain ⟨endLe, endDown, endAlignedT⟩ :=
      UInt64.roundDown_spec maskValue (by omega) clampAbove endTDvd
    rw [maskRun, Option.bind_some]
    simp only [ge_iff_le]
    rw [if_pos ⟨startLe, endLe⟩]
    refine ⟨_, rfl, clampStart ▸ startUp, startLe, endLe, UInt64.le_trans endDown clampBelow,
      .inr ⟨t, ⟨startTDvd, endTDvd, fun both => notNext (Nat.two_pow_dvd_or_iff.mpr
        ⟨both.2, both.1⟩)⟩, ?_, startAlignedT, endAlignedT⟩⟩
    show 2 ^ 12 ≤ 2 ^ t
    exact Nat.pow_le_pow_right (show 2 > 0 by decide) atLeast


/-- A PW request for the second page of a file, from export 1. -/
def secondPageRequest : LdlmLock :=
  { lHandle := 1, lReqMode := .pw, lGrantedMode := none, lReqExtent := ⟨4096, 8191, 0⟩,
    lPolicyExtent := ⟨4096, 8191, 0⟩, lExport := some 1, lFlags := 0, lReaders := 0,
    lWriters := 0, lBlockingAst := true }

theorem ldlmExtentInternalPolicyFixup_aligned_on_secondPage :
    pageCacheSize.toNat ∣ secondPageRequest.lReqExtent.start.toNat ∧
      (pageCacheSize.toNat ∣ (secondPageRequest.lReqExtent.stop + 1).toNat ∨
        secondPageRequest.lReqExtent.stop = obdObjectEof) ∧
      (100 : UInt64) ≤ secondPageRequest.lReqExtent.start ∧
      secondPageRequest.lReqExtent.stop ≤ (50000 : UInt64) ∧
      ∃ fixed, ldlmExtentInternalPolicyFixup secondPageRequest ⟨100, 50000, 0⟩ 40 = some fixed ∧
        (100 : UInt64) ≤ fixed.start ∧ fixed.start ≤ secondPageRequest.lReqExtent.start ∧
        secondPageRequest.lReqExtent.stop ≤ fixed.stop ∧ fixed.stop ≤ (50000 : UInt64) ∧
        ((fixed.start = 0 ∧ fixed.stop = obdObjectEof) ∨
          ∃ k, IsLargestCommonPowerOfTwo secondPageRequest.lReqExtent.start.toNat
              (secondPageRequest.lReqExtent.stop + 1).toNat k ∧
            pageCacheSize.toNat ≤ 2 ^ k ∧ 2 ^ k ∣ fixed.start.toNat ∧
            2 ^ k ∣ (fixed.stop + 1).toNat) :=
  have startAligned : pageCacheSize.toNat ∣ secondPageRequest.lReqExtent.start.toNat := by decide
  have endAligned : pageCacheSize.toNat ∣ (secondPageRequest.lReqExtent.stop + 1).toNat := by
    decide
  have startBelow : (100 : UInt64) ≤ secondPageRequest.lReqExtent.start := by decide
  have endAbove : secondPageRequest.lReqExtent.stop ≤ (50000 : UInt64) := by decide
  ⟨startAligned, .inl endAligned, startBelow, endAbove,
    ldlmExtentInternalPolicyFixup_aligned secondPageRequest ⟨100, 50000, 0⟩ 40 startAligned
      (.inl endAligned) startBelow endAbove⟩

/-! ## Growing the extent -/

/-- The loop of ldlm_extent_internal_policy_granted over the interval trees of
the conflicting modes, from the limiter and the conflicting count so far; it
stops early once the limiter is down to the request, and is `none` where
interval_expand's assertion fails. -/
def policyGrantedLoop (reqMode : LdlmMode) (reqExt : IntervalNodeExtent) :
    List LdlmIntervalTree → IntervalNodeExtent → Nat → Option (IntervalNodeExtent × Nat)
  | [], limiter, conflicting => some (limiter, conflicting)
  | tree :: rest, limiter, conflicting =>
    if lockmodeCompat tree.litMode reqMode then
      policyGrantedLoop reqMode reqExt rest limiter conflicting
    else
      let conflicting := conflicting + tree.litSize
      let limiter := if conflicting > 4 then { limiter with start := reqExt.start } else limiter
      (intervalExpand tree.litRoot reqExt (some limiter)).bind fun ext =>
        let limiter : IntervalNodeExtent :=
          ⟨maxU64 limiter.start ext.start, minU64 limiter.stop ext.stop⟩
        if limiter.start = reqExt.start ∧ limiter.stop = reqExt.stop then some (limiter, conflicting)
        else policyGrantedLoop reqMode reqExt rest limiter conflicting

/-- ldlm_extent_internal_policy_granted -/
def ldlmExtentInternalPolicyGranted (res : LdlmResource) (req : LdlmLock) (newEx : LdlmExtent) :
    Option LdlmExtent :=
  let reqExt : IntervalNodeExtent := ⟨req.lReqExtent.start, req.lReqExtent.stop⟩
  (policyGrantedLoop req.lReqMode reqExt res.lrItree ⟨newEx.start, newEx.stop⟩ 0).bind
    fun (limiter, conflicting) =>
      let newEx := { newEx with start := limiter.start, stop := limiter.stop }
      if newEx.start ≤ req.lReqExtent.start ∧ newEx.stop ≥ req.lReqExtent.stop then
        ldlmExtentInternalPolicyFixup req newEx conflicting
      else none

/-- The loop of ldlm_extent_internal_policy_waiting over the waiting queue: it
returns at once (`.inl`) when the extent is down to the request, and otherwise
gives the extent and the conflicting count at the end of the queue (`.inr`). -/
def policyWaitingLoop (req : LdlmLock) :
    List LdlmLock → LdlmExtent → Nat → LdlmExtent ⊕ (LdlmExtent × Nat)
  | [], newEx, conflicting => .inr (newEx, conflicting)
  | lock :: rest, newEx, conflicting =>
    let reqStart := req.lReqExtent.start
    let reqEnd := req.lReqExtent.stop
    let lExtent := lock.lPolicyExtent
    if newEx.start = reqStart ∧ newEx.stop = reqEnd then .inl newEx
    else if req.lHandle = lock.lHandle then policyWaitingLoop req rest newEx conflicting
    else if lockmodeCompat lock.lReqMode req.lReqMode ∧ lock.lExport ≠ req.lExport then
      policyWaitingLoop req rest newEx conflicting
    else
      let conflicting := conflicting + 1
      let newEx := if conflicting > 4 then { newEx with start := reqStart } else newEx
      if !ldlmExtentOverlap lExtent newEx then policyWaitingLoop req rest newEx conflicting
      else if ldlmExtentOverlap lock.lReqExtent req.lReqExtent then
        policyWaitingLoop req rest newEx conflicting
      else
        -- grow downwards only as far as the lock, upwards to where it starts
        let newEx :=
          if lExtent.start < reqStart ∧ newEx.start ≠ reqStart then
            { newEx with start := if lExtent.stop ≥ reqStart then reqStart
                                  else minU64 (lExtent.stop + 1) reqStart }
          else newEx
        let newEx :=
          if lExtent.stop > reqEnd then
            { newEx with stop := if lExtent.start ≤ reqEnd then
                                   maxU64 (lock.lReqExtent.start - 1) reqEnd
                                 else maxU64 (lExtent.start - 1) reqEnd }
          else newEx
        policyWaitingLoop req rest newEx conflicting

/-- ldlm_extent_internal_policy_waiting -/
def ldlmExtentInternalPolicyWaiting (res : LdlmResource) (req : LdlmLock) (newEx : LdlmExtent) :
    Option LdlmExtent :=
  match policyWaitingLoop req res.lrWaiting newEx 0 with
  | .inl newEx => some newEx
  | .inr (newEx, conflicting) => ldlmExtentInternalPolicyFixup req newEx conflicting

/-- ldlm_extent_policy: the lock with its grown extent and the flags, with
LDLM_FL_LOCK_CHANGED set if the extent changed; a local lock and a whole-file
lock are left as they are. -/
def ldlmExtentPolicy (res : LdlmResource) (lock : LdlmLock) (flags : UInt64) :
    Option (LdlmLock × UInt64) :=
  if lock.lExport = none then some (lock, flags)
  else if lock.lPolicyExtent.start = 0 ∧ lock.lPolicyExtent.stop = obdObjectEof then
    some (lock, flags)
  else
    (ldlmExtentInternalPolicyGranted res lock ⟨0, obdObjectEof, 0⟩).bind fun newEx =>
      (ldlmExtentInternalPolicyWaiting res lock newEx).bind fun newEx =>
        if newEx.start ≠ lock.lPolicyExtent.start ∨ newEx.stop ≠ lock.lPolicyExtent.stop then
          some ({ lock with lPolicyExtent :=
                    { lock.lPolicyExtent with start := newEx.start, stop := newEx.stop } },
                flags ||| ldlmFlLockChanged)
        else some (lock, flags)

end Lustre.Ldlm
