import Mathlib.Algebra.BigOperators.Fin
import Mathlib.Data.UInt
import Lustre.Library.Ledger
import Lustre.Library.Run

/-!
# The quota master: granting quota space to slaves

For every quota identifier the quota master (QMT) keeps an `lquota_entry`:
`lqe_granted` is the space handed out to the slaves (the targets that enforce
quota), next to the limits `lqe_hardlimit` and `lqe_softlimit`, the grace
time and the quota unit `lqe_qunit`.  Each slave's share is its record in
the slave index (`qsr_granted`), and the entry's settings are saved in the
global index.  Slaves acquire, pre-acquire, release and report space through
`qmt_dqacq0`; an administrator changes the limits through `qmt_set`.

Both calls start a transaction and, in the same step, copy the entry's
settings into `qti_restore` (`qmt_trans_start_with_slv`); only then do they
take `lqe_write_lock`.  When an index write fails, `qmt_restore` puts the copy
back.  The model keeps the two phases of a call apart: a thread starts its
call, and later, after any number of other events, runs its locked section.

Run one call at a time, the master's `lqe_granted` stays the sum of the
slave indexes over every run, failed writes included.  Between the copy and
the lock another thread may grant space, and a failed write then puts back
a `lqe_granted` that does not count that grant.
-/

namespace Lustre
namespace Qmt

/-! ## Requests, errors and settings -/

/-- `QUOTA_DQACQ_FL_ACQ`. -/
def quotaDqacqFlAcq : UInt32 := 0x1

/-- `QUOTA_DQACQ_FL_PREACQ`. -/
def quotaDqacqFlPreacq : UInt32 := 0x2

/-- `QUOTA_DQACQ_FL_REL`. -/
def quotaDqacqFlRel : UInt32 := 0x4

/-- `QUOTA_DQACQ_FL_REPORT`. -/
def quotaDqacqFlReport : UInt32 := 0x8

/-- `req_is_acq`. -/
def reqIsAcq (flags : UInt32) : Bool := flags &&& quotaDqacqFlAcq != 0

/-- `req_is_preacq`. -/
def reqIsPreacq (flags : UInt32) : Bool := flags &&& quotaDqacqFlPreacq != 0

/-- `req_is_rel`. -/
def reqIsRel (flags : UInt32) : Bool := flags &&& quotaDqacqFlRel != 0

/-- `req_has_rep`. -/
def reqHasRep (flags : UInt32) : Bool := flags &&& quotaDqacqFlReport != 0

/-- `QIF_LIMITS`, that is `QIF_BLIMITS | QIF_ILIMITS`. -/
def qifLimits : UInt32 := 1 ||| 4

/-- `QIF_TIMES`, that is `QIF_BTIME | QIF_ITIME`. -/
def qifTimes : UInt32 := 16 ||| 32

/-- `ESRCH`. -/
def esrch : Int32 := 3

/-- `EINVAL`. -/
def einval : Int32 := 22

/-- `EINPROGRESS`. -/
def einprogress : Int32 := 115

/-- `EDQUOT`. -/
def edquot : Int32 := 122

/-- `QMT_REBA_TIMEOUT`, in seconds. -/
def qmtRebaTimeout : Int64 := 2

/-! ## The entry, its pool and the clock -/

/-- What the entry code reads of its pool, `struct qmt_pool_info`. -/
structure QmtPoolInfo where
  /-- `qpi_least_qunit`. -/
  qpiLeastQunit : UInt64
  /-- `qpi_slv_nr[qtype]`: how many slaves have connected. -/
  qpiSlvNr : Int32
  /-- `qpi_key >> 16 == LQUOTA_RES_MD`: the pool counts inodes. -/
  resMd : Bool
  /-- `qmt_lqe_grace`: the grace time of the pool's grace entry. -/
  lqeGrace : UInt64
  deriving DecidableEq, Repr

/-- The kernel clock as a call reads it. -/
structure Clock where
  /-- `cfs_time_current_sec()`. -/
  sec : UInt64
  /-- `cfs_time_current_64()`, in jiffies. -/
  jiffies : UInt64
  /-- `HZ`: jiffies per second. -/
  hz : UInt64
  deriving DecidableEq, Repr

/-- `cfs_time_shift_64`: the jiffies `seconds` from now. -/
def cfsTimeShift64 (clock : Clock) (seconds : Int64) : UInt64 :=
  clock.jiffies + (seconds * clock.hz.toInt64).toUInt64

/-- `cfs_time_before_64`. -/
def cfsTimeBefore64 (t1 t2 : UInt64) : Bool := 0 < t2.toInt64 - t1.toInt64

/-- The master's fields of `struct lquota_entry`. -/
structure LquotaEntry where
  /-- `lqe_id.qid_uid`. -/
  lqeIdUid : UInt64
  /-- `lqe_granted`. -/
  lqeGranted : UInt64
  /-- `lqe_qunit`. -/
  lqeQunit : UInt64
  /-- `lqe_hardlimit`. -/
  lqeHardlimit : UInt64
  /-- `lqe_softlimit`. -/
  lqeSoftlimit : UInt64
  /-- `lqe_gracetime`. -/
  lqeGracetime : UInt64
  /-- `lqe_revoke_time`. -/
  lqeRevokeTime : UInt64
  /-- `lqe_may_rel`, set by glimpse callbacks. -/
  lqeMayRel : UInt64
  /-- `lqe_enforced`. -/
  lqeEnforced : Bool
  /-- `lqe_edquot`. -/
  lqeEdquot : Bool
  deriving DecidableEq, Repr

/-- `struct qmt_lqe_restore`. -/
structure QmtLqeRestore where
  /-- `qlr_hardlimit`. -/
  qlrHardlimit : UInt64
  /-- `qlr_softlimit`. -/
  qlrSoftlimit : UInt64
  /-- `qlr_gracetime`. -/
  qlrGracetime : UInt64
  /-- `qlr_granted`. -/
  qlrGranted : UInt64
  /-- `qlr_qunit`. -/
  qlrQunit : UInt64
  deriving DecidableEq, Repr

/-- The copy `qmt_trans_start_with_slv` makes once the transaction has
started. -/
def LquotaEntry.restorePoint (lqe : LquotaEntry) : QmtLqeRestore where
  qlrHardlimit := lqe.lqeHardlimit
  qlrSoftlimit := lqe.lqeSoftlimit
  qlrGracetime := lqe.lqeGracetime
  qlrGranted := lqe.lqeGranted
  qlrQunit := lqe.lqeQunit

/-- `qmt_restore`. -/
def qmtRestore (lqe : LquotaEntry) (restore : QmtLqeRestore) : LquotaEntry :=
  { lqe with
    lqeHardlimit := restore.qlrHardlimit
    lqeSoftlimit := restore.qlrSoftlimit
    lqeGracetime := restore.qlrGracetime
    lqeGranted := restore.qlrGranted
    lqeQunit := restore.qlrQunit }

@[simp] theorem qmtRestore_lqeGranted (lqe : LquotaEntry) (restore : QmtLqeRestore) :
    (qmtRestore lqe restore).lqeGranted = restore.qlrGranted := rfl

/-- `struct lquota_glb_rec`: the entry's record in the global index. -/
structure LquotaGlbRec where
  /-- `qbr_hardlimit`. -/
  qbrHardlimit : UInt64
  /-- `qbr_softlimit`. -/
  qbrSoftlimit : UInt64
  /-- `qbr_granted`. -/
  qbrGranted : UInt64
  /-- `qbr_time`. -/
  qbrTime : UInt64
  deriving DecidableEq, Repr

/-- The record `qmt_glb_write` fills from the entry. -/
def qmtGlbRec (lqe : LquotaEntry) : LquotaGlbRec where
  qbrGranted := lqe.lqeGranted
  qbrHardlimit := lqe.lqeHardlimit
  qbrSoftlimit := lqe.lqeSoftlimit
  qbrTime := lqe.lqeGracetime

/-! ## Limits, `edquot` and the quota unit -/

/-- `qmt_hard_exhausted`. -/
def qmtHardExhausted (lqe : LquotaEntry) : Bool :=
  lqe.lqeHardlimit != 0 && lqe.lqeGranted ≥ lqe.lqeHardlimit

/-- `qmt_soft_exhausted`. -/
def qmtSoftExhausted (lqe : LquotaEntry) (now : UInt64) : Bool :=
  lqe.lqeSoftlimit != 0 && lqe.lqeGranted > lqe.lqeSoftlimit &&
    lqe.lqeGracetime != 0 && now ≥ lqe.lqeGracetime

/-- `qmt_space_exhausted`. -/
def qmtSpaceExhausted (lqe : LquotaEntry) (now : UInt64) : Bool :=
  qmtHardExhausted lqe || qmtSoftExhausted lqe now

/-- `qmt_validate_limits`. -/
def qmtValidateLimits (hard soft : UInt64) : Int32 :=
  if hard != 0 && soft > hard then -einval else 0

/-- `qmt_adjust_edquot`; the glimpse it sends to the slaves
(`qmt_id_lock_notify`) changes nothing here. -/
def qmtAdjustEdquot (pool : QmtPoolInfo) (clock : Clock) (lqe : LquotaEntry) (now : UInt64) :
    LquotaEntry :=
  if !lqe.lqeEnforced || lqe.lqeIdUid == 0 then lqe
  else if !lqe.lqeEdquot then
    -- time to set the flag?
    if !qmtSpaceExhausted lqe now then lqe
    else if qmtHardExhausted lqe || pool.resMd then
      if lqe.lqeQunit != pool.qpiLeastQunit then lqe
      else if lqe.lqeRevokeTime == 0 then lqe
      else if lqe.lqeMayRel != 0 &&
          cfsTimeBefore64 (cfsTimeShift64 clock (-qmtRebaTimeout)) lqe.lqeRevokeTime then lqe
      else { lqe with lqeEdquot := true }
    else if lqe.lqeQunit > pool.qpiLeastQunit <<< 2 then lqe
    else { lqe with lqeEdquot := true }
  else
    -- time to clear it?
    if qmtSpaceExhausted lqe now then lqe
    else if lqe.lqeHardlimit != 0 &&
        lqe.lqeGranted + pool.qpiLeastQunit > lqe.lqeHardlimit then lqe
    else { lqe with lqeEdquot := false }

@[simp] theorem qmtAdjustEdquot_lqeGranted (pool : QmtPoolInfo) (clock : Clock)
    (lqe : LquotaEntry) (now : UInt64) :
    (qmtAdjustEdquot pool clock lqe now).lqeGranted = lqe.lqeGranted := by
  unfold qmtAdjustEdquot
  split_ifs <;> rfl

/-- `qmt_calc_softlimit`: the limit and `oversoft`.  Both callers test
`lqe_softlimit != 0` first, which is what its assertion asks. -/
def qmtCalcSoftlimit (pool : QmtPoolInfo) (lqe : LquotaEntry) : UInt64 × Bool :=
  if pool.resMd then (lqe.lqeSoftlimit, false)
  else if lqe.lqeGranted ≤ lqe.lqeSoftlimit + (pool.qpiLeastQunit <<< 2) then
    (lqe.lqeSoftlimit, false)
  else if lqe.lqeHardlimit != 0 then (lqe.lqeHardlimit, true)
  else (0, true)

/-- The `int` slave count `slv_cnt` in `u64` arithmetic, as in
`slv_cnt * qunit`. -/
def slvCount (pool : QmtPoolInfo) : UInt64 := pool.qpiSlvNr.toInt64.toUInt64

/-- `while (qunit && limit >= lqe_granted + 6 * qunit * slv_cnt) qunit <<= 2;`
A 64-bit `qunit` shifted left by two 32 times is zero, so 33 rounds of fuel
run the loop to its end. -/
def growQunit (limit granted slvCnt : UInt64) : Nat → UInt64 → UInt64
  | 0, qunit => qunit
  | fuel + 1, qunit =>
    if qunit != 0 && limit ≥ granted + 6 * qunit * slvCnt then
      growQunit limit granted slvCnt fuel (qunit <<< 2)
    else qunit

/-- `while (qunit > qpi_least_qunit &&
limit < lqe_granted + ((slv_cnt * qunit) >> 1)) qunit >>= 2;` -/
def shrinkQunit (least limit granted slvCnt : UInt64) : Nat → UInt64 → UInt64
  | 0, qunit => qunit
  | fuel + 1, qunit =>
    if qunit > least && limit < granted + ((slvCnt * qunit) >>> 1) then
      shrinkQunit least limit granted slvCnt fuel (qunit >>> 2)
    else qunit

/-- The new quota unit `qmt_adjust_qunit` computes from `limit`, capped by
`qunit2` when that is not zero. -/
def qunitFor (pool : QmtPoolInfo) (lqe : LquotaEntry) (limit qunit2 : UInt64) : UInt64 :=
  let slvCnt := slvCount pool
  let qunit := if lqe.lqeQunit == 0 then pool.qpiLeastQunit else lqe.lqeQunit
  let qunit :=
    if qunit == pool.qpiLeastQunit || limit ≥ lqe.lqeGranted + ((slvCnt * qunit) >>> 1) then
      let grown := growQunit limit lqe.lqeGranted slvCnt 33 qunit
      -- `do_div(qunit, 2 * slv_cnt)` divides by a 32-bit base
      if grown == 0 then limit / (2 * pool.qpiSlvNr).toUInt32.toUInt64 else grown
    else shrinkQunit pool.qpiLeastQunit limit lqe.lqeGranted slvCnt 33 qunit
  if qunit2 != 0 && qunit > qunit2 then qunit2 else qunit

/-- The label `done:` of `qmt_adjust_qunit`: store the new unit and reset the
revoke time. -/
def storeQunit (pool : QmtPoolInfo) (clock : Clock) (lqe : LquotaEntry) (qunit : UInt64) :
    LquotaEntry :=
  if lqe.lqeQunit == qunit then lqe
  else if qunit < lqe.lqeQunit then
    -- shrinking: the slaves are told by a glimpse
    { lqe with lqeQunit := qunit, lqeRevokeTime := 0 }
  else if qunit == pool.qpiLeastQunit then
    { lqe with lqeQunit := qunit, lqeRevokeTime := clock.jiffies }
  else { lqe with lqeQunit := qunit, lqeRevokeTime := 0 }

@[simp] theorem storeQunit_lqeGranted (pool : QmtPoolInfo) (clock : Clock) (lqe : LquotaEntry)
    (qunit : UInt64) : (storeQunit pool clock lqe qunit).lqeGranted = lqe.lqeGranted := by
  unfold storeQunit
  split_ifs <;> rfl

/-- `qmt_adjust_qunit`. -/
def qmtAdjustQunit (pool : QmtPoolInfo) (clock : Clock) (lqe : LquotaEntry) : LquotaEntry :=
  if !lqe.lqeEnforced || lqe.lqeIdUid == 0 then lqe
  else if pool.qpiSlvNr == 0 then lqe
  else if lqe.lqeSoftlimit != 0 then
    let (limit, oversoft) := qmtCalcSoftlimit pool lqe
    let qunit2 := if oversoft then pool.qpiLeastQunit <<< 2 else 0
    if limit == 0 then storeQunit pool clock lqe qunit2
    else storeQunit pool clock lqe (qunitFor pool lqe limit qunit2)
  else if lqe.lqeHardlimit != 0 then
    storeQunit pool clock lqe (qunitFor pool lqe lqe.lqeHardlimit 0)
  -- enforced with neither limit: logged and left alone
  else lqe

@[simp] theorem qmtAdjustQunit_lqeGranted (pool : QmtPoolInfo) (clock : Clock)
    (lqe : LquotaEntry) : (qmtAdjustQunit pool clock lqe).lqeGranted = lqe.lqeGranted := by
  unfold qmtAdjustQunit
  split_ifs <;> simp [apply_ite LquotaEntry.lqeGranted]

/-- `qmt_revalidate`. -/
def qmtRevalidate (pool : QmtPoolInfo) (clock : Clock) (lqe : LquotaEntry) : LquotaEntry :=
  if lqe.lqeQunit == 0 then
    let lqe := qmtAdjustQunit pool clock lqe
    if lqe.lqeQunit != 0 then qmtAdjustEdquot pool clock lqe clock.sec else lqe
  else lqe

@[simp] theorem qmtRevalidate_lqeGranted (pool : QmtPoolInfo) (clock : Clock)
    (lqe : LquotaEntry) : (qmtRevalidate pool clock lqe).lqeGranted = lqe.lqeGranted := by
  unfold qmtRevalidate
  split_ifs <;> simp [apply_ite LquotaEntry.lqeGranted]

/-- The reply of one round of `qmt_alloc_expand`'s loop:
`min(qunit - spare, remaining)` or `min(qunit - granted, remaining)`. -/
def expandReply (qunit spare granted remaining : UInt64) : UInt64 :=
  let granted := granted &&& (qunit - 1)
  if spare > 0 then min (qunit - spare) remaining else min (qunit - granted) remaining

/-- The `do { ... } while (qunit >= qpi_least_qunit)` loop of
`qmt_alloc_expand`.  Only `continue` goes round again, with `qunit` shifted
right by two, so 33 rounds of fuel run it to its end. -/
def allocExpandLoop (pool : QmtPoolInfo) (spare : UInt64) :
    Nat → UInt64 → UInt64 → UInt64 → UInt64
  | 0, _, _, _ => 0
  | fuel + 1, granted, remaining, qunit =>
    if spare ≥ qunit then 0
    else
      let granted := granted &&& (qunit - 1)
      let half := (slvCount pool * qunit) >>> 1
      if remaining > half then expandReply qunit spare granted (remaining - half)
      else if qunit != pool.qpiLeastQunit then
        let qunit := qunit >>> 2
        if qunit ≥ pool.qpiLeastQunit then allocExpandLoop pool spare fuel granted remaining qunit
        else 0
      else expandReply qunit spare granted remaining

/-- `qmt_alloc_expand`: how much more than asked may be granted; `none` is
its failed assertion on an unenforced entry or a zero quota unit. -/
def qmtAllocExpand (pool : QmtPoolInfo) (lqe : LquotaEntry) (granted spare : UInt64) :
    Option UInt64 :=
  if !(lqe.lqeEnforced && lqe.lqeQunit != 0) then none
  else
    let remaining :=
      if lqe.lqeSoftlimit != 0 then
        let remaining := (qmtCalcSoftlimit pool lqe).1
        if remaining == 0 then lqe.lqeGranted + (pool.qpiLeastQunit <<< 2) else remaining
      else lqe.lqeHardlimit
    if lqe.lqeGranted ≥ remaining then some 0
    else some (allocExpandLoop pool spare 33 granted (remaining - lqe.lqeGranted) lqe.lqeQunit)

/-! ## `qmt_dqacq0`

The locked section of `qmt_dqacq0`, from `lqe_write_lock` to
`lqe_write_unlock`, in three parts: the decision on the request, which ends
at `out_write` or straight at `out_locked`; the index writes after
`out_write`, with their roll-back; and the reads before the decision. -/

/-- The working state of `qmt_dqacq0` on its way to `out_write`. -/
structure OutWrite where
  /-- `rc`. -/
  rc : Int32
  /-- `repbody->qb_count`. -/
  reply : UInt64
  /-- The entry. -/
  lqe : LquotaEntry
  /-- `slv_granted`: the slave's share as it will be written. -/
  slvGranted : UInt64
  deriving DecidableEq, Repr

/-- `repbody->qb_count += count; QMT_GRANT(lqe, slv_granted, count);`  The
usage report assigns the reply instead, while it is still zero. -/
def OutWrite.grant (st : OutWrite) (count : UInt64) : OutWrite :=
  { st with
    reply := st.reply + count
    lqe := { st.lqe with lqeGranted := st.lqe.lqeGranted + count }
    slvGranted := st.slvGranted + count }

/-- Where the decision goes. -/
inductive Decision
  /-- `GOTO(out_locked, rc)`: nothing is written. -/
  | outLocked (rc : Int32) (lqe : LquotaEntry)
  /-- `GOTO(out_write, rc)`. -/
  | outWrite (st : OutWrite)
  deriving DecidableEq, Repr

/-- The acquire and pre-acquire part of the decision, after the usage
report. -/
def acquireDecision (pool : QmtPoolInfo) (clock : Clock) (qbFlags : UInt32) (qbCount : UInt64)
    (st : OutWrite) : Option OutWrite :=
  if !reqIsAcq qbFlags && !reqIsPreacq qbFlags then some st
  else
    let st := { st with lqe := qmtAdjustEdquot pool clock st.lqe clock.sec }
    if st.lqe.lqeEdquot then some { st with rc := -edquot }
    else if qmtSpaceExhausted st.lqe clock.sec then
      some { st with rc := if reqIsAcq qbFlags then -einprogress else -edquot }
    else if reqIsPreacq qbFlags then
      -- the slave reports in `qb_count` how much spare space it owns
      if qbCount ≥ st.lqe.lqeQunit then some st
      else (qmtAllocExpand pool st.lqe st.slvGranted qbCount).map fun count =>
        if count == 0 then { st with rc := -edquot } else st.grant count
    else if st.lqe.lqeHardlimit != 0 && st.lqe.lqeGranted + qbCount > st.lqe.lqeHardlimit then
      some (st.grant (st.lqe.lqeHardlimit - st.lqe.lqeGranted))
    else
      let st := st.grant qbCount
      (qmtAllocExpand pool st.lqe st.slvGranted 0).map fun count =>
        if count != 0 then st.grant count else st

/-- The decision of `qmt_dqacq0` once it knows the slave's share. -/
def dqacqDecision (pool : QmtPoolInfo) (clock : Clock) (qbFlags : UInt32)
    (qbCount qbUsage : UInt64) (lqe : LquotaEntry) (slvGranted : UInt64) : Option Decision :=
  let st : OutWrite := { rc := 0, reply := 0, lqe := lqe, slvGranted := slvGranted }
  if reqIsRel qbFlags then
    if slvGranted < qbCount || lqe.lqeGranted < qbCount then some (.outLocked (-einval) lqe)
    else
      -- `repbody->qb_count = qb_count; QMT_REL(lqe, slv_granted, qb_count);`
      some (.outWrite { st with
        reply := qbCount
        lqe := { lqe with lqeGranted := lqe.lqeGranted - qbCount }
        slvGranted := slvGranted - qbCount })
  else
    let st := if reqHasRep qbFlags && slvGranted < qbUsage then st.grant (qbUsage - slvGranted)
      else st
    (acquireDecision pool clock qbFlags qbCount st).map .outWrite

/-- The grace timer at `out_write`: started on crossing the soft limit,
cleared below it. -/
def updateGrace (pool : QmtPoolInfo) (lqe : LquotaEntry) (now : UInt64) : LquotaEntry :=
  if lqe.lqeSoftlimit != 0 then
    if lqe.lqeGranted > lqe.lqeSoftlimit && lqe.lqeGracetime == 0 then
      { lqe with lqeGracetime := now + pool.lqeGrace }
    else if lqe.lqeGranted ≤ lqe.lqeSoftlimit && lqe.lqeGracetime != 0 then
      { lqe with lqeGracetime := 0 }
    else lqe
  else lqe

@[simp] theorem updateGrace_lqeGranted (pool : QmtPoolInfo) (lqe : LquotaEntry) (now : UInt64) :
    (updateGrace pool lqe now).lqeGranted = lqe.lqeGranted := by
  unfold updateGrace
  split_ifs <;> rfl

/-- What the disk answers to the index accesses of one locked section, 0
for success. -/
structure DiskRcs where
  /-- `qmt_slv_read`. -/
  slvRead : Int32
  /-- `qmt_slv_write` of the new share. -/
  slvWrite : Int32
  /-- `qmt_glb_write`. -/
  glbWrite : Int32
  /-- `qmt_slv_write` of the old share, after a failed global write. -/
  slvRollback : Int32
  deriving DecidableEq, Repr

/-- The disk accepts every access. -/
def DiskRcs.ok : DiskRcs := { slvRead := 0, slvWrite := 0, glbWrite := 0, slvRollback := 0 }

/-- What a locked section leaves: the return code, the reply's `qb_count`,
the entry, the global record and the slave's record. -/
structure Locked where
  /-- The return code. -/
  rc : Int32
  /-- `repbody->qb_count`. -/
  reply : UInt64
  /-- The entry. -/
  lqe : LquotaEntry
  /-- The entry's record in the global index. -/
  glbRec : LquotaGlbRec
  /-- The slave's record in the slave index. -/
  slvRec : UInt64
  deriving DecidableEq, Repr

/-- `out_write` to `out_locked`: write the slave index, then the global
index, rolling back on failure; `none` is the `LBUG` of a failed roll-back. -/
def dqacqWrite (pool : QmtPoolInfo) (clock : Clock) (rcs : DiskRcs) (restore : QmtLqeRestore)
    (glbRec : LquotaGlbRec) (slvGrantedBck : UInt64) (st : OutWrite) : Option Locked :=
  if st.reply == 0 then some ⟨st.rc, 0, st.lqe, glbRec, slvGrantedBck⟩
  else
    let lqe := updateGrace pool st.lqe clock.sec
    if rcs.slvWrite != 0 then some ⟨rcs.slvWrite, 0, qmtRestore lqe restore, glbRec, slvGrantedBck⟩
    else if rcs.glbWrite != 0 then
      if rcs.slvRollback != 0 then none
      else
        some ⟨rcs.glbWrite, 0, qmtAdjustEdquot pool clock (qmtRestore lqe restore) clock.sec,
          glbRec, slvGrantedBck⟩
    else
      some ⟨st.rc, st.reply, qmtAdjustEdquot pool clock (qmtAdjustQunit pool clock lqe) clock.sec,
        qmtGlbRec lqe, st.slvGranted⟩

/-- The locked section of `qmt_dqacq0` for a slave whose record holds
`slvRec`, with the copy `restore` taken before the lock. -/
def qmtDqacq0Locked (pool : QmtPoolInfo) (clock : Clock) (rcs : DiskRcs)
    (restore : QmtLqeRestore) (qbFlags : UInt32) (qbCount qbUsage : UInt64) (lqe : LquotaEntry)
    (glbRec : LquotaGlbRec) (slvRec : UInt64) : Option Locked :=
  if !lqe.lqeEnforced && !reqIsRel qbFlags then some ⟨-esrch, 0, lqe, glbRec, slvRec⟩
  else
    let lqe := qmtRevalidate pool clock lqe
    if reqIsAcq qbFlags && qbCount == 0 then some ⟨0, 0, lqe, glbRec, slvRec⟩
    else if rcs.slvRead != 0 then some ⟨rcs.slvRead, 0, lqe, glbRec, slvRec⟩
    else
      (dqacqDecision pool clock qbFlags qbCount qbUsage lqe slvRec).bind fun
        | .outLocked rc lqe => some ⟨rc, 0, lqe, glbRec, slvRec⟩
        | .outWrite st => dqacqWrite pool clock rcs restore glbRec slvRec st

/-! ## `qmt_set` -/

/-- The write at the end of `qmt_set` when a setting changed: the return
code, the entry and the global record. -/
def setWrite (pool : QmtPoolInfo) (clock : Clock) (glbWrite : Int32) (restore : QmtLqeRestore)
    (now : UInt64) (glbRec : LquotaGlbRec) (lqe : LquotaEntry) :
    Int32 × LquotaEntry × LquotaGlbRec :=
  if glbWrite != 0 then (glbWrite, qmtRestore lqe restore, glbRec)
  else (0, qmtAdjustEdquot pool clock (qmtAdjustQunit pool clock lqe) now, qmtGlbRec lqe)

/-- The locked section of `qmt_set`, with `now` read before the lock. -/
def qmtSetLocked (pool : QmtPoolInfo) (clock : Clock) (glbWrite : Int32)
    (restore : QmtLqeRestore) (now : UInt64) (hard soft time : UInt64) (valid : UInt32)
    (lqe : LquotaEntry) (glbRec : LquotaGlbRec) : Int32 × LquotaEntry × LquotaGlbRec :=
  let timesChanged := valid &&& qifTimes != 0 && lqe.lqeGracetime != time
  let lqe := if timesChanged then { lqe with lqeGracetime := time } else lqe
  if valid &&& qifLimits != 0 && (lqe.lqeHardlimit != hard || lqe.lqeSoftlimit != soft) then
    let rc := qmtValidateLimits hard soft
    -- a changed grace time stays in memory, unwritten
    if rc != 0 then (rc, lqe, glbRec)
    else
      let lqe := qmtRevalidate pool clock lqe
      let lqe := { lqe with lqeHardlimit := hard, lqeSoftlimit := soft }
      let lqe :=
        if lqe.lqeSoftlimit == 0 || lqe.lqeGranted ≤ lqe.lqeSoftlimit then
          { lqe with lqeGracetime := 0 }
        else if valid &&& qifTimes == 0 then { lqe with lqeGracetime := now + pool.lqeGrace }
        else lqe
      let lqe := { lqe with lqeEnforced := !(lqe.lqeHardlimit == 0 && lqe.lqeSoftlimit == 0) }
      setWrite pool clock glbWrite restore now glbRec lqe
  else if timesChanged then setWrite pool clock glbWrite restore now glbRec lqe
  else (0, lqe, glbRec)

/-! ## Threads on one entry

Threads `τ` call `qmt_dqacq0` for slaves `ι`, or `qmt_set`.  A call starts
(slave index look-up, transaction start and the copy of the settings) and
waits for the lock; at any later point it runs its locked section to the
end. -/

/-- A call and its arguments. -/
inductive QmtCall (ι : Type)
  /-- `qmt_dqacq0` for slave `slave`. -/
  | dqacq (slave : ι) (qbFlags : UInt32) (qbCount qbUsage : UInt64)
  /-- `qmt_set` with `hard`, `soft`, `time` and `valid`. -/
  | set (hard soft time : UInt64) (valid : UInt32)
  deriving DecidableEq, Repr

/-- A call waiting for `lqe_write_lock`. -/
structure Started (ι : Type) where
  /-- The call. -/
  call : QmtCall ι
  /-- `qti_restore`, copied when the transaction started. -/
  restore : QmtLqeRestore
  /-- The time `qmt_set` read before the lock. -/
  now : UInt64
  deriving DecidableEq, Repr

/-- The entry on the master, its global record, every slave's record, the
calls waiting for the lock and the answers of those that returned. -/
structure QmtSystem (ι τ : Type) where
  /-- The entry. -/
  lqe : LquotaEntry
  /-- The entry's record in the global index. -/
  glbRec : LquotaGlbRec
  /-- `qsr_granted` of every slave's record, 0 when there is none. -/
  slvIndex : ι → UInt64
  /-- The call each thread has started. -/
  threads : τ → Option (Started ι)
  /-- The return code and `qb_count` of every call that returned, latest
  first. -/
  replies : List (τ × Int32 × UInt64)

/-- What the environment does next. -/
inductive QmtEvent (ι τ : Type)
  /-- An idle thread starts a call at time `now`; `startRc` is what the
  slave index look-up and the transaction start return, 0 when both
  succeed. -/
  | start (thread : τ) (call : QmtCall ι) (now : UInt64) (startRc : Int32)
  /-- A waiting thread takes the lock and runs its call to the end. -/
  | finish (thread : τ) (clock : Clock) (rcs : DiskRcs)

section Events

variable {ι τ : Type} [DecidableEq ι] [DecidableEq τ]

/-- A thread's call returned `rc` with `qb_count` `reply`. -/
def QmtSystem.answer (sys : QmtSystem ι τ) (thread : τ) (rc : Int32) (reply : UInt64) :
    QmtSystem ι τ :=
  { sys with
    threads := Function.update sys.threads thread none
    replies := (thread, rc, reply) :: sys.replies }

/-- Start a call: on success it waits for the lock with a copy of the
entry's settings. -/
def QmtSystem.start (sys : QmtSystem ι τ) (thread : τ) (call : QmtCall ι) (now : UInt64)
    (startRc : Int32) : QmtSystem ι τ :=
  match sys.threads thread with
  | some _ => sys
  | none =>
    if startRc != 0 then { sys with replies := (thread, startRc, 0) :: sys.replies }
    else
      { sys with
        threads := Function.update sys.threads thread
          (some { call := call, restore := sys.lqe.restorePoint, now := now }) }

/-- Run a waiting call's locked section; `none` is an `LBUG`. -/
def QmtSystem.finish (pool : QmtPoolInfo) (sys : QmtSystem ι τ) (thread : τ) (clock : Clock)
    (rcs : DiskRcs) : Option (QmtSystem ι τ) :=
  match sys.threads thread with
  | none => some sys
  | some started =>
    match started.call with
    | .dqacq slave qbFlags qbCount qbUsage =>
      (qmtDqacq0Locked pool clock rcs started.restore qbFlags qbCount qbUsage sys.lqe sys.glbRec
          (sys.slvIndex slave)).map fun done =>
        { sys.answer thread done.rc done.reply with
          lqe := done.lqe
          glbRec := done.glbRec
          slvIndex := Function.update sys.slvIndex slave done.slvRec }
    | .set hard soft time valid =>
      let done := qmtSetLocked pool clock rcs.glbWrite started.restore started.now hard soft
        time valid sys.lqe sys.glbRec
      some { sys.answer thread done.1 0 with lqe := done.2.1, glbRec := done.2.2 }

/-- One event; `none` is an `LBUG`, and stays. -/
def QmtEvent.apply (pool : QmtPoolInfo) :
    Option (QmtSystem ι τ) → QmtEvent ι τ → Option (QmtSystem ι τ)
  | none, _ => none
  | some sys, .start thread call now startRc => some (sys.start thread call now startRc)
  | some sys, .finish thread clock rcs => sys.finish pool thread clock rcs

end Events

/-! ## What a locked section does to `lqe_granted`

Every `QMT_GRANT` and `QMT_REL` moves `lqe_granted` and the slave's share by
the same amount, and the bookkeeping around them (`edquot`, the quota unit,
the grace timer) leaves `lqe_granted` alone.  A locked section therefore
either moves `lqe_granted` by as much as it moves the slave's record, or puts
back the copy taken before the lock and leaves the record as it was. -/

/-- How a locked section may change `lqe_granted` (from `granted` to
`granted'`) and the slave's record (from `slvRec` to `slvRec'`): both by the
same amount, or back to the copy `restored` with the record unchanged. -/
def GrantedChange (restored granted slvRec granted' slvRec' : UInt64) : Prop :=
  granted' - granted = slvRec' - slvRec ∨ (granted' = restored ∧ slvRec' = slvRec)

/-- With a current copy, putting it back is a move by nothing. -/
theorem GrantedChange.moved_of_current {restored granted slvRec granted' slvRec' : UInt64}
    (change : GrantedChange restored granted slvRec granted' slvRec')
    (current : restored = granted) : granted' - granted = slvRec' - slvRec := by
  rcases change with moved | ⟨rfl, rfl⟩
  · exact moved
  · rw [current, sub_self, sub_self]

/-- The working state has moved `lqe_granted` and `slv_granted` by the same
amount, and that amount is the reply. -/
structure OutWrite.Grants (granted slv : UInt64) (st : OutWrite) : Prop where
  granted : st.lqe.lqeGranted - granted = st.slvGranted - slv
  reply : st.reply = st.slvGranted - slv

theorem OutWrite.grants_start (lqe : LquotaEntry) (slv : UInt64) :
    OutWrite.Grants lqe.lqeGranted slv { rc := 0, reply := 0, lqe := lqe, slvGranted := slv } :=
  ⟨by simp, by simp⟩

theorem OutWrite.Grants.grant {granted slv : UInt64} {st : OutWrite}
    (grants : st.Grants granted slv) (count : UInt64) : (st.grant count).Grants granted slv where
  granted := by
    simp only [OutWrite.grant]
    rw [add_sub_right_comm, grants.granted, add_sub_right_comm]
  reply := by
    simp only [OutWrite.grant]
    rw [grants.reply, add_sub_right_comm]

/-- The acquire part of the decision only grants. -/
theorem acquireDecision_grants {pool : QmtPoolInfo} {clock : Clock} {qbFlags : UInt32}
    {qbCount granted slv : UInt64} {st st' : OutWrite} (grants : st.Grants granted slv)
    (done : acquireDecision pool clock qbFlags qbCount st = some st') :
    st'.Grants granted slv := by
  unfold acquireDecision at done
  dsimp only at done
  -- `qmt_adjust_edquot` leaves `lqe_granted` alone
  have adjusted : OutWrite.Grants granted slv
      { st with lqe := qmtAdjustEdquot pool clock st.lqe clock.sec } :=
    ⟨by simpa using grants.granted, grants.reply⟩
  have withRc : ∀ rc, OutWrite.Grants granted slv
      { st with rc := rc, lqe := qmtAdjustEdquot pool clock st.lqe clock.sec } :=
    fun _ => ⟨adjusted.granted, adjusted.reply⟩
  split at done
  · -- neither acquire nor pre-acquire
    cases done
    exact grants
  split at done
  · cases done
    exact withRc _
  split at done
  · cases done
    exact withRc _
  split at done
  · -- pre-acquire: grant what `qmt_alloc_expand` allows, if anything
    split at done
    · cases done
      exact adjusted
    · obtain ⟨count, -, rfl⟩ := Option.map_eq_some_iff.mp done
      split
      · exact withRc _
      · exact adjusted.grant count
  split at done
  · -- over the hard limit: grant up to it
    cases done
    exact adjusted.grant _
  · -- acquire: grant what was asked, then what `qmt_alloc_expand` allows
    obtain ⟨count, -, rfl⟩ := Option.map_eq_some_iff.mp done
    split
    · exact (adjusted.grant qbCount).grant count
    · exact adjusted.grant qbCount

/-- What a decision may do: go to `out_locked` with `lqe_granted` as it
was, or to `out_write` having moved `lqe_granted` and the slave's share
alike, with a zero reply only if the share did not move. -/
def Decision.Tracks (granted slv : UInt64) : Decision → Prop
  | .outLocked _ lqe => lqe.lqeGranted = granted
  | .outWrite st =>
    st.lqe.lqeGranted - granted = st.slvGranted - slv ∧ (st.reply = 0 → st.slvGranted = slv)

theorem OutWrite.Grants.tracks {granted slv : UInt64} {st : OutWrite}
    (grants : st.Grants granted slv) : (Decision.outWrite st).Tracks granted slv := by
  refine ⟨grants.granted, fun noReply => ?_⟩
  have moved := grants.reply
  rw [noReply] at moved
  exact (sub_eq_zero.mp moved.symm)

theorem dqacqDecision_tracks {pool : QmtPoolInfo} {clock : Clock} {qbFlags : UInt32}
    {qbCount qbUsage slv : UInt64} {lqe : LquotaEntry} {decision : Decision}
    (done : dqacqDecision pool clock qbFlags qbCount qbUsage lqe slv = some decision) :
    decision.Tracks lqe.lqeGranted slv := by
  unfold dqacqDecision at done
  dsimp only at done
  split_ifs at done with release tooMuch report
  · cases done
    rfl
  · -- `QMT_REL` takes `qb_count` from both sides
    cases done
    refine ⟨by simp, fun noReply => ?_⟩
    simp only at noReply
    simp [noReply]
  · -- the usage report grants the difference first
    obtain ⟨st, decided, rfl⟩ := Option.map_eq_some_iff.mp done
    exact (acquireDecision_grants ((OutWrite.grants_start lqe slv).grant _) decided).tracks
  · obtain ⟨st, decided, rfl⟩ := Option.map_eq_some_iff.mp done
    exact (acquireDecision_grants (OutWrite.grants_start lqe slv) decided).tracks

/-- A release takes no more than the slave and the entry hold, so neither
subtraction of `QMT_REL` wraps below zero. -/
theorem dqacqDecision_release_le {pool : QmtPoolInfo} {clock : Clock} {qbFlags : UInt32}
    {qbCount qbUsage slv : UInt64} {lqe : LquotaEntry} {st : OutWrite}
    (release : reqIsRel qbFlags = true)
    (done : dqacqDecision pool clock qbFlags qbCount qbUsage lqe slv = some (.outWrite st)) :
    qbCount ≤ slv ∧ qbCount ≤ lqe.lqeGranted ∧ st.slvGranted = slv - qbCount ∧
      st.lqe.lqeGranted = lqe.lqeGranted - qbCount := by
  unfold dqacqDecision at done
  simp only [release, if_true] at done
  split_ifs at done with tooMuch
  · -- asking too much goes to `out_locked`
    cases done
  cases done
  simp only [Bool.or_eq_true, decide_eq_true_eq, not_or, UInt64.not_lt] at tooMuch
  exact ⟨tooMuch.1, tooMuch.2, rfl, rfl⟩

theorem dqacqWrite_change {pool : QmtPoolInfo} {clock : Clock} {rcs : DiskRcs}
    {restore : QmtLqeRestore} {glbRec : LquotaGlbRec} {granted slv : UInt64} {st : OutWrite}
    {locked : Locked} (tracks : (Decision.outWrite st).Tracks granted slv)
    (done : dqacqWrite pool clock rcs restore glbRec slv st = some locked) :
    GrantedChange restore.qlrGranted granted slv locked.lqe.lqeGranted locked.slvRec := by
  obtain ⟨moved, noReply⟩ := tracks
  unfold dqacqWrite at done
  split_ifs at done with zero slvFailed glbFailed
  · -- nothing to write: nothing moved
    cases done
    left
    simpa [noReply (beq_iff_eq.mp zero)] using moved
  · cases done
    exact Or.inr ⟨by simp, rfl⟩
  · -- the roll-back wrote the old share back
    cases done
    exact Or.inr ⟨by simp, rfl⟩
  · cases done
    left
    simpa using moved

/-- The locked section of `qmt_dqacq0` moves `lqe_granted` by as much as the
slave's record, or puts back the copy taken before the lock. -/
theorem qmtDqacq0Locked_change {pool : QmtPoolInfo} {clock : Clock} {rcs : DiskRcs}
    {restore : QmtLqeRestore} {qbFlags : UInt32} {qbCount qbUsage slvRec : UInt64}
    {lqe : LquotaEntry} {glbRec : LquotaGlbRec} {locked : Locked}
    (done : qmtDqacq0Locked pool clock rcs restore qbFlags qbCount qbUsage lqe glbRec slvRec =
      some locked) :
    GrantedChange restore.qlrGranted lqe.lqeGranted slvRec locked.lqe.lqeGranted locked.slvRec := by
  unfold qmtDqacq0Locked at done
  split_ifs at done
  · cases done
    exact Or.inl (by simp)
  · cases done
    exact Or.inl (by simp)
  · cases done
    exact Or.inl (by simp)
  · obtain ⟨decision, decided, written⟩ := Option.bind_eq_some_iff.mp done
    have tracks := dqacqDecision_tracks decided
    rw [qmtRevalidate_lqeGranted] at tracks
    cases decision with
    | outLocked rc lqe' =>
      cases written
      exact Or.inl (by simp [show lqe'.lqeGranted = lqe.lqeGranted from tracks])
    | outWrite st => exact dqacqWrite_change tracks written

/-- `qmt_set` keeps `lqe_granted`, or puts back the copy taken before the
lock. -/
theorem qmtSetLocked_lqeGranted (pool : QmtPoolInfo) (clock : Clock) (glbWrite : Int32)
    (restore : QmtLqeRestore) (now hard soft time : UInt64) (valid : UInt32)
    (lqe : LquotaEntry) (glbRec : LquotaGlbRec) :
    (qmtSetLocked pool clock glbWrite restore now hard soft time valid lqe glbRec).2.1.lqeGranted =
        lqe.lqeGranted ∨
      (qmtSetLocked pool clock glbWrite restore now hard soft time valid lqe glbRec).2.1.lqeGranted =
        restore.qlrGranted := by
  have write : ∀ lqe', lqe'.lqeGranted = lqe.lqeGranted →
      (setWrite pool clock glbWrite restore now glbRec lqe').2.1.lqeGranted = lqe.lqeGranted ∨
        (setWrite pool clock glbWrite restore now glbRec lqe').2.1.lqeGranted = restore.qlrGranted := by
    intro lqe' same
    unfold setWrite
    split_ifs
    · exact Or.inr (by simp)
    · exact Or.inl (by simpa using same)
  unfold qmtSetLocked
  dsimp only
  split_ifs <;> first
    | exact Or.inl rfl
    | exact write _ (by simp)

/-! ## A pool with two slaves -/

/-- A block pool with two slaves. -/
def twoSlavePool : QmtPoolInfo where
  qpiLeastQunit := 1024
  qpiSlvNr := 2
  resMd := false
  lqeGrace := 604800

/-- An identifier with a 1 GiB hard limit and nothing granted. -/
def limitedEntry : LquotaEntry where
  lqeIdUid := 500
  lqeGranted := 0
  lqeQunit := 1024
  lqeHardlimit := 1048576
  lqeSoftlimit := 0
  lqeGracetime := 0
  lqeRevokeTime := 0
  lqeMayRel := 0
  lqeEnforced := true
  lqeEdquot := false

/-- The entry with empty indexes and no call under way. -/
def idleEntry : QmtSystem (Fin 2) (Fin 2) where
  lqe := limitedEntry
  glbRec := qmtGlbRec limitedEntry
  slvIndex := fun _ => 0
  threads := fun _ => none
  replies := []

/-- The clock during both locked sections. -/
def lockClock : Clock := { sec := 1000, jiffies := 250000, hz := 250 }

/-! ## The entry and the slave index -/

section System

variable {ι τ : Type} [DecidableEq ι] [DecidableEq τ]

/-- `lqe_granted` is the sum of the slave index, in `u64`. -/
def QmtSystem.SumsAgree [Fintype ι] (sys : QmtSystem ι τ) : Prop :=
  sys.lqe.lqeGranted = ∑ slave, sys.slvIndex slave

omit [DecidableEq ι] [DecidableEq τ] in
theorem QmtSystem.sumsAgree_iff [Fintype ι] (sys : QmtSystem ι τ) :
    sys.SumsAgree ↔ sys.lqe.lqeGranted = ∑ slave, sys.slvIndex slave := Iff.rfl

/-- At most one call waits for the lock, and its copy of `lqe_granted` is the
entry's current one. -/
def QmtSystem.OneCurrent (sys : QmtSystem ι τ) : Prop :=
  ∀ thread started, sys.threads thread = some started →
    started.restore.qlrGranted = sys.lqe.lqeGranted ∧
      ∀ other, other ≠ thread → sys.threads other = none

omit [DecidableEq ι] in
@[simp] theorem QmtSystem.start_lqe (sys : QmtSystem ι τ) (thread : τ) (call : QmtCall ι)
    (now : UInt64) (startRc : Int32) : (sys.start thread call now startRc).lqe = sys.lqe := by
  unfold QmtSystem.start
  split
  · rfl
  · split_ifs <;> rfl

omit [DecidableEq ι] in
@[simp] theorem QmtSystem.start_slvIndex (sys : QmtSystem ι τ) (thread : τ) (call : QmtCall ι)
    (now : UInt64) (startRc : Int32) :
    (sys.start thread call now startRc).slvIndex = sys.slvIndex := by
  unfold QmtSystem.start
  split
  · rfl
  · split_ifs <;> rfl

/-- A locked section whose copy is current keeps the sum. -/
theorem QmtSystem.SumsAgree.finish [Fintype ι] {pool : QmtPoolInfo} {sys sys' : QmtSystem ι τ}
    {thread : τ} {clock : Clock} {rcs : DiskRcs} (agree : sys.SumsAgree)
    (current : ∀ started, sys.threads thread = some started →
      started.restore.qlrGranted = sys.lqe.lqeGranted)
    (done : sys.finish pool thread clock rcs = some sys') : sys'.SumsAgree := by
  unfold QmtSystem.finish at done
  split at done
  · cases done
    exact agree
  · rename_i started waiting
    have copy := current started waiting
    split at done
    next =>
      obtain ⟨locked, lockedDone, rfl⟩ := Option.map_eq_some_iff.mp done
      exact Ledger.total_eq_sum_update id agree
        ((qmtDqacq0Locked_change lockedDone).moved_of_current copy)
    next hard soft time valid _ =>
      cases done
      have same := qmtSetLocked_lqeGranted pool clock rcs.glbWrite started.restore started.now
        hard soft time valid sys.lqe sys.glbRec
      rw [copy, or_self] at same
      exact same.trans agree

/-- A locked section ends with no call waiting, when it was the only one. -/
theorem QmtSystem.finish_idle {pool : QmtPoolInfo} {sys sys' : QmtSystem ι τ} {thread : τ}
    {clock : Clock} {rcs : DiskRcs}
    (alone : ∀ other, other ≠ thread → sys.threads other = none)
    (done : sys.finish pool thread clock rcs = some sys') :
    ∀ other, sys'.threads other = none := by
  intro other
  unfold QmtSystem.finish at done
  split at done
  · cases done
    by_cases same : other = thread
    · subst same
      assumption
    · exact alone other same
  · split at done
    · obtain ⟨locked, -, rfl⟩ := Option.map_eq_some_iff.mp done
      by_cases same : other = thread
      · subst same
        simp [QmtSystem.answer]
      · simpa [QmtSystem.answer, same] using alone other same
    · cases done
      by_cases same : other = thread
      · subst same
        simp [QmtSystem.answer]
      · simpa [QmtSystem.answer, same] using alone other same

/-- Calls run one at a time: a call starts only when none waits for the
lock, as if `lqe_write_lock` were taken before the copy. -/
def serial : Option (QmtSystem ι τ) → QmtEvent ι τ → Prop
  | some sys, .start _ _ _ _ => ∀ thread, sys.threads thread = none
  | _, _ => True

/-- The invariant of serial runs. -/
def SerialAgree [Fintype ι] : Option (QmtSystem ι τ) → Prop
  | none => True
  | some sys => sys.SumsAgree ∧ sys.OneCurrent

theorem SerialAgree.apply [Fintype ι] {pool : QmtPoolInfo} {state : Option (QmtSystem ι τ)}
    {event : QmtEvent ι τ} (agree : SerialAgree state) (allowed : serial state event) :
    SerialAgree (QmtEvent.apply pool state event) := by
  match state, event with
  | none, _ => trivial
  | some sys, .start thread call now startRc =>
    obtain ⟨sums, -⟩ := agree
    have idle : ∀ other, sys.threads other = none := allowed
    refine ⟨by simpa [QmtSystem.sumsAgree_iff] using sums, ?_⟩
    intro waiting started found
    -- only the thread that just started can wait, with a fresh copy
    simp only [QmtSystem.start, idle] at found ⊢
    split_ifs at found ⊢
    · simp [idle] at found
    · by_cases same : waiting = thread
      · subst same
        simp only [Function.update_self, Option.some.injEq] at found
        subst found
        refine ⟨rfl, fun other different => ?_⟩
        simp [Function.update_of_ne different, idle]
      · simp [Function.update_of_ne same, idle] at found
  | some sys, .finish thread clock rcs =>
    obtain ⟨sums, one⟩ := agree
    show SerialAgree (sys.finish pool thread clock rcs)
    cases waiting : sys.threads thread with
    | none =>
      -- the thread has no call to finish
      simp only [QmtSystem.finish, waiting]
      exact ⟨sums, one⟩
    | some started =>
      obtain ⟨copy, alone⟩ := one thread started waiting
      cases done : sys.finish pool thread clock rcs with
      | none => trivial
      | some sys' =>
        have idle := QmtSystem.finish_idle alone done
        refine ⟨sums.finish (fun started' waiting' => ?_) done, ?_⟩
        · rw [waiting, Option.some.injEq] at waiting'
          subst waiting'
          exact copy
        · intro other started' found
          simp [idle other] at found

/-- Run one call at a time, from an entry whose `lqe_granted` is the sum of
the slave index and no call waiting, `lqe_granted` stays the sum over every
run, whatever the slaves ask and whichever index writes fail. -/
theorem sumsAgree_of_serial_run [Fintype ι] {pool : QmtPoolInfo} {start : QmtSystem ι τ}
    {state : Option (QmtSystem ι τ)} (agree : start.SumsAgree)
    (idle : ∀ thread, start.threads thread = none)
    (reachable : Machine.Reachable (QmtEvent.apply pool) serial (some start) state) :
    SerialAgree state := by
  have startAgrees : SerialAgree (some start) :=
    ⟨agree, fun thread started waiting => by simp [idle thread] at waiting⟩
  exact Machine.Reachable.invariant SerialAgree startAgrees
    (fun _ _ holds allowed => holds.apply allowed) reachable

theorem sumsAgree_of_serial_run_one_grant :
    SerialAgree (QmtEvent.apply twoSlavePool
      (QmtEvent.apply twoSlavePool (some idleEntry) (.start 1 (.dqacq 1 quotaDqacqFlAcq 200 0) 1000 0))
      (.finish 1 lockClock DiskRcs.ok)) :=
  sumsAgree_of_serial_run
    (show idleEntry.SumsAgree by simp [QmtSystem.sumsAgree_iff, idleEntry, limitedEntry])
    (fun _ => rfl)
    ((Machine.Reachable.start.step (QmtEvent.start 1 (.dqacq 1 quotaDqacqFlAcq 200 0) 1000 0)
      (fun _ => rfl)).step (QmtEvent.finish 1 lockClock DiskRcs.ok) trivial)

end System

/-! ## A grant lost to a failed write

Two slaves acquire space at once.  Slave 0's call copies the entry, with
`lqe_granted` = 0, and waits for the lock while slave 1's call runs: slave 1
is granted the 200 it asked for, `qmt_alloc_expand` adds 824 up to the quota
unit, and both indexes are written.  Slave 0's call then takes the lock, and
the write of its slave index fails with `EIO`: `qmt_restore` puts back the
copy.  Both calls have returned, and `lqe_granted` is 0 while slave 1 owns
1024 in the slave index and the global index says 1024. -/

/-- Thread 0 acquires for slave 0 and thread 1 for slave 1; thread 1 runs
between thread 0's copy and its lock, and thread 0's slave write fails. -/
def lostGrantEvents : List (QmtEvent (Fin 2) (Fin 2)) :=
  [.start 0 (.dqacq 0 quotaDqacqFlAcq 100 0) 1000 0,
   .start 1 (.dqacq 1 quotaDqacqFlAcq 200 0) 1000 0,
   .finish 1 lockClock DiskRcs.ok,
   .finish 0 lockClock { DiskRcs.ok with slvWrite := -5 }]

theorem qmtDqacq0_loses_concurrent_grant :
    ∃ sys, Machine.run (QmtEvent.apply twoSlavePool) (some idleEntry) lostGrantEvents = some sys ∧
      (∀ thread, sys.threads thread = none) ∧
      sys.replies = [(0, -5, 0), (1, 0, 1024)] ∧
      sys.lqe.lqeGranted = 0 ∧ sys.slvIndex 1 = 1024 ∧ sys.glbRec.qbrGranted = 1024 ∧
      ¬ sys.SumsAgree := by
  refine ⟨_, rfl, ?_, ?_, ?_, ?_, ?_, ?_⟩
  · decide
  · decide
  · decide
  · decide
  · decide
  · simp only [QmtSystem.sumsAgree_iff, Fin.sum_univ_two]
    decide

end Qmt
end Lustre
