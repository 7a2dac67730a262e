import Mathlib.Data.List.Basic
import Lustre.Library.Run

/-!
# The sequence server

A sequence server hands out ranges of FID sequences.  It allocates from
`lss_space`, the part of its super-sequence it has not used, and it keeps two
batches taken from that space: `lss_lowater_set`, from which it hands out
meta-sequences, and `lss_hiwater_set`, which becomes the next low-water set.
Every move of `lss_space` is written to disk by `seq_store_update`; after a
restart `seq_store_read` puts the committed copy back into `lss_space` and the
two sets start empty.  A batch may be used only once the write that moved
`lss_space` past it has committed: otherwise a crash gives it out again.

The disk is a committed copy of `lss_space` and a queue of transactions not
yet committed.  A synchronous update commits together with every earlier
transaction before it returns; an asynchronous one commits later and then runs
`seq_update_cb`.  Every update may fail, and the environment chooses the
return codes, the super-sequences the controller grants and when transactions
commit.

`__seq_set_init` moves `lss_space` past both batches with a synchronous
update, but its callers ignore its return code.  When that update fails the
server still hands out from the new low-water set, whose space is free again
on disk; after a crash it hands the same sequences out a second time.
-/

namespace Lustre
namespace Fid

/-! ## Ranges -/

/-- `struct lu_seq_range`, without `lsr_index`, which nothing here reads. -/
structure LuSeqRange where
  /-- `lsr_start`. -/
  lsrStart : UInt64
  /-- `lsr_end`. -/
  lsrEnd : UInt64
  /-- `lsr_flags`. -/
  lsrFlags : UInt32
  deriving DecidableEq, Repr

/-- `LU_SEQ_RANGE_MDT`. -/
def luSeqRangeMdt : UInt32 := 0

/-- `LU_SEQ_RANGE_OST`. -/
def luSeqRangeOst : UInt32 := 1

/-- `EINVAL`. -/
def einval : Int := 22

/-- `ENOSPC`. -/
def enospc : Int := 28

/-- `ENODEV`. -/
def enodev : Int := 19

/-- `lu_seq_range_init` (and `LUSTRE_SEQ_ZERO_RANGE`). -/
def LuSeqRange.zero : LuSeqRange := { lsrStart := 0, lsrEnd := 0, lsrFlags := 0 }

/-- `lu_seq_range_space`. -/
def LuSeqRange.space (range : LuSeqRange) : UInt64 := range.lsrEnd - range.lsrStart

/-- `lu_seq_range_is_sane`. -/
def LuSeqRange.isSane (range : LuSeqRange) : Bool := range.lsrEnd ≥ range.lsrStart

/-- `lu_seq_range_is_zero`. -/
def LuSeqRange.isZero (range : LuSeqRange) : Bool := range.lsrStart = 0 ∧ range.lsrEnd = 0

/-- `lu_seq_range_is_exhausted`. -/
def LuSeqRange.isExhausted (range : LuSeqRange) : Bool := range.space = 0

/-- `range_alloc(to, from, width)`: `to` gets the first `width` sequences of
`from` (or all of them), and `from` loses them.  The result is the new `to`
and the new `from`. -/
def rangeAlloc (toRange fromRange : LuSeqRange) (width : UInt64) : LuSeqRange × LuSeqRange :=
  let width := min fromRange.space width
  ({ toRange with lsrStart := fromRange.lsrStart, lsrEnd := fromRange.lsrStart + width },
    { fromRange with lsrStart := fromRange.lsrStart + width })

/-! ## The server and its store -/

/-- The fields of `struct lu_server_seq` that allocation uses. -/
structure LuServerSeq where
  /-- `lss_space`. -/
  lssSpace : LuSeqRange
  /-- `lss_lowater_set`. -/
  lssLowaterSet : LuSeqRange
  /-- `lss_hiwater_set`. -/
  lssHiwaterSet : LuSeqRange
  /-- `lss_need_sync`. -/
  lssNeedSync : Bool
  /-- `lss_width`. -/
  lssWidth : UInt64
  /-- `lss_set_width`. -/
  lssSetWidth : UInt64
  /-- `lss_cli != NULL`: a sequence controller is attached. -/
  lssCli : Bool
  deriving DecidableEq, Repr

/-- The on-disk copy of `lss_space` and the transactions of
`seq_store_update` that have not committed yet, oldest first, each with the
space it writes and whether `seq_update_cb` is attached. -/
structure SeqStore where
  /-- The committed copy that `seq_store_read` returns. -/
  committed : LuSeqRange
  /-- Transactions not yet committed. -/
  pending : List (LuSeqRange × Bool)
  deriving DecidableEq, Repr

/-- `seq_store_update(env, seq, out, sync)` with the return code `rc` of the
OSD calls: a failure writes nothing.  A synchronous transaction commits with
all earlier ones before the call returns, and their callbacks run; an
asynchronous one gets `seq_update_cb`, so the next update must be
synchronous until it commits. -/
def seqStoreUpdate (seq : LuServerSeq) (store : SeqStore) (sync : Bool) (rc : Int) :
    Int × LuServerSeq × SeqStore :=
  if rc ≠ 0 then (rc, seq, store)
  else if sync then
    (0, { seq with lssNeedSync := if store.pending.any (·.2) then false else seq.lssNeedSync },
      { committed := seq.lssSpace, pending := [] })
  else
    (0, { seq with lssNeedSync := true },
      { store with pending := store.pending ++ [(seq.lssSpace, true)] })

/-- The oldest pending transaction commits and its callback runs. -/
def commitOldest (seq : LuServerSeq) (store : SeqStore) : LuServerSeq × SeqStore :=
  match store.pending with
  | [] => (seq, store)
  | (space, callback) :: rest =>
    ({ seq with lssNeedSync := if callback then false else seq.lssNeedSync },
      { committed := space, pending := rest })

/-- A crash and `seq_server_init`: uncommitted transactions are lost,
`seq_store_read` reads the committed space, and the sets start empty. -/
def restart (seq : LuServerSeq) (store : SeqStore) : LuServerSeq × SeqStore :=
  ({ seq with
      lssSpace := store.committed
      lssLowaterSet := LuSeqRange.zero
      lssHiwaterSet := LuSeqRange.zero
      lssNeedSync := false },
    { committed := store.committed, pending := [] })

/-! ## Allocation -/

/-- `__seq_set_init`: both batches are cut from `lss_space`, then the new
space is written synchronously.  `rc` is the store's return code. -/
def seqSetInit (seq : LuServerSeq) (store : SeqStore) (rc : Int) :
    Int × LuServerSeq × SeqStore :=
  let (lowater, space) := rangeAlloc seq.lssLowaterSet seq.lssSpace seq.lssSetWidth
  let (hiwater, space) := rangeAlloc seq.lssHiwaterSet space seq.lssSetWidth
  seqStoreUpdate { seq with lssLowaterSet := lowater, lssHiwaterSet := hiwater, lssSpace := space }
    store true rc

/-- `if (lu_seq_range_is_zero(&seq->lss_lowater_set)) __seq_set_init(env, seq);`,
which drops the return code. -/
def setInitIfZero (seq : LuServerSeq) (store : SeqStore) (rc : Int) : LuServerSeq × SeqStore :=
  if seq.lssLowaterSet.isZero then (seqSetInit seq store rc).2 else (seq, store)

/-- What the environment decides during `range_alloc_set`. -/
structure SetInput where
  /-- The return code of the store in `__seq_set_init`. -/
  setInitRc : Int
  /-- `obd_num_clients`. -/
  numClients : UInt64
  /-- The return code of the store after the switch to the high-water set. -/
  hiwaterRc : Int
  deriving DecidableEq, Repr

/-- `range_alloc_set`: the return code, `out` and the new state; `none` is a
failed `LASSERTF`. -/
def rangeAllocSet (seq : LuServerSeq) (store : SeqStore) (out : LuSeqRange) (input : SetInput) :
    Option (Int × LuSeqRange × LuServerSeq × SeqStore) :=
  let (seq, store) := setInitIfZero seq store input.setInitRc
  let (rc, seq, store) :=
    if seq.lssLowaterSet.isExhausted then
      -- reached high water mark
      let setSz := max seq.lssSetWidth (input.numClients * seq.lssWidth)
      let setSz := min seq.lssSpace.space setSz
      let (hiwater, space) := rangeAlloc seq.lssHiwaterSet seq.lssSpace setSz
      seqStoreUpdate
        { seq with lssLowaterSet := seq.lssHiwaterSet, lssHiwaterSet := hiwater, lssSpace := space }
        store seq.lssNeedSync input.hiwaterRc
    else (0, seq, store)
  if seq.lssLowaterSet.isExhausted ∧ !seq.lssLowaterSet.isSane then none
  else if rc = 0 then
    let (out, lowater) := rangeAlloc out seq.lssLowaterSet seq.lssWidth
    some (0, out, { seq with lssLowaterSet := lowater }, store)
  else some (rc, out, seq, store)

/-- What the environment decides during `seq_server_check_and_alloc_super`. -/
structure SuperInput where
  /-- The return code of `seq_client_alloc_super`. -/
  controllerRc : Int
  /-- `lss_cli->lcs_space` after it: the super-sequence granted. -/
  controllerSpace : LuSeqRange
  /-- The return code of `fld_insert_entry` (0 when the controller is local). -/
  fldRc : Int
  /-- The return code of the store in `__seq_set_init`. -/
  setInitRc : Int
  deriving DecidableEq, Repr

/-- `seq_server_check_and_alloc_super`; `none` is a failed `LASSERT`. -/
def seqServerCheckAndAllocSuper (seq : LuServerSeq) (store : SeqStore) (input : SuperInput) :
    Option (Int × LuServerSeq × SeqStore) :=
  if seq.lssSpace.isExhausted then
    if !seq.lssCli then some (-enodev, seq, store)
    else if input.controllerRc ≠ 0 then some (input.controllerRc, seq, store)
    -- saving the new range to the allocation space
    else if !input.controllerSpace.isSane then none
    else
      let (seq, store) :=
        setInitIfZero { seq with lssSpace := input.controllerSpace } store input.setInitRc
      some (input.fldRc, seq, store)
  else
    let (seq, store) := setInitIfZero seq store input.setInitRc
    some (0, seq, store)

/-- `__seq_server_alloc_meta`. -/
def seqServerAllocMeta (seq : LuServerSeq) (store : SeqStore) (out : LuSeqRange)
    (superInput : SuperInput) (setInput : SetInput) :
    Option (Int × LuSeqRange × LuServerSeq × SeqStore) :=
  if !seq.lssSpace.isSane then none
  else (seqServerCheckAndAllocSuper seq store superInput).bind fun (rc, seq, store) =>
    if rc < 0 then some (rc, out, seq, store)
    else rangeAllocSet seq store out setInput

/-- `__seq_server_alloc_super`: a super-sequence for another server, cut from
`lss_space` and stored synchronously with return code `rc`. -/
def seqServerAllocSuper (seq : LuServerSeq) (store : SeqStore) (out : LuSeqRange) (rc : Int) :
    Option (Int × LuSeqRange × LuServerSeq × SeqStore) :=
  if !seq.lssSpace.isSane then none
  else if seq.lssSpace.isExhausted then some (-enospc, out, seq, store)
  else
    let (out, space) := rangeAlloc out seq.lssSpace seq.lssWidth
    let (rc, seq, store) := seqStoreUpdate { seq with lssSpace := space } store true rc
    some (rc, out, seq, store)

/-- `seq_server_alloc_spec`: hand out the range `spec` chosen by the
administrator, stored synchronously with return code `rc`. -/
def seqServerAllocSpec (seq : LuServerSeq) (store : SeqStore) (spec : LuSeqRange) (rc : Int) :
    Int × LuServerSeq × SeqStore :=
  if spec.lsrStart ≥ spec.lsrEnd then (-einval, seq, store)
  else if spec.lsrFlags ≠ luSeqRangeMdt ∧ spec.lsrFlags ≠ luSeqRangeOst then
    (-einval, seq, store)
  else if spec.lsrStart ≥ seq.lssSpace.lsrStart then
    seqStoreUpdate { seq with lssSpace := { seq.lssSpace with lsrStart := spec.lsrEnd } }
      store true rc
  else (-enospc, seq, store)

/-! ## Runs with crashes -/

/-- The server, its store, and the ranges it has handed out so far. -/
structure SeqServerSystem where
  /-- The server in memory. -/
  seq : LuServerSeq
  /-- The disk. -/
  store : SeqStore
  /-- The ranges returned with return code 0, oldest first. -/
  handedOut : List LuSeqRange
  deriving DecidableEq, Repr

/-- What can happen to the server. -/
inductive SeqEvent
  /-- `seq_server_alloc_meta`. -/
  | allocMeta (superInput : SuperInput) (setInput : SetInput)
  /-- `seq_server_alloc_super` with the store's return code. -/
  | allocSuper (rc : Int)
  /-- `seq_server_check_and_alloc_super`. -/
  | checkAndAllocSuper (superInput : SuperInput)
  /-- `seq_server_alloc_spec` with the store's return code. -/
  | allocSpec (spec : LuSeqRange) (rc : Int)
  /-- The oldest pending transaction commits. -/
  | commit
  /-- The server crashes and restarts. -/
  | crash
  deriving DecidableEq, Repr

/-- Record a range handed out with return code 0. -/
def SeqServerSystem.record (sys : SeqServerSystem) (rc : Int) (out : LuSeqRange)
    (seq : LuServerSeq) (store : SeqStore) : SeqServerSystem :=
  { seq := seq, store := store,
    handedOut := if rc = 0 then sys.handedOut ++ [out] else sys.handedOut }

/-- One event; `none` is a failed assertion, and stays. -/
def SeqEvent.apply : Option SeqServerSystem → SeqEvent → Option SeqServerSystem
  | none, _ => none
  | some sys, .allocMeta superInput setInput =>
    (seqServerAllocMeta sys.seq sys.store LuSeqRange.zero superInput setInput).map
      fun (rc, out, seq, store) => sys.record rc out seq store
  | some sys, .allocSuper rc =>
    (seqServerAllocSuper sys.seq sys.store LuSeqRange.zero rc).map
      fun (rc, out, seq, store) => sys.record rc out seq store
  | some sys, .checkAndAllocSuper superInput =>
    (seqServerCheckAndAllocSuper sys.seq sys.store superInput).map
      fun (_, seq, store) => { sys with seq := seq, store := store }
  | some sys, .allocSpec spec rc =>
    let (rc, seq, store) := seqServerAllocSpec sys.seq sys.store spec rc
    some (sys.record rc spec seq store)
  | some sys, .commit =>
    let (seq, store) := commitOldest sys.seq sys.store
    some { sys with seq := seq, store := store }
  | some sys, .crash =>
    let (seq, store) := restart sys.seq sys.store
    some { sys with seq := seq, store := store }

/-- No sequence has been handed out twice. -/
def SeqServerSystem.HandedOutDisjoint (sys : SeqServerSystem) : Prop :=
  sys.handedOut.Pairwise fun a b => a.lsrEnd ≤ b.lsrStart ∨ b.lsrEnd ≤ a.lsrStart

instance (sys : SeqServerSystem) : Decidable sys.HandedOutDisjoint :=
  inferInstanceAs (Decidable (sys.handedOut.Pairwise _))

/-! ## Handing a batch out twice

A metadata server with `lss_width = LUSTRE_SEQ_META_WIDTH` and
`lss_set_width = LUSTRE_SEQ_BATCH_WIDTH` gets the super-sequence
`[0x200000400, 0x200000400 + 2^30)` and stores `lss_space` past its first two
batches.  After a restart the next `__seq_set_init` cuts the batches again
from the stored space, but its store fails; the server hands out from the
low-water set anyway, crashes, and hands out the same sequence again. -/

/-- A new metadata server with nothing on disk but the zero range. -/
def SeqServerSystem.start : SeqServerSystem where
  seq :=
    { lssSpace := LuSeqRange.zero, lssLowaterSet := LuSeqRange.zero,
      lssHiwaterSet := LuSeqRange.zero, lssNeedSync := false, lssWidth := 1,
      lssSetWidth := 1000, lssCli := true }
  store := { committed := LuSeqRange.zero, pending := [] }
  handedOut := []

/-- The super-sequence the controller grants. -/
def grantedSuper : LuSeqRange :=
  { lsrStart := 0x200000400, lsrEnd := 0x200000400 + 2 ^ 30, lsrFlags := luSeqRangeMdt }

/-- Every call succeeds. -/
def superOk : SuperInput :=
  { controllerRc := 0, controllerSpace := grantedSuper, fldRc := 0, setInitRc := 0 }

/-- Every call succeeds. -/
def setOk : SetInput := { setInitRc := 0, numClients := 1, hiwaterRc := 0 }

/-- The store of `__seq_set_init` fails with `-EIO`. -/
def setInitFails : SuperInput := { superOk with setInitRc := -5 }

/-- Allocate, crash, allocate with a failed `__seq_set_init` store, crash,
allocate. -/
def doubleAllocEvents : List SeqEvent :=
  [.allocMeta superOk setOk, .crash, .allocMeta setInitFails setOk, .crash,
    .allocMeta superOk setOk]

/-- A range chosen by hand that ends past the granted super-sequence. -/
def rangePastSpace : LuSeqRange :=
  { lsrStart := 0x200000400 + 5000, lsrEnd := 0x200000400 + 2 ^ 31, lsrFlags := luSeqRangeMdt }

/-- `seq_server_alloc_spec` for a range that ends past `lss_space`. -/
def specPastSpace : List SeqEvent :=
  [.allocMeta superOk setOk, .allocSpec rangePastSpace 0]

theorem seqServerAllocMeta_hands_out_twice :
    (∃ sys, Machine.run SeqEvent.apply (some SeqServerSystem.start) doubleAllocEvents = some sys ∧
      sys.handedOut =
        [{ lsrStart := 0x200000400, lsrEnd := 0x200000401, lsrFlags := 0 },
          { lsrStart := 0x200000400 + 2000, lsrEnd := 0x200000400 + 2001, lsrFlags := 0 },
          { lsrStart := 0x200000400 + 2000, lsrEnd := 0x200000400 + 2001, lsrFlags := 0 }] ∧
      ¬ sys.HandedOutDisjoint) ∧
    ∃ sys, Machine.run SeqEvent.apply (some SeqServerSystem.start) specPastSpace = some sys ∧
      sys.seq.lssSpace.isSane = false := by
  refine ⟨⟨_, rfl, ?_, ?_⟩, ⟨_, rfl, ?_⟩⟩ <;> decide

end Fid
end Lustre
