import Lustre.Fid.Ostid
import Lustre.Fid.SeqServer
import Lustre.Library.Run

/-!
# Client FID allocation (fid/fid_request.c)

A client of the sequence controller hands out FIDs from `struct
lu_client_seq`.  `lcs_fid` is the last FID handed out; while its `f_oid` is
below `lcs_width`, `seq_client_alloc_fid` bumps it under `lcs_mutex`.
Otherwise the thread raises `lcs_update` in `seq_fid_alloc_prep`, drops
`lcs_mutex` and takes the next sequence of `lcs_space` in
`seq_client_alloc_seq`, asking the controller for a new meta-sequence range
when `lcs_space` is used up.  Threads that find `lcs_update` raised sleep on
`lcs_waitq` and go round their loop again.  `seq_client_get_seq` takes a
whole sequence the same way, and `seq_client_flush` forgets `lcs_fid` and
`lcs_space` once no thread updates them.

Each section under `lcs_mutex` is one step, and so is the part of a call
between `seq_fid_alloc_prep` and `seq_fid_alloc_fini`, which runs without
it.  That part ends with the stores of the new sequence into `lcs_fid`:
`seq_client_alloc_fid` makes them before `seq_fid_alloc_fini` takes
`lcs_mutex` again, and returns `lcs_fid` as it finds it then.  A thread
that passes the top of `seq_client_alloc_fid`'s loop in that window bumps
the new FID and returns it, and the thread that took the sequence returns
the same FID (`seqClientAllocFid_hands_out_twice`).  On every interleaving
that leaves the window alone, and with a controller whose ranges are sane
and disjoint, no `LASSERT` fails and no FID or sequence is handed out twice
(`fidsUnique_of_reachable`).

`seq_client_rpc` copies the reply's range into `lcs_space` before it checks
it: a range with `lsr_end < lsr_start` is refused with `-EINVAL` and stays in
`lcs_space`, and the next call fails the first `LASSERT` of
`seq_client_alloc_seq` (`seqClientAllocSeq_asserts_after_insane_reply`).
-/

namespace Lustre
namespace Fid

open Mdd

/-! ## The client sequence -/

/-- `EAGAIN`. -/
def eagain : Int := 11

/-- `EINPROGRESS`. -/
def einprogress : Int := 115

/-- `LUSTRE_METADATA_SEQ_MAX_WIDTH`. -/
def lustreMetadataSeqMaxWidth : UInt64 := 0x20000

/-- `LUSTRE_DATA_SEQ_MAX_WIDTH`. -/
def lustreDataSeqMaxWidth : UInt64 := 0xFFFFFFFF

/-- `enum lu_cli_type`. -/
inductive LuCliType
  | lustreSeqMetadata
  | lustreSeqData
  deriving DecidableEq, Repr

/-- The width of a whole sequence of this type: what `seq_client_init` sets
`lcs_width` to, the bound of `lprocfs_client_fid_width_seq_write`, and the
`f_oid` that `seq_client_get_seq` marks a taken sequence with. -/
def LuCliType.maxWidth : LuCliType → UInt64
  | .lustreSeqMetadata => lustreMetadataSeqMaxWidth
  | .lustreSeqData => lustreDataSeqMaxWidth

/-- `lu_seq_range_within`. -/
def LuSeqRange.within (range : LuSeqRange) (seq : UInt64) : Bool :=
  seq ≥ range.lsrStart ∧ seq < range.lsrEnd

/-! ### Ranges as intervals of numbers -/

namespace LuSeqRange

theorem isSane_iff {range : LuSeqRange} :
    range.isSane = true ↔ range.lsrStart.toNat ≤ range.lsrEnd.toNat := by
  simp [isSane, UInt64.le_iff_toNat_le]

theorem within_iff {range : LuSeqRange} {seq : UInt64} :
    range.within seq = true ↔ range.lsrStart.toNat ≤ seq.toNat ∧ seq.toNat < range.lsrEnd.toNat := by
  simp [within, UInt64.le_iff_toNat_le, UInt64.lt_iff_toNat_lt]

theorem isExhausted_iff {range : LuSeqRange} : range.isExhausted = true ↔ range.lsrEnd = range.lsrStart := by
  simp [isExhausted, space, sub_eq_zero]

/-- A used-up range holds no sequence. -/
theorem within_of_isExhausted {range : LuSeqRange} (exhausted : range.isExhausted = true)
    (seq : UInt64) : range.within seq = false := by
  rw [isExhausted_iff] at exhausted
  have outside : ¬ (range.lsrStart.toNat ≤ seq.toNat ∧ seq.toNat < range.lsrEnd.toNat) := by
    rw [exhausted]
    omega
  simpa [← within_iff] using outside

/-- A sane range that is not used up starts below its end. -/
theorem start_lt_end {range : LuSeqRange} (sane : range.isSane = true)
    (notExhausted : range.isExhausted = false) : range.lsrStart.toNat < range.lsrEnd.toNat := by
  have differ : range.lsrEnd ≠ range.lsrStart := by
    simpa [← isExhausted_iff] using notExhausted
  have distinct : range.lsrEnd.toNat ≠ range.lsrStart.toNat := fun equal => differ (UInt64.toNat_inj.1 equal)
  rw [isSane_iff] at sane
  omega

/-- `lsr_start += 1` does not wrap on a range that is not used up. -/
theorem toNat_start_add_one {range : LuSeqRange} (sane : range.isSane = true)
    (notExhausted : range.isExhausted = false) :
    (range.lsrStart + 1).toNat = range.lsrStart.toNat + 1 := by
  have below := start_lt_end sane notExhausted
  have fits := range.lsrEnd.toNat_lt
  rw [UInt64.toNat_add, UInt64.toNat_one, Nat.mod_eq_of_lt (by omega)]

/-- The range left after its first sequence is taken. -/
theorem within_takeFirst {range : LuSeqRange} (sane : range.isSane = true)
    (notExhausted : range.isExhausted = false) (seq : UInt64) :
    ({ range with lsrStart := range.lsrStart + 1 } : LuSeqRange).within seq = true ↔
      range.within seq = true ∧ seq ≠ range.lsrStart := by
  have distinct : seq ≠ range.lsrStart ↔ seq.toNat ≠ range.lsrStart.toNat :=
    not_congr UInt64.toNat_inj.symm
  rw [within_iff, within_iff, distinct]
  simp only [toNat_start_add_one sane notExhausted]
  omega

theorem isSane_takeFirst {range : LuSeqRange} (sane : range.isSane = true)
    (notExhausted : range.isExhausted = false) :
    ({ range with lsrStart := range.lsrStart + 1 } : LuSeqRange).isSane = true := by
  have below := start_lt_end sane notExhausted
  rw [isSane_iff]
  simp only [toNat_start_add_one sane notExhausted]
  omega

theorem start_within {range : LuSeqRange} (sane : range.isSane = true)
    (notExhausted : range.isExhausted = false) : range.within range.lsrStart = true := by
  have below := start_lt_end sane notExhausted
  rw [within_iff]
  omega

@[simp] theorem within_zero (seq : UInt64) : LuSeqRange.zero.within seq = false :=
  within_of_isExhausted (by decide) seq

end LuSeqRange

/-- `fid_is_zero`. -/
def fidIsZero (fid : LuFid) : Bool := fid.fSeq = 0 ∧ fid.fOid = 0

/-- The fields of `struct lu_client_seq` that allocation uses.  `lcs_exp` and
`lcs_srv`, the way to the controller, are the replies of the events. -/
structure LuClientSeq where
  /-- `lcs_space`. -/
  lcsSpace : LuSeqRange
  /-- `lcs_fid`. -/
  lcsFid : LuFid
  /-- `lcs_type`. -/
  lcsType : LuCliType
  /-- `lcs_width`. -/
  lcsWidth : UInt64
  /-- `lcs_update`. -/
  lcsUpdate : Nat
  deriving DecidableEq, Repr

/-- The client sequence as `seq_client_init` leaves it: `lcs_width` at the
type's maximum, and `lcs_fid` and `lcs_space` zeroed by `seq_client_flush`. -/
def seqClientInit (type : LuCliType) : LuClientSeq where
  lcsSpace := LuSeqRange.zero
  lcsFid := LuFid.zero
  lcsType := type
  lcsWidth := type.maxWidth
  lcsUpdate := 0

/-- The answer to one `SEQ_QUERY` of `seq_client_rpc`. -/
inductive SeqQueryReply
  /-- the request cannot be allocated, or `ptlrpc_queue_wait` fails, with `rc` -/
  | failed (rc : Int)
  /-- the reply carries the range `out` -/
  | range (out : LuSeqRange)
  deriving DecidableEq, Repr

/-- `seq_client_rpc` into `output`: the return code and `output` after it.
The reply's range is copied into `output` before it is checked. -/
def seqClientRpc (output : LuSeqRange) : SeqQueryReply → Int × LuSeqRange
  | .failed rc => (rc, output)
  | .range out =>
    if !out.isSane then (-einval, out)
    else if out.isExhausted then (-einval, out)
    else (0, out)

theorem seqClientRpc_failed (output : LuSeqRange) (rc : Int) : seqClientRpc output (.failed rc) = (rc, output) := rfl

theorem seqClientRpc_range (output out : LuSeqRange) :
    seqClientRpc output (.range out) =
      if !out.isSane then (-einval, out)
      else if out.isExhausted then (-einval, out)
      else (0, out) := rfl

/-- One round of the loop of `seq_client_alloc_meta` on a client without
`lcs_srv`: `none` when the controller answers `-EINPROGRESS` or `-EAGAIN`
and the loop sends the query again. -/
def seqClientAllocMeta (space : LuSeqRange) (reply : SeqQueryReply) : Option (Int × LuSeqRange) :=
  let answer := seqClientRpc space reply
  if answer.1 = -einprogress ∨ answer.1 = -eagain then none else some answer

theorem seqClientAllocMeta_eq (space : LuSeqRange) (reply : SeqQueryReply) :
    seqClientAllocMeta space reply =
      let answer := seqClientRpc space reply
      if answer.1 = -einprogress ∨ answer.1 = -eagain then none else some answer := rfl

/-- How one attempt of `seq_client_alloc_seq` ends. -/
inductive AllocSeq
  /-- the meta-sequence query is sent again -/
  | again
  /-- an `LASSERT` fails -/
  | lbug
  /-- the meta-sequence query fails with `rc`, leaving `lcs_space` as `space` -/
  | failed (rc : Int) (space : LuSeqRange)
  /-- `*seqnr` and `lcs_space` after it -/
  | allocated (seqnr : UInt64) (space : LuSeqRange)
  deriving DecidableEq, Repr

/-- `seq_client_alloc_seq` on `lcs_space`, with the controller's reply when
it asks for a meta-sequence. -/
def seqClientAllocSeq (space : LuSeqRange) (reply : SeqQueryReply) : AllocSeq :=
  if !space.isSane then .lbug
  else if space.isExhausted then
    match seqClientAllocMeta space reply with
    | none => .again
    | some (rc, space) => if rc ≠ 0 then .failed rc space else takeFirst space
  else takeFirst space
where
  /-- `LASSERT(!lu_seq_range_is_exhausted(...))`, then the first sequence. -/
  takeFirst (space : LuSeqRange) : AllocSeq :=
    if space.isExhausted then .lbug
    else .allocated space.lsrStart { space with lsrStart := space.lsrStart + 1 }

theorem seqClientAllocSeq_eq (space : LuSeqRange) (reply : SeqQueryReply) :
    seqClientAllocSeq space reply =
      if !space.isSane then .lbug
      else if space.isExhausted then
        match seqClientAllocMeta space reply with
        | none => .again
        | some (rc, space) => if rc ≠ 0 then .failed rc space else seqClientAllocSeq.takeFirst space
      else seqClientAllocSeq.takeFirst space := rfl

theorem seqClientAllocSeq.takeFirst_eq (space : LuSeqRange) :
    seqClientAllocSeq.takeFirst space =
      if space.isExhausted then .lbug
      else .allocated space.lsrStart { space with lsrStart := space.lsrStart + 1 } := rfl

/-- A reply the controller may give: a failure has a nonzero code, and a range is sane. -/
def SeqQueryReply.Sane : SeqQueryReply → Prop
  | .failed rc => rc ≠ 0
  | .range out => out.isSane = true

/-- Everything `seq_client_alloc_seq` can do from a sane `lcs_space` with a
reply the controller may give: send the query again, fail and leave
`lcs_space` used up, or take the first sequence of a sane range that is not
used up, which is `lcs_space` or else the controller's range. -/
theorem seqClientAllocSeq_cases {space : LuSeqRange} {reply : SeqQueryReply}
    (sane : space.isSane = true) (replySane : reply.Sane) :
    seqClientAllocSeq space reply = .again ∨
      (∃ rc space', seqClientAllocSeq space reply = .failed rc space' ∧
        space.isExhausted = true ∧ space'.isExhausted = true ∧ space'.isSane = true) ∨
      (∃ source : LuSeqRange,
        seqClientAllocSeq space reply =
          .allocated source.lsrStart { source with lsrStart := source.lsrStart + 1 } ∧
        source.isSane = true ∧ source.isExhausted = false ∧
        (space.isExhausted = false ∧ source = space ∨
          space.isExhausted = true ∧ reply = .range source)) := by
  cases exhausted : space.isExhausted with
  | false =>
    refine .inr (.inr ⟨space, ?_, sane, exhausted, .inl ⟨rfl, rfl⟩⟩)
    simp [seqClientAllocSeq_eq, seqClientAllocSeq.takeFirst_eq, sane, exhausted]
  | true =>
    cases reply with
    | failed rc =>
      simp only [SeqQueryReply.Sane] at replySane
      by_cases again : rc = -einprogress ∨ rc = -eagain
      · left
        simp [seqClientAllocSeq_eq, seqClientAllocMeta_eq, seqClientRpc_failed, sane, exhausted, again]
      · refine .inr (.inl ⟨rc, space, ?_, rfl, exhausted, sane⟩)
        simp [seqClientAllocSeq_eq, seqClientAllocMeta_eq, seqClientRpc_failed, sane, exhausted, again, replySane]
    | range out =>
      simp only [SeqQueryReply.Sane] at replySane
      cases outExhausted : out.isExhausted with
      | true =>
        refine .inr (.inl ⟨-einval, out, ?_, rfl, outExhausted, replySane⟩)
        simp [seqClientAllocSeq_eq, seqClientAllocMeta_eq, seqClientRpc_range, sane, exhausted, replySane,
          outExhausted, einval, einprogress, eagain]
      | false =>
        refine .inr (.inr ⟨out, ?_, replySane, outExhausted, .inr ⟨rfl, rfl⟩⟩)
        simp [seqClientAllocSeq_eq, seqClientAllocSeq.takeFirst_eq, seqClientAllocMeta_eq, seqClientRpc_range, sane,
          exhausted, replySane, outExhausted, einprogress, eagain]

/-- `seq_fid_alloc_prep` under `lcs_mutex`: `-EAGAIN` when another thread
updates the sequence (this one sleeps on `lcs_waitq`), otherwise `0` with
`lcs_update` raised. -/
def seqFidAllocPrep (seq : LuClientSeq) : Int × LuClientSeq :=
  if seq.lcsUpdate ≠ 0 then (-eagain, seq) else (0, { seq with lcsUpdate := seq.lcsUpdate + 1 })

/-- `seq_fid_alloc_fini`: `none` when `LASSERT(seq->lcs_update == 1)` fails. -/
def seqFidAllocFini (seq : LuClientSeq) : Option LuClientSeq :=
  if seq.lcsUpdate = 1 then some { seq with lcsUpdate := seq.lcsUpdate - 1 } else none

/-- One pass of the loop of `seq_client_alloc_fid` under `lcs_mutex`: the
bumped FID when the last one is below `lcs_width`, otherwise the return
code of `seq_fid_alloc_prep`. -/
def seqClientAllocFidPass (seq : LuClientSeq) : (LuFid ⊕ Int) × LuClientSeq :=
  if !fidIsZero seq.lcsFid && seq.lcsFid.fOid.toUInt64 < seq.lcsWidth then
    let fid := { seq.lcsFid with fOid := seq.lcsFid.fOid + 1 }
    (.inl fid, { seq with lcsFid := fid })
  else
    let prep := seqFidAllocPrep seq
    (.inr prep.1, prep.2)

/-- `seq_client_flush` once no thread updates the sequence.  The
`lsr_index` it sets to -1 is not modelled. -/
def seqClientFlush (seq : LuClientSeq) : LuClientSeq :=
  { seq with lcsFid := LuFid.zero, lcsSpace := LuSeqRange.zero }

/-- `lprocfs_client_fid_width_seq_write` of the `int` value `val`.  The C
test `val <= max && val > 0` converts `val` to `__u64`; a negative `val`
becomes larger than `max` there, so the test is the one on integers. -/
def lprocfsClientFidWidthSeqWrite (seq : LuClientSeq) (val : Int32) : LuClientSeq :=
  if val.toInt ≤ seq.lcsType.maxWidth.toNat ∧ 0 < val.toInt then
    { seq with lcsWidth := val.toInt.toNat.toUInt64 }
  else seq

/-! ## Threads and the steps of a run -/

/-- The two calls that take a new sequence. -/
inductive SeqCall
  /-- `seq_client_alloc_fid` -/
  | allocFid
  /-- `seq_client_get_seq` -/
  | getSeq
  deriving DecidableEq, Repr

/-- What a call stores into `lcs_fid` once it has the sequence `seqnr`:
`seq_client_alloc_fid` starts the sequence at `LUSTRE_FID_INIT_OID`, and
`seq_client_get_seq` marks it used to its width. -/
def SeqCall.newFid : SeqCall → LuCliType → UInt64 → LuFid
  | .allocFid, _, seqnr => ⟨seqnr, lustreFidInitOid, 0⟩
  | .getSeq, type, seqnr => ⟨seqnr, type.maxWidth.toUInt32, 0⟩

@[simp] theorem SeqCall.newFid_fSeq (call : SeqCall) (type : LuCliType) (seqnr : UInt64) :
    (call.newFid type seqnr).fSeq = seqnr := by
  cases call <;> rfl

@[simp] theorem SeqCall.newFid_fVer (call : SeqCall) (type : LuCliType) (seqnr : UInt64) :
    (call.newFid type seqnr).fVer = 0 := by
  cases call <;> rfl

/-- The FID a call stores is never the zero FID. -/
theorem SeqCall.fidIsZero_newFid (call : SeqCall) (type : LuCliType) (seqnr : UInt64) :
    fidIsZero (call.newFid type seqnr) = false := by
  cases call <;> cases type <;> simp [fidIsZero, SeqCall.newFid, lustreFidInitOid, LuCliType.maxWidth,
    lustreMetadataSeqMaxWidth, lustreDataSeqMaxWidth]

/-- Where a thread is. -/
inductive LcsThread
  | idle
  /-- asleep on `lcs_waitq` in `seq_fid_alloc_prep`, to go round the call's loop again -/
  | waiting (call : SeqCall)
  /-- `lcs_update` raised and `lcs_mutex` dropped, in `seq_client_alloc_seq` -/
  | allocating (call : SeqCall)
  /-- `seq_client_alloc_seq` has returned `result` and the stores into
  `lcs_fid` are made; `seq_fid_alloc_fini` is next -/
  | finishing (call : SeqCall) (result : Except Int UInt64)
  deriving DecidableEq

/-- A thread that holds `lcs_update`. -/
def LcsThread.busy : LcsThread → Bool
  | .allocating _ | .finishing _ _ => true
  | .idle | .waiting _ => false

@[simp] theorem LcsThread.busy_idle : LcsThread.idle.busy = false := rfl

@[simp] theorem LcsThread.busy_waiting (call : SeqCall) : (LcsThread.waiting call).busy = false :=
  rfl

@[simp] theorem LcsThread.busy_allocating (call : SeqCall) :
    (LcsThread.allocating call).busy = true := rfl

@[simp] theorem LcsThread.busy_finishing (call : SeqCall) (result : Except Int UInt64) :
    (LcsThread.finishing call result).busy = true := rfl

/-- The client sequence, its threads, and what has been handed out. -/
structure LcsSystem (ι : Type) where
  seq : LuClientSeq
  threads : ι → LcsThread
  /-- every FID `seq_client_alloc_fid` has returned with `rc >= 0`, the last first -/
  issued : List LuFid
  /-- every sequence `seq_client_get_seq` has returned -/
  taken : List UInt64
  /-- every range the controller has replied -/
  granted : List LuSeqRange

/-- The client after `seq_client_init`, with every thread idle. -/
def lcsStart {ι : Type} (type : LuCliType) : LcsSystem ι :=
  ⟨seqClientInit type, fun _ => .idle, [], [], []⟩

/-- The range a reply carries, if any. -/
def SeqQueryReply.sent : SeqQueryReply → List LuSeqRange
  | .failed _ => []
  | .range out => [out]

/-- The sections of the calls, with the choices of the environment. -/
inductive LcsEvent (ι : Type)
  /-- a thread calls `seq_client_alloc_fid`; `OBD_FAIL_CHECK(OBD_FAIL_SEQ_EXHAUST)` fires when `failExhaust` -/
  | allocFid (thread : ι) (failExhaust : Bool)
  /-- a thread calls `seq_client_get_seq` -/
  | getSeq (thread : ι)
  /-- a sleeping thread takes `lcs_mutex` again and goes round its loop -/
  | retry (thread : ι)
  /-- `seq_client_alloc_seq` of the thread that holds `lcs_update`, with the controller's reply -/
  | allocSeq (thread : ι) (reply : SeqQueryReply)
  /-- `seq_fid_alloc_fini` and the rest of the call under `lcs_mutex` -/
  | fini (thread : ι)
  /-- `seq_client_flush` -/
  | flush
  /-- `lprocfs_client_fid_width_seq_write` of the parsed value -/
  | widthWrite (val : Int32)

namespace LcsSystem

variable {ι : Type} [DecidableEq ι]

/-- After `seq_fid_alloc_prep` returned `rc`: the thread sleeps (`-EAGAIN`)
or goes on to `seq_client_alloc_seq`. -/
def prepared (sys : LcsSystem ι) (thread : ι) (call : SeqCall) (rc : Int) (seq : LuClientSeq) :
    LcsSystem ι :=
  { sys with
    seq := seq
    threads := Function.update sys.threads thread (if rc = 0 then .allocating call else .waiting call) }

/-- One pass of a thread's loop under `lcs_mutex`. -/
def pass (sys : LcsSystem ι) (thread : ι) : SeqCall → LuClientSeq → LcsSystem ι
  | .allocFid, seq =>
    match seqClientAllocFidPass seq with
    | (.inl fid, seq) =>
      { sys with seq := seq, threads := Function.update sys.threads thread .idle, issued := fid :: sys.issued }
    | (.inr rc, seq) => sys.prepared thread .allocFid rc seq
  | .getSeq, seq => sys.prepared thread .getSeq (seqFidAllocPrep seq).1 (seqFidAllocPrep seq).2

/-- `seq_client_alloc_seq` of the thread that holds `lcs_update`, and the
stores of its call into `lcs_fid`. -/
def allocSeq (sys : LcsSystem ι) (thread : ι) (call : SeqCall) (reply : SeqQueryReply) :
    Option (LcsSystem ι) :=
  let granted := if sys.seq.lcsSpace.isExhausted then reply.sent ++ sys.granted else sys.granted
  match seqClientAllocSeq sys.seq.lcsSpace reply with
  | .lbug => none
  | .again => some sys
  | .failed rc space =>
    some { sys with
      seq := { sys.seq with lcsSpace := space }
      threads := Function.update sys.threads thread (.finishing call (.error rc))
      granted := granted }
  | .allocated seqnr space =>
    some { sys with
      seq := { sys.seq with lcsSpace := space, lcsFid := call.newFid sys.seq.lcsType seqnr }
      threads := Function.update sys.threads thread (.finishing call (.ok seqnr))
      granted := granted }

/-- `seq_fid_alloc_fini` and the end of the call: `seq_client_alloc_fid`
returns `lcs_fid` as it is now, `seq_client_get_seq` its sequence. -/
def fini (sys : LcsSystem ι) (thread : ι) (call : SeqCall) (result : Except Int UInt64) :
    Option (LcsSystem ι) :=
  (seqFidAllocFini sys.seq).map fun seq =>
    let done := { sys with seq := seq, threads := Function.update sys.threads thread .idle }
    match call, result with
    | .allocFid, .ok _ => { done with issued := seq.lcsFid :: sys.issued }
    | .getSeq, .ok seqnr => { done with taken := seqnr :: sys.taken }
    | _, .error _ => done

end LcsSystem

variable {ι : Type}

section Steps

variable [DecidableEq ι]

/-- One step; `none` is a failed `LASSERT`, and stays.  An event of a thread
that is elsewhere changes nothing. -/
def LcsEvent.apply : Option (LcsSystem ι) → LcsEvent ι → Option (LcsSystem ι)
  | none, _ => none
  | some sys, .allocFid thread failExhaust =>
    match sys.threads thread with
    | .idle =>
      let seq := if failExhaust then
        { sys.seq with lcsFid := { sys.seq.lcsFid with fOid := sys.seq.lcsWidth.toUInt32 } }
        else sys.seq
      some (sys.pass thread .allocFid seq)
    | _ => some sys
  | some sys, .getSeq thread =>
    match sys.threads thread with
    | .idle => some (sys.pass thread .getSeq sys.seq)
    | _ => some sys
  | some sys, .retry thread =>
    match sys.threads thread with
    | .waiting call => some (sys.pass thread call sys.seq)
    | _ => some sys
  | some sys, .allocSeq thread reply =>
    match sys.threads thread with
    | .allocating call => sys.allocSeq thread call reply
    | _ => some sys
  | some sys, .fini thread =>
    match sys.threads thread with
    | .finishing call result => sys.fini thread call result
    | _ => some sys
  | some sys, .flush =>
    -- `seq_client_flush` sleeps while `lcs_update` is raised
    some (if sys.seq.lcsUpdate ≠ 0 then sys else { sys with seq := seqClientFlush sys.seq })
  | some sys, .widthWrite val => some { sys with seq := lprocfsClientFidWidthSeqWrite sys.seq val }

theorem LcsEvent.apply_allocFid (sys : LcsSystem ι) (thread : ι) (failExhaust : Bool) :
    LcsEvent.apply (some sys) (.allocFid thread failExhaust) =
      match sys.threads thread with
      | .idle =>
        let seq := if failExhaust then
          { sys.seq with lcsFid := { sys.seq.lcsFid with fOid := sys.seq.lcsWidth.toUInt32 } }
          else sys.seq
        some (sys.pass thread .allocFid seq)
      | _ => some sys := rfl

theorem LcsEvent.apply_getSeq (sys : LcsSystem ι) (thread : ι) :
    LcsEvent.apply (some sys) (.getSeq thread) =
      match sys.threads thread with
      | .idle => some (sys.pass thread .getSeq sys.seq)
      | _ => some sys := rfl

theorem LcsEvent.apply_retry (sys : LcsSystem ι) (thread : ι) :
    LcsEvent.apply (some sys) (.retry thread) =
      match sys.threads thread with
      | .waiting call => some (sys.pass thread call sys.seq)
      | _ => some sys := rfl

theorem LcsEvent.apply_allocSeq (sys : LcsSystem ι) (thread : ι) (reply : SeqQueryReply) :
    LcsEvent.apply (some sys) (.allocSeq thread reply) =
      match sys.threads thread with
      | .allocating call => sys.allocSeq thread call reply
      | _ => some sys := rfl

theorem LcsEvent.apply_fini (sys : LcsSystem ι) (thread : ι) :
    LcsEvent.apply (some sys) (.fini thread) =
      match sys.threads thread with
      | .finishing call result => sys.fini thread call result
      | _ => some sys := rfl

theorem LcsEvent.apply_flush (sys : LcsSystem ι) :
    LcsEvent.apply (some sys) .flush =
      some (if sys.seq.lcsUpdate ≠ 0 then sys else { sys with seq := seqClientFlush sys.seq }) := rfl

end Steps

/-! ## What holds over every run -/

/-- The width of a whole sequence fits `f_oid`. -/
theorem LuCliType.toNat_maxWidth_toUInt32 (type : LuCliType) :
    type.maxWidth.toUInt32.toNat = type.maxWidth.toNat := by
  cases type <;> rfl

theorem LuCliType.maxWidth_bounds (type : LuCliType) :
    1 ≤ type.maxWidth.toNat ∧ type.maxWidth.toNat < 2 ^ 32 := by
  cases type <;> decide

/-- `lprocfs_client_fid_width_seq_write` changes `lcs_width` only, and keeps
it within the type's bounds. -/
theorem lprocfsClientFidWidthSeqWrite_bounds {seq : LuClientSeq} (val : Int32)
    (positive : 0 < seq.lcsWidth.toNat) (le : seq.lcsWidth.toNat ≤ seq.lcsType.maxWidth.toNat) :
    lprocfsClientFidWidthSeqWrite seq val =
        { seq with lcsWidth := (lprocfsClientFidWidthSeqWrite seq val).lcsWidth } ∧
      0 < (lprocfsClientFidWidthSeqWrite seq val).lcsWidth.toNat ∧
      (lprocfsClientFidWidthSeqWrite seq val).lcsWidth.toNat ≤ seq.lcsType.maxWidth.toNat := by
  unfold lprocfsClientFidWidthSeqWrite
  split
  · rename_i within
    have fits := (seq.lcsType.maxWidth_bounds).2
    have small : val.toInt.toNat < 2 ^ 64 := by omega
    refine ⟨rfl, ?_, ?_⟩ <;> simp only [Nat.toUInt64_eq, UInt64.toNat_ofNat', Nat.mod_eq_of_lt small] <;> omega
  · exact ⟨rfl, positive, le⟩

namespace LcsSystem

/-- A sequence inside a range the controller has replied. -/
def Granted (sys : LcsSystem ι) (seq : UInt64) : Prop :=
  ∃ range ∈ sys.granted, range.within seq = true

/-- A sequence that has left `lcs_space` for good: the controller granted it,
and `lcs_space` no longer holds it. -/
def Spent (sys : LcsSystem ι) (seq : UInt64) : Prop :=
  sys.Granted seq ∧ sys.seq.lcsSpace.within seq = false

/-- No thread is between the stores of a new sequence in
`seq_client_alloc_fid` and its `seq_fid_alloc_fini`. -/
def NoNewFid (sys : LcsSystem ι) : Prop :=
  ∀ thread seqnr, sys.threads thread ≠ .finishing .allocFid (.ok seqnr)

/-- `lcs_update` is raised exactly while one thread holds it. -/
structure Holding (sys : LcsSystem ι) : Prop where
  oneHolder : ∀ thread other, (sys.threads thread).busy → (sys.threads other).busy → thread = other
  update : (sys.seq.lcsUpdate = 1 ∧ ∃ thread, (sys.threads thread).busy) ∨
    (sys.seq.lcsUpdate = 0 ∧ ∀ thread, (sys.threads thread).busy = false)

/-- What the client has handed out, and where each sequence it knows of is. -/
structure Accounted (sys : LcsSystem ι) : Prop where
  sane : sys.seq.lcsSpace.isSane = true
  widthPositive : 0 < sys.seq.lcsWidth.toNat
  widthLe : sys.seq.lcsWidth.toNat ≤ sys.seq.lcsType.maxWidth.toNat
  spaceGranted : ∀ seq, sys.seq.lcsSpace.within seq = true → sys.Granted seq
  /-- every FID handed out is of a spent sequence that no `seq_client_get_seq` returned -/
  issued : ∀ fid ∈ sys.issued, sys.Spent fid.fSeq ∧ fid.fVer = 0 ∧ lustreFidInitOid ≤ fid.fOid ∧
    fid.fOid.toNat ≤ sys.seq.lcsType.maxWidth.toNat ∧ fid.fSeq ∉ sys.taken
  taken : ∀ seqnr ∈ sys.taken, sys.Spent seqnr
  issuedNodup : sys.issued.Nodup
  takenNodup : sys.taken.Nodup
  /-- the last FID is of a spent sequence, at or above every FID of it handed out -/
  current : fidIsZero sys.seq.lcsFid = false → sys.Spent sys.seq.lcsFid.fSeq ∧ sys.seq.lcsFid.fVer = 0 ∧
    ∀ fid ∈ sys.issued, fid.fSeq = sys.seq.lcsFid.fSeq → fid.fOid ≤ sys.seq.lcsFid.fOid
  /-- a sequence `seq_client_get_seq` returned stays marked used up -/
  whole : fidIsZero sys.seq.lcsFid = false → sys.seq.lcsFid.fSeq ∈ sys.taken →
    sys.seq.lcsFid.fOid.toNat = sys.seq.lcsType.maxWidth.toNat
  /-- a call past its stores has its new sequence, fresh, in `lcs_fid` -/
  finishing : ∀ thread call seqnr, sys.threads thread = .finishing call (.ok seqnr) →
    sys.seq.lcsFid = call.newFid sys.seq.lcsType seqnr ∧ seqnr ∉ sys.taken ∧
      ∀ fid ∈ sys.issued, fid.fSeq ≠ seqnr

/-- The invariant of the client sequence. -/
structure Inv (sys : LcsSystem ι) : Prop where
  holding : sys.Holding
  accounted : sys.Accounted

/-! ### `lcs_update` -/

theorem Holding.update_eq_one {sys : LcsSystem ι} (holding : sys.Holding) {thread : ι}
    (busy : (sys.threads thread).busy = true) : sys.seq.lcsUpdate = 1 := by
  rcases holding.update with ⟨one, -⟩ | ⟨-, none⟩
  · exact one
  · simp [none thread] at busy

theorem Holding.not_busy {sys : LcsSystem ι} (holding : sys.Holding) (lowered : sys.seq.lcsUpdate = 0)
    (thread : ι) : (sys.threads thread).busy = false := by
  rcases holding.update with ⟨one, -⟩ | ⟨-, none⟩
  · omega
  · exact none thread

/-- Only the holder of `lcs_update` can be past its stores. -/
theorem Holding.not_finishing {sys : LcsSystem ι} (holding : sys.Holding) {thread other : ι}
    (busy : (sys.threads thread).busy = true) (distinct : other ≠ thread) {call : SeqCall}
    {result : Except Int UInt64} : sys.threads other ≠ .finishing call result := by
  intro finishing
  exact distinct (holding.oneHolder other thread (by simp [finishing]) busy)

/-! ### The data the client keeps -/

/-- `Accounted` reads `lcs_space`, `lcs_fid`, `lcs_type`, `lcs_width`, what
has been handed out and the threads past their stores. -/
theorem Accounted.frame {sys sys' : LcsSystem ι} (accounted : sys.Accounted)
    (space : sys'.seq.lcsSpace = sys.seq.lcsSpace) (fid : sys'.seq.lcsFid = sys.seq.lcsFid)
    (type : sys'.seq.lcsType = sys.seq.lcsType) (width : sys'.seq.lcsWidth = sys.seq.lcsWidth)
    (issued : sys'.issued = sys.issued) (taken : sys'.taken = sys.taken)
    (granted : sys'.granted = sys.granted)
    (finishing : ∀ thread call seqnr, sys'.threads thread = .finishing call (.ok seqnr) →
      sys.threads thread = .finishing call (.ok seqnr)) :
    sys'.Accounted := by
  have spent : ∀ seq, sys'.Spent seq ↔ sys.Spent seq := by
    simp [Spent, Granted, granted, space]
  have grantedIff : ∀ seq, sys'.Granted seq ↔ sys.Granted seq := by
    simp [Granted, granted]
  obtain ⟨sane, widthPositive, widthLe, spaceGranted, issuedSpent, takenSpent, issuedNodup, takenNodup,
    current, whole, finishingFid⟩ := accounted
  refine ⟨?_, ?_, ?_, ?_, ?_, ?_, ?_, ?_, ?_, ?_, ?_⟩
  · rwa [space]
  · rwa [width]
  · rwa [width, type]
  · simpa only [space, grantedIff] using spaceGranted
  · simpa only [issued, spent, type, taken] using issuedSpent
  · simpa only [taken, spent] using takenSpent
  · rwa [issued]
  · rwa [taken]
  · simpa only [fid, spent, issued] using current
  · simpa only [fid, taken, type] using whole
  · intro thread call seqnr atStores
    simpa only [fid, type, taken, issued] using finishingFid thread call seqnr (finishing thread call seqnr atStores)

/-- A sequence the controller granted stays granted as it replies more. -/
theorem Granted.mono {sys sys' : LcsSystem ι} (more : ∀ range ∈ sys.granted, range ∈ sys'.granted)
    {seq : UInt64} (granted : sys.Granted seq) : sys'.Granted seq := by
  obtain ⟨range, mem, within⟩ := granted
  exact ⟨range, more range mem, within⟩

/-- `seq_client_flush` once no thread holds `lcs_update`. -/
theorem Inv.flushStep {sys : LcsSystem ι} (inv : sys.Inv) (lowered : sys.seq.lcsUpdate = 0) :
    ({ sys with seq := seqClientFlush sys.seq } : LcsSystem ι).Inv := by
  have spent : ∀ seq, sys.Spent seq → Spent ({ sys with seq := seqClientFlush sys.seq } : LcsSystem ι) seq :=
    fun seq wasSpent => ⟨wasSpent.1, LuSeqRange.within_zero seq⟩
  obtain ⟨-, widthPositive, widthLe, -, issued, taken, issuedNodup, takenNodup, -, -, -⟩ := inv.accounted
  refine ⟨⟨inv.holding.oneHolder, inv.holding.update⟩, rfl, widthPositive, widthLe, fun seq within => ?_,
    fun fid mem => ?_,
    fun seqnr mem => spent _ (taken seqnr mem), issuedNodup, takenNodup, fun nonzero => ?_,
    fun nonzero => ?_, fun thread call seqnr atStores => ?_⟩
  · simp [seqClientFlush] at within
  · obtain ⟨fidSpent, others⟩ := issued fid mem
    exact ⟨spent _ fidSpent, others⟩
  · simp [seqClientFlush, fidIsZero, LuFid.zero] at nonzero
  · simp [seqClientFlush, fidIsZero, LuFid.zero] at nonzero
  · -- no thread holds `lcs_update`, so none is past its stores
    have idle := inv.holding.not_busy lowered thread
    rw [show sys.threads thread = _ from atStores] at idle
    simp at idle

/-- `lprocfs_client_fid_width_seq_write`. -/
theorem Inv.widthStep {sys : LcsSystem ι} (inv : sys.Inv) (val : Int32) :
    ({ sys with seq := lprocfsClientFidWidthSeqWrite sys.seq val } : LcsSystem ι).Inv := by
  obtain ⟨written, positive, le⟩ :=
    lprocfsClientFidWidthSeqWrite_bounds val inv.accounted.widthPositive inv.accounted.widthLe
  rw [written]
  obtain ⟨sane, -, -, spaceGranted, issued, taken, issuedNodup, takenNodup, current, whole,
    finishing⟩ := inv.accounted
  exact ⟨⟨inv.holding.oneHolder, inv.holding.update⟩, sane, positive, le, spaceGranted, issued, taken, issuedNodup, takenNodup, current, whole,
    finishing⟩

variable [DecidableEq ι]

/-- A thread moves to a place that holds `lcs_update` as much as the old one. -/
theorem Holding.move {sys sys' : LcsSystem ι} (holding : sys.Holding) {thread : ι} {place : LcsThread}
    (threads : sys'.threads = Function.update sys.threads thread place)
    (busySame : place.busy = (sys.threads thread).busy) (update : sys'.seq.lcsUpdate = sys.seq.lcsUpdate) :
    sys'.Holding := by
  have same : ∀ other, (sys'.threads other).busy = (sys.threads other).busy := by
    intro other
    rw [threads, Function.update_apply]
    split
    · next equal => rw [equal, busySame]
    · rfl
  obtain ⟨oneHolder, lcsUpdate⟩ := holding
  refine ⟨fun t u => by simpa only [same] using oneHolder t u, ?_⟩
  simpa only [update, same] using lcsUpdate

/-- A thread raises `lcs_update` while no thread holds it. -/
theorem Holding.take {sys sys' : LcsSystem ι} (holding : sys.Holding) {thread : ι} {place : LcsThread}
    (lowered : sys.seq.lcsUpdate = 0) (threads : sys'.threads = Function.update sys.threads thread place)
    (busy : place.busy = true) (raised : sys'.seq.lcsUpdate = 1) : sys'.Holding := by
  have others : ∀ other, other ≠ thread → (sys'.threads other).busy = false := by
    intro other distinct
    rw [threads, Function.update_of_ne distinct]
    exact holding.not_busy lowered other
  refine ⟨fun t u busyT busyU => ?_, .inl ⟨raised, thread, by simp [threads, busy]⟩⟩
  by_contra distinct
  by_cases equal : t = thread
  · exact absurd busyU (by rw [others u (by rw [← equal]; exact Ne.symm distinct)]; simp)
  · exact absurd busyT (by rw [others t equal]; simp)

/-- The holder lowers `lcs_update` and goes idle. -/
theorem Holding.release {sys sys' : LcsSystem ι} (holding : sys.Holding) {thread : ι}
    (busy : (sys.threads thread).busy = true) (threads : sys'.threads = Function.update sys.threads thread .idle)
    (lowered : sys'.seq.lcsUpdate = 0) : sys'.Holding := by
  have none : ∀ other, (sys'.threads other).busy = false := by
    intro other
    rw [threads, Function.update_apply]
    split
    · rfl
    · next distinct =>
      cases otherBusy : (sys.threads other).busy
      · rfl
      · exact absurd (holding.oneHolder other thread otherBusy busy) distinct
  exact ⟨fun t _ busyT => by simp [none t] at busyT, .inr ⟨lowered, none⟩⟩

/-- A thread that takes a place other than past its stores leaves the
threads past their stores as they were. -/
theorem finishing_of_update {threads : ι → LcsThread} {thread : ι} {place : LcsThread}
    (notFinishing : ∀ call seqnr, place ≠ .finishing call (.ok seqnr)) :
    ∀ other call seqnr, Function.update threads thread place other = .finishing call (.ok seqnr) →
      threads other = .finishing call (.ok seqnr) := by
  intro other call seqnr atStores
  rw [Function.update_apply] at atStores
  split at atStores
  · exact absurd atStores (notFinishing call seqnr)
  · exact atStores

/-! ### One step at a time -/

/-- A pass that ends in `seq_fid_alloc_prep`: the thread sleeps, or raises `lcs_update`. -/
theorem Inv.prepared {sys : LcsSystem ι} (inv : sys.Inv) {thread : ι}
    (notBusy : (sys.threads thread).busy = false) (call : SeqCall) :
    (sys.prepared thread call (seqFidAllocPrep sys.seq).1 (seqFidAllocPrep sys.seq).2).Inv := by
  unfold seqFidAllocPrep
  split
  · next raised =>
    have eagain : (-eagain : Int) ≠ 0 := by decide
    refine ⟨inv.holding.move rfl ?_ rfl, inv.accounted.frame rfl rfl rfl rfl rfl rfl rfl ?_⟩
    · rw [notBusy]
      simp [eagain]
    · exact finishing_of_update (by simp [eagain])
  · next lowered =>
    have raised : sys.seq.lcsUpdate + 1 = 1 := by simpa using lowered
    refine ⟨inv.holding.take (by simpa using lowered) rfl (by simp) raised,
      inv.accounted.frame rfl rfl rfl rfl rfl rfl rfl ?_⟩
    exact finishing_of_update (by simp)

/-- The fast path of `seq_client_alloc_fid`: the last FID, below
`lcs_width`, is bumped and handed out. -/
theorem Inv.bump {sys : LcsSystem ι} (inv : sys.Inv) (noNewFid : sys.NoNewFid) {thread : ι}
    (notBusy : (sys.threads thread).busy = false) (nonzero : fidIsZero sys.seq.lcsFid = false)
    (below : sys.seq.lcsFid.fOid.toUInt64 < sys.seq.lcsWidth) :
    ({ sys with
      seq := { sys.seq with lcsFid := { sys.seq.lcsFid with fOid := sys.seq.lcsFid.fOid + 1 } }
      threads := Function.update sys.threads thread .idle
      issued := { sys.seq.lcsFid with fOid := sys.seq.lcsFid.fOid + 1 } :: sys.issued } : LcsSystem ι).Inv := by
  obtain ⟨spent, ver, above⟩ := inv.accounted.current nonzero
  have belowWidth : sys.seq.lcsFid.fOid.toNat < sys.seq.lcsWidth.toNat := by
    simpa [UInt64.lt_iff_toNat_lt] using below
  have widthLe := inv.accounted.widthLe
  have maxFits := sys.seq.lcsType.maxWidth_bounds
  have bumped : (sys.seq.lcsFid.fOid + 1).toNat = sys.seq.lcsFid.fOid.toNat + 1 := by
    rw [UInt32.toNat_add, UInt32.toNat_one]
    omega
  -- a sequence `seq_client_get_seq` returned is marked used up, so it is not bumped
  have notTaken : sys.seq.lcsFid.fSeq ∉ sys.taken := fun taken => by
    have := inv.accounted.whole nonzero taken
    omega
  have fresh : { sys.seq.lcsFid with fOid := sys.seq.lcsFid.fOid + 1 } ∉ sys.issued := fun mem => by
    have atMost := above _ mem rfl
    rw [UInt32.le_iff_toNat_le, bumped] at atMost
    omega
  refine ⟨inv.holding.move rfl (by rw [notBusy]; rfl) rfl, ?_⟩
  obtain ⟨sane, widthPositive, widthLe, spaceGranted, issued, taken, issuedNodup, takenNodup, -, -,
    finishing⟩ := inv.accounted
  refine ⟨sane, widthPositive, widthLe, spaceGranted, ?_, taken, List.nodup_cons.2 ⟨fresh, issuedNodup⟩,
    takenNodup, fun _ => ⟨spent, ver, ?_⟩, fun _ taken => absurd taken notTaken, ?_⟩
  · intro fid mem
    rcases List.mem_cons.1 mem with rfl | old
    · refine ⟨spent, ver, ?_, ?_, notTaken⟩
      · rw [UInt32.le_iff_toNat_le, bumped]
        exact Nat.le_add_left 1 _
      · simp only [bumped]
        omega
    · exact issued fid old
  · intro fid mem sameSeq
    rcases List.mem_cons.1 mem with rfl | old
    · rw [UInt32.le_iff_toNat_le]
    · have atMost := above fid old sameSeq
      rw [UInt32.le_iff_toNat_le] at atMost ⊢
      simp only [bumped]
      omega
  · -- only the holder of `lcs_update` is past its stores, and the holder is not of `seq_client_alloc_fid`
    intro other call seqnr atStores
    have before := finishing_of_update (by simp) other call seqnr atStores
    exfalso
    cases call with
    | allocFid => exact noNewFid other seqnr before
    | getSeq =>
      have marked := congrArg (fun fid : LuFid => fid.fOid.toNat) (finishing other .getSeq seqnr before).1
      simp only [SeqCall.newFid, LuCliType.toNat_maxWidth_toUInt32] at marked
      omega

/-- One pass of the loop of a thread that does not hold `lcs_update`. -/
theorem Inv.onePass {sys : LcsSystem ι} (inv : sys.Inv) (thread : ι)
    (notBusy : (sys.threads thread).busy = false) (call : SeqCall)
    (noNewFid : call = .allocFid → sys.NoNewFid) : (sys.pass thread call sys.seq).Inv := by
  cases call with
  | getSeq => exact inv.prepared notBusy .getSeq
  | allocFid =>
    by_cases fast : fidIsZero sys.seq.lcsFid = false ∧ sys.seq.lcsFid.fOid.toUInt64 < sys.seq.lcsWidth
    · have bumped : seqClientAllocFidPass sys.seq =
          (.inl { sys.seq.lcsFid with fOid := sys.seq.lcsFid.fOid + 1 },
            { sys.seq with lcsFid := { sys.seq.lcsFid with fOid := sys.seq.lcsFid.fOid + 1 } }) := by
        simp [seqClientAllocFidPass, fast.1, fast.2]
      simp only [LcsSystem.pass, bumped]
      exact inv.bump (noNewFid rfl) notBusy fast.1 fast.2
    · have prepared : seqClientAllocFidPass sys.seq =
          (.inr (seqFidAllocPrep sys.seq).1, (seqFidAllocPrep sys.seq).2) := by
        have slow : (!fidIsZero sys.seq.lcsFid && decide (sys.seq.lcsFid.fOid.toUInt64 < sys.seq.lcsWidth)) =
            false := by
          simpa using fast
        simp [seqClientAllocFidPass, slow]
      simp only [LcsSystem.pass, prepared]
      exact inv.prepared notBusy .allocFid

/-- A failed `seq_client_alloc_seq`: `lcs_space` is left used up. -/
theorem Inv.allocFailed {sys : LcsSystem ι} (inv : sys.Inv) {thread : ι} {call : SeqCall}
    (allocating : sys.threads thread = .allocating call) (rc : Int) {space : LuSeqRange}
    (exhausted : space.isExhausted = true) (sane : space.isSane = true) (extra : List LuSeqRange) :
    ({ sys with
      seq := { sys.seq with lcsSpace := space }
      threads := Function.update sys.threads thread (.finishing call (.error rc))
      granted := extra ++ sys.granted } : LcsSystem ι).Inv := by
  refine ⟨inv.holding.move rfl (by simp [allocating]) rfl, ?_⟩
  have spent : ∀ seq, sys.Spent seq → Spent { sys with
      seq := { sys.seq with lcsSpace := space }
      threads := Function.update sys.threads thread (.finishing call (.error rc))
      granted := extra ++ sys.granted } seq := fun seq spent =>
    ⟨spent.1.mono (fun range mem => List.mem_append_right extra mem),
      LuSeqRange.within_of_isExhausted exhausted seq⟩
  obtain ⟨-, widthPositive, widthLe, -, issued, taken, issuedNodup, takenNodup, current, whole,
    finishing⟩ := inv.accounted
  refine ⟨sane, widthPositive, widthLe, ?_, fun fid mem => ?_, fun seqnr mem => spent _ (taken seqnr mem),
    issuedNodup, takenNodup, fun nonzero => ?_, whole, ?_⟩
  · intro seq within
    simp [LuSeqRange.within_of_isExhausted exhausted seq] at within
  · obtain ⟨fidSpent, rest⟩ := issued fid mem
    exact ⟨spent _ fidSpent, rest⟩
  · obtain ⟨fidSpent, rest⟩ := current nonzero
    exact ⟨spent _ fidSpent, rest⟩
  · intro other otherCall seqnr atStores
    exact finishing other otherCall seqnr (finishing_of_update (by simp) other otherCall seqnr atStores)

/-- `seq_client_alloc_seq` takes the first sequence of `source`, which is
`lcs_space` or the controller's new range, and the call stores it into
`lcs_fid`.  No sequence spent before lies in `source`. -/
theorem Inv.allocTaken {sys : LcsSystem ι} (inv : sys.Inv) {thread : ι} {call : SeqCall}
    (allocating : sys.threads thread = .allocating call) {source : LuSeqRange}
    (sane : source.isSane = true) (notExhausted : source.isExhausted = false) (extra : List LuSeqRange)
    (fresh : ∀ seq, sys.Spent seq → source.within seq = false)
    (granted : ∀ seq, source.within seq = true → ∃ range ∈ extra ++ sys.granted, range.within seq = true) :
    ({ sys with
      seq := { sys.seq with
        lcsSpace := { source with lsrStart := source.lsrStart + 1 }
        lcsFid := call.newFid sys.seq.lcsType source.lsrStart }
      threads := Function.update sys.threads thread (.finishing call (.ok source.lsrStart))
      granted := extra ++ sys.granted } : LcsSystem ι).Inv := by
  have rest := LuSeqRange.within_takeFirst sane notExhausted
  have startWithin := LuSeqRange.start_within sane notExhausted
  -- what was spent stays spent, and the sequence taken is spent now and was not before
  have spent : ∀ seq, sys.Spent seq → Spent { sys with
      seq := { sys.seq with
        lcsSpace := { source with lsrStart := source.lsrStart + 1 }
        lcsFid := call.newFid sys.seq.lcsType source.lsrStart }
      threads := Function.update sys.threads thread (.finishing call (.ok source.lsrStart))
      granted := extra ++ sys.granted } seq := by
    intro seq wasSpent
    refine ⟨wasSpent.1.mono (fun range mem => List.mem_append_right extra mem), ?_⟩
    refine Bool.eq_false_iff.2 fun within => ?_
    have inSource := ((rest seq).1 within).1
    rw [fresh seq wasSpent] at inSource
    cases inSource
  have startNew : ∀ seq, sys.Spent seq → seq ≠ source.lsrStart := by
    intro seq wasSpent equal
    have outside := fresh seq wasSpent
    rw [equal, startWithin] at outside
    cases outside
  have notTaken : source.lsrStart ∉ sys.taken := fun mem => startNew _ (inv.accounted.taken _ mem) rfl
  have noneIssued : ∀ fid ∈ sys.issued, fid.fSeq ≠ source.lsrStart :=
    fun fid mem => startNew _ (inv.accounted.issued fid mem).1
  refine ⟨inv.holding.move rfl (by simp [allocating]) rfl, ?_⟩
  obtain ⟨-, widthPositive, widthLe, -, issued, taken, issuedNodup, takenNodup, -, -, -⟩ := inv.accounted
  refine ⟨LuSeqRange.isSane_takeFirst sane notExhausted, widthPositive, widthLe,
    fun seq within => granted seq ((rest seq).1 within).1, fun fid mem => ?_,
    fun seqnr mem => spent _ (taken seqnr mem), issuedNodup, takenNodup, fun _ => ?_,
    fun _ mem => absurd (by simpa using mem) notTaken, ?_⟩
  · obtain ⟨fidSpent, others⟩ := issued fid mem
    exact ⟨spent _ fidSpent, others⟩
  · refine ⟨⟨granted _ (by simpa using startWithin), ?_⟩, by simp,
      fun fid mem sameSeq => absurd (by simpa using sameSeq) (noneIssued fid mem)⟩
    refine Bool.eq_false_iff.2 fun within => ?_
    exact ((rest _).1 (by simpa using within)).2 rfl
  · intro other otherCall seqnr atStores
    by_cases same : other = thread
    · subst same
      simp only [Function.update_self, LcsThread.finishing.injEq, Except.ok.injEq] at atStores
      obtain ⟨rfl, rfl⟩ := atStores
      exact ⟨rfl, notTaken, noneIssued⟩
    · dsimp only at atStores
      rw [Function.update_of_ne same] at atStores
      exact absurd atStores (inv.holding.not_finishing (by simp [allocating]) same)

/-- `seq_client_alloc_seq` of the holder of `lcs_update`, with a reply the
controller may give: no `LASSERT` fails, and the invariant holds after. -/
theorem Inv.allocSeqStep {sys : LcsSystem ι} (inv : sys.Inv) {thread : ι} {call : SeqCall}
    (allocating : sys.threads thread = .allocating call) {reply : SeqQueryReply} (replySane : reply.Sane)
    (disjoint : ∀ out ∈ reply.sent, ∀ seq, out.within seq = true → ¬ sys.Granted seq) :
    ∃ sys', sys.allocSeq thread call reply = some sys' ∧ sys'.Inv := by
  rcases seqClientAllocSeq_cases inv.accounted.sane replySane with
    again | ⟨rc, space, failed, exhausted, spaceExhausted, spaceSane⟩ |
      ⟨source, allocated, sane, notExhausted, fromSpace | fromReply⟩
  · exact ⟨sys, by simp [LcsSystem.allocSeq, again], inv⟩
  · exact ⟨_, by simp [LcsSystem.allocSeq, failed, exhausted],
      inv.allocFailed allocating rc spaceExhausted spaceSane reply.sent⟩
  · -- the next sequence of `lcs_space`
    obtain ⟨spaceLeft, rfl⟩ := fromSpace
    refine ⟨_, ?_, inv.allocTaken allocating sane notExhausted [] (fun seq spent => spent.2)
      (fun seq within => inv.accounted.spaceGranted seq within)⟩
    simp [LcsSystem.allocSeq, allocated, spaceLeft]
  · -- the first sequence of the controller's new range
    obtain ⟨exhausted, rfl⟩ := fromReply
    refine ⟨_, ?_, inv.allocTaken allocating sane notExhausted [source] (fun seq spent => ?_)
      (fun seq within => ⟨source, by simp, within⟩)⟩
    · simp [LcsSystem.allocSeq, allocated, exhausted, SeqQueryReply.sent]
    · refine Bool.eq_false_iff.2 fun within => ?_
      exact disjoint source (by simp [SeqQueryReply.sent]) seq within spent.1

/-- `seq_fid_alloc_fini` of the holder of `lcs_update` and the end of its
call: no `LASSERT` fails, and what the call returns has not been handed out
before. -/
theorem Inv.finiStep {sys : LcsSystem ι} (inv : sys.Inv) {thread : ι} {call : SeqCall}
    {result : Except Int UInt64} (atStores : sys.threads thread = .finishing call result) :
    ∃ sys', sys.fini thread call result = some sys' ∧ sys'.Inv := by
  have busy : (sys.threads thread).busy = true := by simp [atStores]
  have fini : seqFidAllocFini sys.seq = some { sys.seq with lcsUpdate := 0 } := by
    simp [seqFidAllocFini, inv.holding.update_eq_one busy]
  -- after it no thread is past its stores
  have noneAtStores : ∀ other otherCall seqnr,
      Function.update sys.threads thread .idle other ≠ .finishing otherCall (.ok seqnr) := by
    intro other otherCall seqnr atOther
    by_cases same : other = thread
    · subst same
      simp at atOther
    · rw [Function.update_of_ne same] at atOther
      exact inv.holding.not_finishing busy same atOther
  obtain ⟨sane, widthPositive, widthLe, spaceGranted, issued, taken, issuedNodup, takenNodup, current, whole,
    -⟩ := inv.accounted
  cases result with
  | error rc =>
    refine ⟨{ sys with
        seq := { sys.seq with lcsUpdate := 0 }
        threads := Function.update sys.threads thread .idle },
      by cases call <;> simp [LcsSystem.fini, fini], inv.holding.release busy rfl rfl,
      inv.accounted.frame rfl rfl rfl rfl rfl rfl rfl ?_⟩
    exact fun other otherCall seqnr atOther => absurd atOther (noneAtStores other otherCall seqnr)
  | ok seqnr =>
    obtain ⟨stored, notTaken, noneIssued⟩ := inv.accounted.finishing thread call seqnr atStores
    have nonzero : fidIsZero sys.seq.lcsFid = false := by
      rw [stored]
      exact SeqCall.fidIsZero_newFid call _ seqnr
    obtain ⟨storedSpent, storedVer, -⟩ := current nonzero
    have storedSeq : sys.seq.lcsFid.fSeq = seqnr := by simp [stored]
    cases call with
    | allocFid =>
      -- `seq_client_alloc_fid` returns the first FID of the new sequence
      have storedOid : sys.seq.lcsFid.fOid = lustreFidInitOid := by simp [stored, SeqCall.newFid]
      refine ⟨{ sys with
          seq := { sys.seq with lcsUpdate := 0 }
          threads := Function.update sys.threads thread .idle
          issued := sys.seq.lcsFid :: sys.issued },
        by simp [LcsSystem.fini, fini], inv.holding.release busy rfl rfl, sane, widthPositive, widthLe,
        spaceGranted, fun fid mem => ?_, taken, ?_, takenNodup, fun _ => ⟨storedSpent, storedVer, fun fid mem sameSeq => ?_⟩,
        fun _ mem => absurd (storedSeq ▸ mem) notTaken,
        fun other otherCall seqnr atOther => absurd atOther (noneAtStores other otherCall seqnr)⟩
      · rcases List.mem_cons.1 mem with rfl | old
        · have maxFits := sys.seq.lcsType.maxWidth_bounds
          refine ⟨storedSpent, storedVer, UInt32.le_iff_toNat_le.2 (by rw [storedOid]), ?_,
            storedSeq ▸ notTaken⟩
          rw [storedOid]
          exact maxFits.1
        · exact issued fid old
      · exact List.nodup_cons.2 ⟨fun mem => noneIssued _ mem storedSeq, issuedNodup⟩
      · rcases List.mem_cons.1 mem with rfl | old
        · exact UInt32.le_iff_toNat_le.2 (Nat.le_refl _)
        · exact absurd (sameSeq.trans storedSeq) (noneIssued fid old)
    | getSeq =>
      -- `seq_client_get_seq` returns the sequence, marked used up in `lcs_fid`
      have storedOid : sys.seq.lcsFid.fOid.toNat = sys.seq.lcsType.maxWidth.toNat := by
        rw [stored, SeqCall.newFid, LuCliType.toNat_maxWidth_toUInt32]
      refine ⟨{ sys with
          seq := { sys.seq with lcsUpdate := 0 }
          threads := Function.update sys.threads thread .idle
          taken := seqnr :: sys.taken },
        by simp [LcsSystem.fini, fini], inv.holding.release busy rfl rfl, sane, widthPositive, widthLe,
        spaceGranted, fun fid mem => ?_, fun seq mem => ?_, issuedNodup, List.nodup_cons.2 ⟨notTaken, takenNodup⟩,
        current, fun _ _ => storedOid,
        fun other otherCall seqnr atOther => absurd atOther (noneAtStores other otherCall seqnr)⟩
      · obtain ⟨fidSpent, ver, oid, oidLe, fidNotTaken⟩ := issued fid mem
        refine ⟨fidSpent, ver, oid, oidLe, ?_⟩
        simp only [List.mem_cons, not_or]
        exact ⟨noneIssued fid mem, fidNotTaken⟩
      · rcases List.mem_cons.1 mem with rfl | old
        · exact storedSeq ▸ storedSpent
        · exact taken seq old

end LcsSystem

/-- The environment of `fidsUnique_of_reachable`: the controller replies with
a nonzero code or a sane range that meets no range it replied before,
`OBD_FAIL_SEQ_EXHAUST` is off, and no thread passes the top of
`seq_client_alloc_fid`'s loop while another thread is between the stores of
a new sequence and `seq_fid_alloc_fini`. -/
def LcsEvent.Unraced : Option (LcsSystem ι) → LcsEvent ι → Prop
  | none, _ => False
  | some sys, .allocFid _ failExhaust => failExhaust = false ∧ sys.NoNewFid
  | some sys, .retry thread => sys.threads thread = .waiting .allocFid → sys.NoNewFid
  | some sys, .allocSeq _ reply =>
    reply.Sane ∧ ∀ out ∈ reply.sent, ∀ seq, out.within seq = true → ¬ sys.Granted seq
  | some _, _ => True

/-- The client after `seq_client_init` holds nothing and has handed out nothing. -/
theorem LcsSystem.Inv.lcsStart (type : LuCliType) : (lcsStart type : LcsSystem ι).Inv := by
  refine ⟨⟨fun _ _ busy => by simp [Fid.lcsStart] at busy,
    .inr ⟨rfl, fun _ => rfl⟩⟩, rfl, ?_, ?_, ?_, ?_, ?_, ?_, ?_, ?_, ?_, ?_⟩
  · exact (type.maxWidth_bounds).1
  · exact le_refl _
  · intro seq within
    simp [Fid.lcsStart, seqClientInit] at within
  all_goals simp [Fid.lcsStart, seqClientInit, fidIsZero, LuFid.zero]

variable [DecidableEq ι]

namespace LcsSystem

/-- Every step the environment may take keeps the invariant; none fails an `LASSERT`. -/
theorem Inv.step {sys : LcsSystem ι} (inv : sys.Inv) {event : LcsEvent ι}
    (allowed : LcsEvent.Unraced (some sys) event) :
    ∃ sys', LcsEvent.apply (some sys) event = some sys' ∧ sys'.Inv := by
  cases event with
  | allocFid thread failExhaust =>
    obtain ⟨rfl, noNewFid⟩ := allowed
    cases place : sys.threads thread
    case idle =>
      exact ⟨_, by simp [LcsEvent.apply_allocFid, place],
        inv.onePass thread (by simp [place]) .allocFid fun _ => noNewFid⟩
    all_goals exact ⟨sys, by simp [LcsEvent.apply_allocFid, place], inv⟩
  | getSeq thread =>
    cases place : sys.threads thread
    case idle =>
      exact ⟨_, by simp [LcsEvent.apply_getSeq, place],
        inv.onePass thread (by simp [place]) .getSeq nofun⟩
    all_goals exact ⟨sys, by simp [LcsEvent.apply_getSeq, place], inv⟩
  | retry thread =>
    cases place : sys.threads thread
    case waiting call =>
      refine ⟨_, by simp [LcsEvent.apply_retry, place],
        inv.onePass thread (by simp [place]) call fun isAllocFid => ?_⟩
      exact allowed (by rw [place, isAllocFid])
    all_goals exact ⟨sys, by simp [LcsEvent.apply_retry, place], inv⟩
  | allocSeq thread reply =>
    cases place : sys.threads thread
    case allocating call =>
      obtain ⟨sys', stepped, inv'⟩ := inv.allocSeqStep place allowed.1 allowed.2
      exact ⟨sys', by simp [LcsEvent.apply_allocSeq, place, stepped], inv'⟩
    all_goals exact ⟨sys, by simp [LcsEvent.apply_allocSeq, place], inv⟩
  | fini thread =>
    cases place : sys.threads thread
    case finishing call result =>
      obtain ⟨sys', stepped, inv'⟩ := inv.finiStep place
      exact ⟨sys', by simp [LcsEvent.apply_fini, place, stepped], inv'⟩
    all_goals exact ⟨sys, by simp [LcsEvent.apply_fini, place], inv⟩
  | flush =>
    by_cases raised : sys.seq.lcsUpdate = 0
    · exact ⟨_, by simp [LcsEvent.apply_flush, raised], inv.flushStep raised⟩
    · exact ⟨sys, by simp [LcsEvent.apply_flush, raised], inv⟩
  | widthWrite val => exact ⟨_, rfl, inv.widthStep val⟩

end LcsSystem

/-- On every interleaving of `seq_client_alloc_fid`, `seq_client_get_seq`,
`seq_client_flush` and writes of the width that keeps out of the window of
`seqClientAllocFid_hands_out_twice`, with a controller whose ranges are sane
and disjoint, no `LASSERT` fails and no FID or whole sequence is handed out
twice.  Every FID handed out has `f_ver = 0`, an `f_oid` from
`LUSTRE_FID_INIT_OID` to the width of a whole sequence, and a sequence the
controller granted that no `seq_client_get_seq` returned. -/
theorem fidsUnique_of_reachable {type : LuCliType} {state : Option (LcsSystem ι)}
    (reachable : Machine.Reachable LcsEvent.apply LcsEvent.Unraced (some (lcsStart type)) state) :
    ∃ sys, state = some sys ∧ sys.issued.Nodup ∧ sys.taken.Nodup ∧
      ∀ fid ∈ sys.issued, fid.fVer = 0 ∧ lustreFidInitOid ≤ fid.fOid ∧
        fid.fOid.toNat ≤ sys.seq.lcsType.maxWidth.toNat ∧ sys.Granted fid.fSeq ∧ fid.fSeq ∉ sys.taken := by
  obtain ⟨sys, rfl, inv⟩ := reachable.invariant (fun state => ∃ sys, state = some sys ∧ sys.Inv)
    ⟨_, rfl, LcsSystem.Inv.lcsStart type⟩
    (fun state event ⟨sys, atState, inv⟩ allowed => by
      subst atState
      exact inv.step allowed)
  refine ⟨sys, rfl, inv.accounted.issuedNodup, inv.accounted.takenNodup, fun fid mem => ?_⟩
  obtain ⟨spent, ver, oid, oidLe, notTaken⟩ := inv.accounted.issued fid mem
  exact ⟨ver, oid, oidLe, spent.1, notTaken⟩

/-- The first range a controller grants a client on its first call. -/
def firstMetaRange : LuSeqRange := ⟨fidSeqNormal, fidSeqNormal + 1, 0⟩

/-- Two threads of a metadata client: the first takes a new sequence and its
first FID, the second bumps it. -/
theorem fidsUnique_of_reachable_two_fids :
    ∃ sys, LcsEvent.apply (LcsEvent.apply (LcsEvent.apply (LcsEvent.apply
        (some (lcsStart .lustreSeqMetadata : LcsSystem Bool)) (.allocFid false false))
          (.allocSeq false (.range firstMetaRange))) (.fini false)) (.allocFid true false) = some sys ∧
      sys.issued.Nodup ∧ sys.taken.Nodup ∧
      ∀ fid ∈ sys.issued, fid.fVer = 0 ∧ lustreFidInitOid ≤ fid.fOid ∧
        fid.fOid.toNat ≤ sys.seq.lcsType.maxWidth.toNat ∧ sys.Granted fid.fSeq ∧ fid.fSeq ∉ sys.taken :=
  fidsUnique_of_reachable
    ((((Machine.Reachable.start.step _ ⟨rfl, fun _ _ => nofun⟩).step _
      ⟨by simp [SeqQueryReply.Sane, firstMetaRange, LuSeqRange.isSane, fidSeqNormal],
        by simp [Fid.lcsStart, LcsSystem.pass, seqClientAllocFidPass, LcsSystem.prepared, seqClientInit,
          fidIsZero, LuFid.zero, LcsSystem.Granted]⟩).step _ trivial).step _
      ⟨rfl, by simp [LcsSystem.NoNewFid, Fid.lcsStart, LcsSystem.pass, seqClientAllocFidPass,
        seqClientInit, fidIsZero, LuFid.zero, seqFidAllocPrep, LcsSystem.prepared, Function.update_apply]⟩)

/-- `seq_client_alloc_fid` stores a new sequence into `lcs_fid` before
`seq_fid_alloc_fini` takes `lcs_mutex` again.  A thread that calls
`seq_client_alloc_fid` in that window finds the new FID below `lcs_width`,
bumps it and returns it; then the thread that took the sequence returns
`lcs_fid` as it finds it, which is the same FID. -/
theorem seqClientAllocFid_hands_out_twice {sys : LcsSystem ι} {taker caller : ι}
    (distinct : caller ≠ taker) (allocating : sys.threads taker = .allocating .allocFid)
    (idle : sys.threads caller = .idle) (holder : sys.seq.lcsUpdate = 1)
    (wide : 2 ≤ sys.seq.lcsWidth.toNat) {reply : SeqQueryReply} {seqnr : UInt64} {space : LuSeqRange}
    (allocated : seqClientAllocSeq sys.seq.lcsSpace reply = .allocated seqnr space) :
    ∃ sys', Machine.run LcsEvent.apply (some sys)
        [.allocSeq taker reply, .allocFid caller false, .fini taker] = some sys' ∧
      sys'.issued = ⟨seqnr, 2, 0⟩ :: ⟨seqnr, 2, 0⟩ :: sys.issued := by
  have below : (1 : UInt64) < sys.seq.lcsWidth := by
    rw [UInt64.lt_iff_toNat_lt]
    exact Nat.lt_of_lt_of_le (by decide) wide
  -- the taker stores `[seqnr:1:0]`, the caller bumps it to `[seqnr:2:0]` and returns it, and the
  -- taker's `seq_fid_alloc_fini` finds `lcs_update` at 1 and returns `lcs_fid`
  simp [Machine.run, LcsEvent.apply, allocating, LcsSystem.allocSeq, allocated, Function.update_of_ne distinct,
    Function.update_of_ne distinct.symm, idle, LcsSystem.pass, seqClientAllocFidPass, SeqCall.newFid,
    fidIsZero, below, lustreFidInitOid, LcsSystem.fini, seqFidAllocFini, holder]

/-- A metadata client whose first thread has raised `lcs_update` to take its
first sequence, with the second thread idle. -/
def racedClient : LcsSystem Bool :=
  (lcsStart .lustreSeqMetadata).pass false .allocFid (seqClientInit .lustreSeqMetadata)

/-- The window is reached on the first sequence a client takes. -/
theorem seqClientAllocFid_hands_out_twice_on_first_sequence :
    LcsEvent.apply (some (lcsStart .lustreSeqMetadata)) (.allocFid false false) = some racedClient ∧
      ∃ sys', Machine.run LcsEvent.apply (some racedClient)
          [.allocSeq false (.range firstMetaRange), .allocFid true false, .fini false] = some sys' ∧
        sys'.issued = ⟨fidSeqNormal, 2, 0⟩ :: ⟨fidSeqNormal, 2, 0⟩ :: racedClient.issued :=
  ⟨rfl, seqClientAllocFid_hands_out_twice (by decide) rfl rfl rfl (by decide) rfl⟩

end Fid
end Lustre
