import Lustre.Library.Run
import Mathlib.Data.Finset.Card
import Mathlib.Data.Finset.Range

/-!
# The llog header (obdclass/llog_osd.c, obdclass/llog.c)

An llog is a file of records behind a header chunk.  The header keeps a bitmap
of the live record indexes (bit 0 is the header itself), their count
`llh_count`, and in its tail `lrt_index` the last index handed out, which the
handle also keeps in `lgh_last_idx`.  `llog_osd_write_rec` appends a record: it
may first write a padding record that takes an index without a bit, then takes
the next index, sets its bit and counts it, and writes the header pieces and the
record; a failed write undoes the bit, the count and the last index.
`llog_cancel_rec` clears a bit and counts it down, and undoes both when the
transaction fails.

The in-memory header is `LlogLogHdr`, its bitmap the set of its set bits, and
`LLOG_HDR_BITMAP_SIZE` is computed in the widths of the C expression.  Every
storage call that may fail is named by `AppendFault` or `CancelFault`, and an
event carries the one that fails, if any.  `LASSERT` and `LBUG` are `none`.

Over every run of a plain llog the header keeps its count (`counted_of_run`),
and an append reaches neither the `LBUG` on a set bit nor the assertion on the
bitmap size.  The tail, though, does not always hold the last index: a padding
record takes an index, and when the llog is then full the append answers
`-ENOSPC` without writing that index to the tail.
-/

namespace Lustre.Llog

/-! ## Constants -/

/-- LLOG_MIN_CHUNK_SIZE -/
def llogMinChunkSize : Nat := 8192

/-- LLOG_MIN_REC_SIZE -/
def llogMinRecSize : Nat := 24

/-- LLOG_OP_MAGIC -/
def llogOpMagic : UInt32 := 0x10600000

/-- LLOG_OP_MASK -/
def llogOpMask : UInt32 := 0xfff00000

/-- LLOG_HDR_MAGIC -/
def llogHdrMagic : UInt32 := 0x10645539

/-- LLOG_F_ZAP_WHEN_EMPTY -/
def llogFZapWhenEmpty : UInt32 := 0x1

/-- LLOG_F_IS_CAT -/
def llogFIsCat : UInt32 := 0x2

/-- LLOG_F_IS_PLAIN -/
def llogFIsPlain : UInt32 := 0x4

/-- LLOG_F_IS_FIXSIZE -/
def llogFIsFixsize : UInt32 := 0x10

/-- offsetof(struct llog_log_hdr, llh_bitmap) -/
def llhBitmapOffsetof : UInt32 := 88

/-- LLOG_EEMPTY -/
def llogEempty : Int := 4711

/-- LLOG_DEL_PLAIN -/
def llogDelPlain : Int := 3

def enoent : Int := 2
def eio : Int := 5
def e2big : Int := 7
def efault : Int := 14
def einval : Int := 22
def enospc : Int := 28

/-! ## The header and the handle -/

/-- The fields of struct llog_log_hdr that appends and cancels use, with the
bitmap as the set of its set bits and the tail's `lrt_index`. -/
structure LlogLogHdr where
  lrhLen : UInt32
  llhCount : UInt32
  llhBitmapOffset : UInt32
  llhSize : UInt32
  llhFlags : UInt32
  llhCatIdx : UInt32
  llhBitmap : Finset Nat
  lrtIndex : UInt32
  deriving DecidableEq

/-- LLOG_HDR_BITMAP_SIZE: `lrh_len - llh_bitmap_offset` in 32 bits, less the
size of the tail in 64 bits, times 8, cut back to 32 bits. -/
def hdrBitmapSize (lrhLen llhBitmapOffset : UInt32) : UInt32 :=
  (((lrhLen - llhBitmapOffset).toUInt64 - 8) * 8).toUInt32

def LlogLogHdr.bitmapSize (llh : LlogLogHdr) : UInt32 := hdrBitmapSize llh.lrhLen llh.llhBitmapOffset

def LlogLogHdr.isCat (llh : LlogLogHdr) : Bool := llh.llhFlags &&& llogFIsCat ≠ 0

def LlogLogHdr.isFixsize (llh : LlogLogHdr) : Bool := llh.llhFlags &&& llogFIsFixsize ≠ 0

/-- The fields of struct llog_handle an append uses, with the size of the llog
object and whether it is remote (`dt_object_remote`). -/
structure LlogHandle where
  lghHdr : LlogLogHdr
  lghLastIdx : Nat
  lghWriteOffset : Nat
  laSize : Nat
  remote : Bool
  deriving DecidableEq

/-- llog_is_full -/
def llogIsFull (handle : LlogHandle) : Bool :=
  handle.lghLastIdx ≥ (handle.lghHdr.bitmapSize - 1).toNat

/-- A handle whose bitmap has room is full once the index after its last one
is the last slot or beyond. -/
theorem llogIsFull_iff {handle : LlogHandle} (roomy : 0 < handle.lghHdr.bitmapSize.toNat) :
    llogIsFull handle ↔ handle.lghHdr.bitmapSize.toNat ≤ handle.lghLastIdx + 1 := by
  have one : 1 ≤ handle.lghHdr.bitmapSize := by
    rw [UInt32.le_iff_toNat_le, UInt32.toNat_one]
    exact roomy
  simp only [llogIsFull, decide_eq_true_eq, UInt32.toNat_sub_of_le _ _ one, UInt32.toNat_one]
  omega

/-- The header `llog_read_header` makes for an empty object, with the flags
`llog_init_handle` put there first. -/
def llogReadHeaderEmpty (chunkSize flags : UInt32) (remote : Bool) : LlogHandle where
  lghHdr := {
    lrhLen := chunkSize
    llhCount := 1
    llhBitmapOffset := llhBitmapOffsetof
    llhSize := 0
    llhFlags := flags
    llhCatIdx := 0
    llhBitmap := {0}
    lrtIndex := 0 }
  lghLastIdx := 0
  lghWriteOffset := 0
  laSize := 0
  remote := remote

/-! ## Appends -/

/-- The storage calls of an append that may fail. -/
inductive AppendFault
  /-- dt_attr_get before the record is placed -/
  | attrGet
  /-- the padding record -/
  | pad
  /-- the header (whole, or up to the bitmap) -/
  | header
  /-- the bitmap word of the new index -/
  | bitmapWord
  /-- the header tail -/
  | tail
  /-- dt_attr_get for the record's offset -/
  | attrGetAfter
  /-- the record -/
  | record
  deriving DecidableEq

/-- What an append gives back: its return code, the index put in the cookie,
and the handle. -/
structure WriteOutcome where
  rc : Int
  cookieIndex : Option Nat
  handle : LlogHandle
  deriving DecidableEq

/-- The `out:` path of `llog_osd_write_rec`: the bit and the count are undone,
and the last index is restored (remote) or stepped back (local), onto the last
slot when a catalog had just wrapped. -/
def appendOut (handle : LlogHandle) (index origLastIdx origWriteOffset : Nat) : LlogHandle :=
  let llh := { handle.lghHdr with
    llhBitmap := handle.lghHdr.llhBitmap.erase index
    llhCount := handle.lghHdr.llhCount - 1 }
  let last :=
    if handle.remote then origLastIdx
    else if handle.lghLastIdx - 1 = 0 ∧ llh.isCat ∧ llh.llhCatIdx ≠ 0 then (llh.bitmapSize - 1).toNat
    else handle.lghLastIdx - 1
  { handle with
    lghHdr := { llh with lrtIndex := last.toUInt32 }
    lghLastIdx := last
    lghWriteOffset := if handle.remote then origWriteOffset else handle.lghWriteOffset }

/-- The offset of the record: fixed by its index in a llog of fixed-size
records, after the write offset of a remote object, at the end of a local one. -/
def LlogHandle.recordOffset (handle : LlogHandle) (index reclen : Nat) : Nat :=
  let chunk := handle.lghHdr.lrhLen.toNat
  if handle.lghHdr.isFixsize then chunk + (index - 1) * reclen
  else if handle.remote then max handle.lghWriteOffset chunk
  else max handle.laSize chunk

/-- The writes of an append after the index is taken: the header pieces, then
the record at its offset.  `orig` is the handle the append started from. -/
def appendWrite (handle orig : LlogHandle) (index reclen : Nat) (cookie : Bool)
    (fault : Option AppendFault) : WriteOutcome :=
  let out := fun h : LlogHandle => (⟨-eio, none, appendOut h index orig.lghLastIdx orig.lghWriteOffset⟩ : WriteOutcome)
  -- a new object gets the whole header, an old one its header, bitmap word and tail
  if (orig.laSize = 0 ∧ fault = some .header) ∨
      (orig.laSize ≠ 0 ∧ (fault = some .header ∨ fault = some .bitmapWord ∨ fault = some .tail)) then
    out handle
  else
    let handle := { handle with laSize := max handle.laSize handle.lghHdr.lrhLen.toNat }
    if ¬ handle.lghHdr.isFixsize ∧ ¬ handle.remote ∧ fault = some .attrGetAfter then out handle
    else if fault = some .record then out handle
    else
      ⟨if cookie then 1 else 0, if cookie then some index else none,
        { handle with
          laSize := max handle.laSize (handle.recordOffset index reclen + reclen)
          lghWriteOffset :=
            if handle.remote then handle.recordOffset index reclen + reclen else handle.lghWriteOffset }⟩

/-- The index an append takes: the one after the last, or 1 when a full
catalog wraps. -/
def LlogHandle.nextIndex (handle : LlogHandle) : Nat :=
  (if llogIsFull handle then 0 else handle.lghLastIdx) + 1

/-- The smallest record size the header keeps once a record of `reclen` bytes
is added to a llog of records of any size. -/
def LlogLogHdr.nextSize (llh : LlogLogHdr) (reclen : Nat) : UInt32 :=
  if llh.isFixsize then llh.llhSize
  else if llh.llhSize = 0 then reclen.toUInt32
  else if reclen.toUInt32 < llh.llhSize then reclen.toUInt32
  else llh.llhSize

/-- The handle once `index` is taken: written to the tail and to the last
index, set in the bitmap and counted. -/
def LlogHandle.takeIndex (handle : LlogHandle) (index reclen : Nat) : LlogHandle :=
  { handle with
    lghHdr := { handle.lghHdr with
      lrtIndex := index.toUInt32
      llhBitmap := insert index handle.lghHdr.llhBitmap
      llhCount := handle.lghHdr.llhCount + 1
      llhSize := handle.lghHdr.nextSize reclen }
    lghLastIdx := index }

section TakeIndex

variable (handle : LlogHandle) (index reclen : Nat)

@[simp] theorem LlogHandle.takeIndex_lghLastIdx : (handle.takeIndex index reclen).lghLastIdx = index := rfl

@[simp] theorem LlogHandle.takeIndex_llhBitmap :
    (handle.takeIndex index reclen).lghHdr.llhBitmap = insert index handle.lghHdr.llhBitmap := rfl

@[simp] theorem LlogHandle.takeIndex_llhCount :
    (handle.takeIndex index reclen).lghHdr.llhCount = handle.lghHdr.llhCount + 1 := rfl

@[simp] theorem LlogHandle.takeIndex_lrtIndex :
    (handle.takeIndex index reclen).lghHdr.lrtIndex = index.toUInt32 := rfl

@[simp] theorem LlogHandle.takeIndex_bitmapSize :
    (handle.takeIndex index reclen).lghHdr.bitmapSize = handle.lghHdr.bitmapSize := rfl

@[simp] theorem LlogHandle.takeIndex_isCat :
    (handle.takeIndex index reclen).lghHdr.isCat = handle.lghHdr.isCat := rfl

end TakeIndex

/-- From the full check on: a plain llog that is full answers `-ENOSPC`, a
catalog wraps to 0; the next index is taken and the header and the record are
written. -/
def appendIndex (handle orig : LlogHandle) (reclen : Nat) (cookie : Bool)
    (fault : Option AppendFault) : Option WriteOutcome :=
  if llogIsFull handle ∧ ¬ handle.lghHdr.isCat then some ⟨-enospc, none, handle⟩
  else if ¬ handle.nextIndex < handle.lghHdr.bitmapSize.toNat then none
  else if handle.nextIndex ∈ handle.lghHdr.llhBitmap then none
  else some (appendWrite (handle.takeIndex handle.nextIndex reclen) orig handle.nextIndex reclen cookie fault)

/-- What is left of the chunk the object ends in. -/
def LlogHandle.chunkLeft (handle : LlogHandle) : Nat :=
  handle.lghHdr.lrhLen.toNat - (handle.laSize &&& (handle.lghHdr.lrhLen.toNat - 1))

/-- The handle once a padding record of `left` bytes is written: it takes an
index without a bit, and the tail is left as it was. -/
def LlogHandle.pad (handle : LlogHandle) (left : Nat) : LlogHandle :=
  { handle with
    laSize := handle.laSize + left
    lghWriteOffset := if handle.remote then handle.laSize + left else handle.lghWriteOffset
    lghLastIdx := handle.lghLastIdx + 1 }

@[simp] theorem LlogHandle.pad_lghHdr (handle : LlogHandle) (left : Nat) :
    (handle.pad left).lghHdr = handle.lghHdr := rfl

@[simp] theorem LlogHandle.pad_lghLastIdx (handle : LlogHandle) (left : Nat) :
    (handle.pad left).lghLastIdx = handle.lghLastIdx + 1 := rfl

@[simp] theorem LlogHandle.pad_remote (handle : LlogHandle) (left : Nat) :
    (handle.pad left).remote = handle.remote := rfl

/-- llog_osd_write_rec, the append case (`idx == LLOG_NEXT_IDX`). -/
def llogOsdWriteRec (handle : LlogHandle) (reclen : Nat) (cookie : Bool)
    (fault : Option AppendFault) : Option WriteOutcome :=
  let llh := handle.lghHdr
  if reclen > llh.lrhLen.toNat then some ⟨-e2big, none, handle⟩
  else if llh.isFixsize ∧ (llh.llhSize = 0 ∨ llh.llhSize.toNat ≠ reclen) then none
  else if fault = some .attrGet then some ⟨-eio, none, handle⟩
  -- a record must not cross a chunk: pad the rest of the chunk first
  else if handle.chunkLeft ≠ 0 ∧ handle.chunkLeft ≠ reclen ∧ handle.chunkLeft < reclen + llogMinRecSize then
    if ¬ (llogMinRecSize ≤ handle.chunkLeft ∧ handle.chunkLeft % 8 = 0) then none
    else if fault = some .pad then some ⟨-eio, none, handle⟩
    else appendIndex (handle.pad handle.chunkLeft) handle reclen cookie fault
  else appendIndex handle handle reclen cookie fault

/-! ## Cancels -/

/-- The storage calls of a cancel that may fail. -/
inductive CancelFault
  | transCreate
  | declare
  | transStart
  /-- the header update through llog_write_rec -/
  | headerWrite
  /-- llog_trans_destroy of an emptied llog -/
  | destroy
  | transStop
  deriving DecidableEq

/-- The return code of `llog_cancel_rec` once the bit is cleared: the header
update (which checks that the header's own bit is set), the destroy of an
emptied llog, and the stop of the transaction. -/
def cancelRc (handle : LlogHandle) (cleared : LlogLogHdr) (notCurrent : Bool)
    (fault : Option CancelFault) : Int :=
  let llh := handle.lghHdr
  let rc : Int :=
    if 0 ∉ cleared.llhBitmap then -enoent
    else if fault = some .headerWrite then -eio
    else if llh.llhFlags &&& llogFZapWhenEmpty ≠ 0 ∧ cleared.llhCount = 1 ∧
        (handle.lghLastIdx = (llh.bitmapSize - 1).toNat ∨ notCurrent) then
      if fault = some .destroy then -eio else llogDelPlain
    else 0
  if rc = 0 ∧ fault = some .transStop then -eio else rc

/-- llog_cancel_rec.  `notCurrent` says that the llog belongs to a catalog
whose current llog is another one. -/
def llogCancelRec (handle : LlogHandle) (index : Nat) (notCurrent : Bool)
    (fault : Option CancelFault) : Int × LlogHandle :=
  let llh := handle.lghHdr
  if index = 0 then (-einval, handle)
  else if fault = some .transCreate ∨ fault = some .declare ∨ fault = some .transStart then (-eio, handle)
  else if index ∉ llh.llhBitmap then (if fault = some .transStop then -eio else 0, handle)
  else
    let cleared := { llh with llhBitmap := llh.llhBitmap.erase index, llhCount := llh.llhCount - 1 }
    let rc := cancelRc handle cleared notCurrent fault
    -- a failed cancel counts the record back and sets its bit again
    if rc < 0 then
      (rc, { handle with
        lghHdr := { cleared with llhCount := cleared.llhCount + 1, llhBitmap := insert index cleared.llhBitmap } })
    else (rc, { handle with lghHdr := cleared })

/-! ## Runs -/

/-- The calls on an llog handle. -/
inductive LlogEvent
  | append (reclen : Nat) (cookie : Bool) (fault : Option AppendFault)
  | cancel (index : Nat) (notCurrent : Bool) (fault : Option CancelFault)

/-- One call; `none` once an `LASSERT` or `LBUG` has fired. -/
def llogStep : Option LlogHandle → LlogEvent → Option LlogHandle
  | none, _ => none
  | some handle, .append reclen cookie fault =>
    (llogOsdWriteRec handle reclen cookie fault).map (·.handle)
  | some handle, .cancel index notCurrent fault => some (llogCancelRec handle index notCurrent fault).2

/-- A cancel either leaves the handle as it was, or succeeds on a live record
other than the header, whose bit it clears and which it counts down. -/
theorem llogCancelRec_cases (handle : LlogHandle) (index : Nat) (notCurrent : Bool)
    (fault : Option CancelFault) :
    (llogCancelRec handle index notCurrent fault).2 = handle ∨
      (0 ≤ (llogCancelRec handle index notCurrent fault).1 ∧ index ≠ 0 ∧ index ∈ handle.lghHdr.llhBitmap ∧
        (llogCancelRec handle index notCurrent fault).2 = { handle with
          lghHdr := { handle.lghHdr with
            llhBitmap := handle.lghHdr.llhBitmap.erase index
            llhCount := handle.lghHdr.llhCount - 1 } }) := by
  dsimp only [llogCancelRec]
  split
  · exact .inl rfl
  · split
    · exact .inl rfl
    · split
      · exact .inl rfl
      · next notZero _ live =>
        rw [not_not] at live
        split
        · left
          simp only [UInt32.sub_add_cancel, Finset.insert_erase live]
        · next succeeded =>
          exact .inr ⟨Int.le_of_not_gt succeeded, notZero, live, rfl⟩

/-! ## What an append can do -/

/-- The writes after the index is taken either all succeed, or one fails and
the `out:` path undoes the index. -/
theorem appendWrite_cases (handle orig : LlogHandle) (index reclen : Nat) (cookie : Bool)
    (fault : Option AppendFault) :
    (∃ laSize, appendWrite handle orig index reclen cookie fault =
        ⟨-eio, none, appendOut { handle with laSize } index orig.lghLastIdx orig.lghWriteOffset⟩) ∨
      ∃ laSize lghWriteOffset, appendWrite handle orig index reclen cookie fault =
        ⟨if cookie then 1 else 0, if cookie then some index else none, { handle with laSize, lghWriteOffset }⟩ := by
  dsimp only [appendWrite]
  split
  · exact .inl ⟨handle.laSize, rfl⟩
  · split
    · exact .inl ⟨_, rfl⟩
    · split
      · exact .inl ⟨_, rfl⟩
      · exact .inr ⟨_, _, rfl⟩

/-- Without a failure, a local object of records of any size gets the record
at its end, after the header chunk. -/
theorem appendWrite_local (handle orig : LlogHandle) (index reclen : Nat) (cookie : Bool)
    (notFix : ¬ handle.lghHdr.isFixsize) (isLocal : handle.remote = false) :
    appendWrite handle orig index reclen cookie none =
      ⟨if cookie then 1 else 0, if cookie then some index else none,
        { handle with laSize := max handle.laSize handle.lghHdr.lrhLen.toNat + reclen }⟩ := by
  simp only [appendWrite, LlogHandle.recordOffset, reduceCtorEq, and_false, or_self, if_false, notFix,
    isLocal, Bool.false_eq_true]
  congr 2
  omega

/-- The `out:` path after `takeIndex` gives back the bit and the count, keeps
the new record size, and puts the last index it settles on into the tail. -/
theorem appendOut_takeIndex_lghHdr {handle : LlogHandle} {index : Nat}
    (fresh : index ∉ handle.lghHdr.llhBitmap) (reclen laSize origLastIdx origWriteOffset : Nat) :
    (appendOut { handle.takeIndex index reclen with laSize } index origLastIdx origWriteOffset).lghHdr =
      { handle.lghHdr with
        lrtIndex := (appendOut { handle.takeIndex index reclen with laSize } index origLastIdx
          origWriteOffset).lghLastIdx.toUInt32
        llhSize := handle.lghHdr.nextSize reclen } := by
  simp only [appendOut, LlogHandle.takeIndex, Finset.erase_insert fresh, UInt32.add_sub_cancel]

/-- Outside a catalog the `out:` path restores the last index of a remote
object and steps a local one back by one. -/
theorem appendOut_takeIndex_lghLastIdx {handle : LlogHandle} (plain : ¬ handle.lghHdr.isCat)
    (index reclen laSize origLastIdx origWriteOffset : Nat) :
    (appendOut { handle.takeIndex index reclen with laSize } index origLastIdx origWriteOffset).lghLastIdx =
      if handle.remote then origLastIdx else index - 1 := by
  have unfolded : (appendOut { handle.takeIndex index reclen with laSize } index origLastIdx
      origWriteOffset).lghLastIdx =
      if handle.remote then origLastIdx
      else if index - 1 = 0 ∧ handle.lghHdr.isCat ∧ handle.lghHdr.llhCatIdx ≠ 0 then
        (handle.lghHdr.bitmapSize - 1).toNat
      else index - 1 := rfl
  rw [unfolded]
  simp [plain]

/-- Past the full check the index is taken; a plain llog that is full answers
`-ENOSPC` and changes nothing. -/
theorem appendIndex_cases {handle orig : LlogHandle} {reclen : Nat} {cookie : Bool}
    {fault : Option AppendFault} {w : WriteOutcome}
    (ran : appendIndex handle orig reclen cookie fault = some w) :
    (llogIsFull handle ∧ ¬ handle.lghHdr.isCat ∧ w = ⟨-enospc, none, handle⟩) ∨
      (¬ (llogIsFull handle ∧ ¬ handle.lghHdr.isCat) ∧
        handle.nextIndex < handle.lghHdr.bitmapSize.toNat ∧ handle.nextIndex ∉ handle.lghHdr.llhBitmap ∧
        w = appendWrite (handle.takeIndex handle.nextIndex reclen) orig handle.nextIndex reclen cookie fault) := by
  unfold appendIndex at ran
  split at ran
  · next full => exact .inl ⟨full.1, full.2, (Option.some.inj ran).symm⟩
  · next notFull =>
    split at ran
    · cases ran
    · next room =>
      split at ran
      · cases ran
      · next fresh => exact .inr ⟨notFull, not_not.mp room, fresh, (Option.some.inj ran).symm⟩

/-- Outside a catalog an append that gets past the full check takes the index
after the last one. -/
theorem nextIndex_of_plain {handle : LlogHandle} (plain : ¬ handle.lghHdr.isCat)
    (notFull : ¬ (llogIsFull handle ∧ ¬ handle.lghHdr.isCat)) :
    handle.nextIndex = handle.lghLastIdx + 1 := by
  have roomy : llogIsFull handle = false := by simpa [plain] using notFull
  simp [LlogHandle.nextIndex, roomy]

/-- An append fails before it takes an index and changes nothing, or goes on
from the handle or from the handle after a padding record. -/
theorem llogOsdWriteRec_cases {handle : LlogHandle} {reclen : Nat} {cookie : Bool}
    {fault : Option AppendFault} {w : WriteOutcome}
    (ran : llogOsdWriteRec handle reclen cookie fault = some w) :
    (w.rc < 0 ∧ w.cookieIndex = none ∧ w.handle = handle) ∨
      appendIndex handle handle reclen cookie fault = some w ∨
      appendIndex (handle.pad handle.chunkLeft) handle reclen cookie fault = some w := by
  dsimp only [llogOsdWriteRec] at ran
  split at ran
  · cases ran
    exact .inl ⟨(by decide : -e2big < 0), rfl, rfl⟩
  · split at ran
    · cases ran
    · split at ran
      · cases ran
        exact .inl ⟨(by decide : -eio < 0), rfl, rfl⟩
      · split at ran
        · split at ran
          · cases ran
          · split at ran
            · cases ran
              exact .inl ⟨(by decide : -eio < 0), rfl, rfl⟩
            · exact .inr (.inr ran)
        · exact .inr (.inl ran)

/-- Outside a catalog, past the padding: `-ENOSPC` with nothing changed, or
the index after the last one, whose bit was clear, is taken, and either kept
with the record written, or given back with the last index restored (remote)
or stepped back (local). -/
theorem appendIndex_outcome {handle orig : LlogHandle} {reclen : Nat} {cookie : Bool}
    {fault : Option AppendFault} {w : WriteOutcome} (plain : ¬ handle.lghHdr.isCat)
    (ran : appendIndex handle orig reclen cookie fault = some w) :
    (w.rc = -enospc ∧ w.cookieIndex = none ∧ w.handle = handle) ∨
      (handle.lghLastIdx + 1 < handle.lghHdr.bitmapSize.toNat ∧
        handle.lghLastIdx + 1 ∉ handle.lghHdr.llhBitmap ∧
        ((w.rc = (if cookie then 1 else 0) ∧
            w.cookieIndex = (if cookie then some (handle.lghLastIdx + 1) else none) ∧
            w.handle.lghLastIdx = handle.lghLastIdx + 1 ∧
            w.handle.lghHdr = (handle.takeIndex (handle.lghLastIdx + 1) reclen).lghHdr) ∨
          (w.rc = -eio ∧ w.cookieIndex = none ∧
            w.handle.lghLastIdx = (if handle.remote then orig.lghLastIdx else handle.lghLastIdx) ∧
            w.handle.lghHdr = { handle.lghHdr with
              lrtIndex := w.handle.lghLastIdx.toUInt32
              llhSize := handle.lghHdr.nextSize reclen }))) := by
  rcases appendIndex_cases ran with ⟨-, -, rfl⟩ | ⟨notFull, room, fresh, rfl⟩
  · exact .inl ⟨rfl, rfl, rfl⟩
  · rw [nextIndex_of_plain plain notFull] at room fresh ⊢
    refine .inr ⟨room, fresh, ?_⟩
    rcases appendWrite_cases (handle.takeIndex (handle.lghLastIdx + 1) reclen) orig
        (handle.lghLastIdx + 1) reclen cookie fault with ⟨laSize, failed⟩ | ⟨laSize, offset, wrote⟩
    · rw [failed]
      have last := appendOut_takeIndex_lghLastIdx plain (handle.lghLastIdx + 1) reclen laSize
        orig.lghLastIdx orig.lghWriteOffset
      refine .inr ⟨rfl, rfl, ?_, appendOut_takeIndex_lghHdr fresh reclen laSize _ _⟩
      rw [last, Nat.add_sub_cancel]
    · rw [wrote]
      exact .inl ⟨rfl, rfl, rfl, rfl⟩

/-- Everything an append on a plain llog can do.  It fails before it takes an
index and changes nothing; or it writes a padding record, finds the llog full
and answers `-ENOSPC` with the last index one past the header's tail; or it
takes an index above the last one whose bit was clear, and either keeps it with
the record written, or gives back the bit and the count with the last index and
the tail set to an index at or above the last one before the call. -/
theorem llogOsdWriteRec_outcome {handle : LlogHandle} {reclen : Nat} {cookie : Bool}
    {fault : Option AppendFault} {w : WriteOutcome} (plain : ¬ handle.lghHdr.isCat)
    (ran : llogOsdWriteRec handle reclen cookie fault = some w) :
    (w.rc < 0 ∧ w.cookieIndex = none ∧ w.handle = handle) ∨
      (w.rc = -enospc ∧ w.cookieIndex = none ∧ w.handle.lghHdr = handle.lghHdr ∧
        w.handle.lghLastIdx = handle.lghLastIdx + 1) ∨
      ∃ index, handle.lghLastIdx < index ∧ index < handle.lghHdr.bitmapSize.toNat ∧
        index ∉ handle.lghHdr.llhBitmap ∧
        ((w.rc = (if cookie then 1 else 0) ∧ w.cookieIndex = (if cookie then some index else none) ∧
            w.handle.lghLastIdx = index ∧ w.handle.lghHdr = (handle.takeIndex index reclen).lghHdr) ∨
          (w.rc = -eio ∧ w.cookieIndex = none ∧
            handle.lghLastIdx ≤ w.handle.lghLastIdx ∧ w.handle.lghLastIdx < index ∧
            w.handle.lghHdr = { handle.lghHdr with
              lrtIndex := w.handle.lghLastIdx.toUInt32
              llhSize := handle.lghHdr.nextSize reclen })) := by
  rcases llogOsdWriteRec_cases ran with early | direct | padded
  · exact .inl early
  · rcases appendIndex_outcome plain direct with ⟨rc, cookieIndex, same⟩ | ⟨room, fresh, outcome⟩
    · exact .inl ⟨by rw [rc]; decide, cookieIndex, same⟩
    · refine .inr (.inr ⟨handle.lghLastIdx + 1, by omega, room, fresh, ?_⟩)
      rcases outcome with wrote | ⟨rc, cookieIndex, last, hdr⟩
      · exact .inl wrote
      · -- the append started from this handle, so either way the last index is restored
        refine .inr ⟨rc, cookieIndex, ?_, ?_, hdr⟩
        · rw [last, ite_self]
        · rw [last, ite_self]
          omega
  · -- the padding record took the index after the last one, without a bit
    rcases @appendIndex_outcome (handle.pad handle.chunkLeft) handle reclen cookie fault w plain padded with
      ⟨rc, cookieIndex, same⟩ | ⟨room, fresh, outcome⟩
    · exact .inr (.inl ⟨rc, cookieIndex, by rw [same]; rfl, by rw [same]; rfl⟩)
    · simp only [LlogHandle.pad_lghHdr, LlogHandle.pad_lghLastIdx, LlogHandle.pad_remote] at room fresh outcome
      refine .inr (.inr ⟨handle.lghLastIdx + 1 + 1, by omega, room, fresh, ?_⟩)
      rcases outcome with wrote | ⟨rc, cookieIndex, last, hdr⟩
      · exact .inl wrote
      · refine .inr ⟨rc, cookieIndex, ?_, ?_, hdr⟩ <;> rw [last] <;>
          by_cases remote : handle.remote = true <;>
            simp only [remote, if_true, if_false, Bool.false_eq_true] <;> omega

/-! ## The bookkeeping of the header -/

/-- What the header of a plain llog keeps over every run, with `last` the
handle's last index: the header's own bit is set, `llh_count` counts the set
bits, every set bit lies inside the bitmap and at or below the last index, and
so does the tail. -/
structure LlogLogHdr.Counted (llh : LlogLogHdr) (last : Nat) : Prop where
  headerBit : 0 ∈ llh.llhBitmap
  counted : llh.llhCount.toNat = llh.llhBitmap.card
  insideBitmap : ∀ i ∈ llh.llhBitmap, i < llh.bitmapSize.toNat
  belowLast : ∀ i ∈ llh.llhBitmap, i ≤ last
  tailBelow : llh.lrtIndex.toNat ≤ last

/-- The bookkeeping the header is meant to keep: besides what `Counted` says,
the tail holds the last index, which lies inside the bitmap. -/
structure LlogLogHdr.Consistent (llh : LlogLogHdr) (last : Nat) : Prop extends llh.Counted last where
  tailIsLast : llh.lrtIndex.toNat = last
  lastBelow : last < llh.bitmapSize.toNat

namespace LlogLogHdr

variable {llh : LlogLogHdr} {last : Nat}

/-- An index below the bitmap size fits the 32 bits of the tail. -/
theorem toNat_toUInt32_of_lt {index : Nat} (inside : index < llh.bitmapSize.toNat) :
    index.toUInt32.toNat = index :=
  Nat.mod_eq_of_lt (Nat.lt_trans inside (UInt32.toNat_lt _))

theorem Counted.of_le (counted : llh.Counted last) {last' : Nat} (le : last ≤ last') :
    llh.Counted last' :=
  { counted with
    belowLast := fun i mem => Nat.le_trans (counted.belowLast i mem) le
    tailBelow := Nat.le_trans counted.tailBelow le }

/-- A set of indexes below `n` has at most `n` of them. -/
theorem card_le_of_forall_lt {bitmap : Finset Nat} {n : Nat} (below : ∀ i ∈ bitmap, i < n) :
    bitmap.card ≤ n := by
  have inside : bitmap ⊆ Finset.range n := fun i mem => Finset.mem_range.mpr (below i mem)
  simpa using Finset.card_le_card inside

/-- Taking an index above the last one and inside the bitmap sets its bit,
counts it, and puts it into the tail. -/
theorem Counted.takeIndex {handle : LlogHandle} (counted : handle.lghHdr.Counted handle.lghLastIdx)
    {index : Nat} (above : handle.lghLastIdx < index) (inside : index < handle.lghHdr.bitmapSize.toNat)
    (reclen : Nat) : (handle.takeIndex index reclen).lghHdr.Consistent index := by
  have fresh : index ∉ handle.lghHdr.llhBitmap := fun mem => by
    have := counted.belowLast index mem
    omega
  have tail : index.toUInt32.toNat = index := toNat_toUInt32_of_lt inside
  have insideAfter : ∀ i ∈ insert index handle.lghHdr.llhBitmap, i < handle.lghHdr.bitmapSize.toNat := by
    intro i mem
    rcases Finset.mem_insert.mp mem with rfl | old
    · exact inside
    · exact counted.insideBitmap i old
  have roomy := card_le_of_forall_lt insideAfter
  have small := UInt32.toNat_lt handle.lghHdr.bitmapSize
  refine ⟨⟨?headerBit, ?counted, ?insideBitmap, ?belowLast, ?tailBelow⟩, ?tailIsLast, ?lastBelow⟩ <;>
    simp only [LlogHandle.takeIndex_llhBitmap, LlogHandle.takeIndex_llhCount,
      LlogHandle.takeIndex_lrtIndex, LlogHandle.takeIndex_bitmapSize, tail]
  · exact Finset.mem_insert_of_mem counted.headerBit
  · rw [Finset.card_insert_of_notMem fresh] at roomy ⊢
    rw [UInt32.toNat_add, counted.counted, UInt32.toNat_one]
    omega
  · exact insideAfter
  · intro i mem
    rcases Finset.mem_insert.mp mem with rfl | old
    · exact Nat.le_refl i
    · exact Nat.le_of_lt (Nat.lt_of_le_of_lt (counted.belowLast i old) above)
  · exact Nat.le_refl index
  · exact inside

/-- Giving the index back leaves the bitmap and the count as they were, with the
tail set to the last index the `out:` path settles on. -/
theorem Counted.restore (counted : llh.Counted last) {last' : Nat} (le : last ≤ last') (size : UInt32) :
    ({ llh with lrtIndex := last'.toUInt32, llhSize := size } : LlogLogHdr).Counted last' where
  headerBit := counted.headerBit
  counted := counted.counted
  insideBitmap := counted.insideBitmap
  belowLast := (counted.of_le le).belowLast
  tailBelow := by
    show last'.toUInt32.toNat ≤ last'
    rw [UInt32.toNat_ofNat']
    exact Nat.mod_le last' _

theorem Counted.restore_consistent (counted : llh.Counted last) {last' : Nat} (le : last ≤ last')
    (inside : last' < llh.bitmapSize.toNat) (size : UInt32) :
    ({ llh with lrtIndex := last'.toUInt32, llhSize := size } : LlogLogHdr).Consistent last' :=
  { counted.restore le size with
    tailIsLast := toNat_toUInt32_of_lt inside
    lastBelow := inside }

/-- Clearing a live bit other than the header's and counting it down keeps the
count. -/
theorem Counted.erase (counted : llh.Counted last) {index : Nat} (notZero : index ≠ 0)
    (live : index ∈ llh.llhBitmap) :
    ({ llh with llhBitmap := llh.llhBitmap.erase index, llhCount := llh.llhCount - 1 } : LlogLogHdr).Counted last where
  headerBit := Finset.mem_erase.mpr ⟨Ne.symm notZero, counted.headerBit⟩
  counted := by
    have nonempty : 1 ≤ llh.llhBitmap.card := Finset.card_pos.mpr ⟨index, live⟩
    have atLeastOne : 1 ≤ llh.llhCount := by
      rw [UInt32.le_iff_toNat_le, counted.counted, UInt32.toNat_one]
      exact nonempty
    show (llh.llhCount - 1).toNat = (llh.llhBitmap.erase index).card
    rw [UInt32.toNat_sub_of_le _ _ atLeastOne, Finset.card_erase_of_mem live, counted.counted,
      UInt32.toNat_one]
  insideBitmap := fun i mem => counted.insideBitmap i (Finset.mem_of_mem_erase mem)
  belowLast := fun i mem => counted.belowLast i (Finset.mem_of_mem_erase mem)
  tailBelow := counted.tailBelow

theorem Consistent.erase (consistent : llh.Consistent last) {index : Nat} (notZero : index ≠ 0)
    (live : index ∈ llh.llhBitmap) :
    ({ llh with llhBitmap := llh.llhBitmap.erase index, llhCount := llh.llhCount - 1 } : LlogLogHdr).Consistent last :=
  { consistent.toCounted.erase notZero live with
    tailIsLast := consistent.tailIsLast
    lastBelow := consistent.lastBelow }

end LlogLogHdr

/-! ## Every step keeps the count -/

/-- An append on a plain llog keeps the count, and keeps the llog plain. -/
theorem LlogLogHdr.Counted.llogOsdWriteRec {handle : LlogHandle}
    (counted : handle.lghHdr.Counted handle.lghLastIdx) (plain : ¬ handle.lghHdr.isCat)
    {reclen : Nat} {cookie : Bool} {fault : Option AppendFault} {w : WriteOutcome}
    (ran : llogOsdWriteRec handle reclen cookie fault = some w) :
    w.handle.lghHdr.Counted w.handle.lghLastIdx ∧ ¬ w.handle.lghHdr.isCat := by
  rcases llogOsdWriteRec_outcome plain ran with ⟨-, -, same⟩ | ⟨-, -, hdr, last⟩ |
    ⟨index, above, inside, -, ⟨-, -, last, hdr⟩ | ⟨-, -, atLeast, -, hdr⟩⟩
  · rw [same]
    exact ⟨counted, plain⟩
  · rw [hdr, last]
    exact ⟨counted.of_le (Nat.le_succ _), plain⟩
  · rw [hdr, last]
    exact ⟨(counted.takeIndex above inside reclen).toCounted, plain⟩
  · rw [hdr]
    exact ⟨counted.restore atLeast _, plain⟩

/-- An append on a plain llog keeps what the header is meant to keep, except
when it writes a padding record and then finds the llog full: it answers
`-ENOSPC` with the header as it was and the last index one past the tail. -/
theorem LlogLogHdr.Consistent.llogOsdWriteRec {handle : LlogHandle}
    (consistent : handle.lghHdr.Consistent handle.lghLastIdx) (plain : ¬ handle.lghHdr.isCat)
    {reclen : Nat} {cookie : Bool} {fault : Option AppendFault} {w : WriteOutcome}
    (ran : llogOsdWriteRec handle reclen cookie fault = some w) :
    w.handle.lghHdr.Consistent w.handle.lghLastIdx ∨
      (w.rc = -enospc ∧ w.handle.lghHdr = handle.lghHdr ∧ w.handle.lghLastIdx = handle.lghLastIdx + 1) := by
  rcases llogOsdWriteRec_outcome plain ran with ⟨-, -, same⟩ | ⟨full, -, hdr, last⟩ |
    ⟨index, above, inside, -, ⟨-, -, last, hdr⟩ | ⟨-, -, atLeast, below, hdr⟩⟩
  · rw [same]
    exact .inl consistent
  · exact .inr ⟨full, hdr, last⟩
  · rw [hdr, last]
    exact .inl (consistent.toCounted.takeIndex above inside reclen)
  · rw [hdr]
    exact .inl (consistent.toCounted.restore_consistent atLeast (Nat.lt_trans below inside) _)

/-- A cancel keeps the count, and what the header is meant to keep. -/
theorem LlogLogHdr.Counted.llogCancelRec {handle : LlogHandle}
    (counted : handle.lghHdr.Counted handle.lghLastIdx) (index : Nat) (notCurrent : Bool)
    (fault : Option CancelFault) :
    (llogCancelRec handle index notCurrent fault).2.lghHdr.Counted
      (llogCancelRec handle index notCurrent fault).2.lghLastIdx := by
  rcases llogCancelRec_cases handle index notCurrent fault with same | ⟨-, notZero, live, cleared⟩
  · rw [same]
    exact counted
  · rw [cleared]
    exact counted.erase notZero live

theorem LlogLogHdr.Consistent.llogCancelRec {handle : LlogHandle}
    (consistent : handle.lghHdr.Consistent handle.lghLastIdx) (index : Nat) (notCurrent : Bool)
    (fault : Option CancelFault) :
    (llogCancelRec handle index notCurrent fault).2.lghHdr.Consistent
      (llogCancelRec handle index notCurrent fault).2.lghLastIdx := by
  rcases llogCancelRec_cases handle index notCurrent fault with same | ⟨-, notZero, live, cleared⟩
  · rw [same]
    exact consistent
  · rw [cleared]
    exact consistent.erase notZero live

/-- On a plain llog that keeps the count, past the padding an append never
stops: the index after the last one lies inside the bitmap when the llog is not
full, and its bit is clear. -/
theorem LlogLogHdr.Counted.appendIndex_ne_none {handle : LlogHandle} {last : Nat}
    (counted : handle.lghHdr.Counted last) (atLast : last ≤ handle.lghLastIdx)
    (plain : ¬ handle.lghHdr.isCat) (orig : LlogHandle) (reclen : Nat) (cookie : Bool)
    (fault : Option AppendFault) : appendIndex handle orig reclen cookie fault ≠ none := by
  have roomy : 0 < handle.lghHdr.bitmapSize.toNat := counted.insideBitmap 0 counted.headerBit
  unfold appendIndex
  split
  · exact Option.some_ne_none _
  · next notFull =>
    have room : handle.lghLastIdx + 1 < handle.lghHdr.bitmapSize.toNat := by
      have := mt (llogIsFull_iff roomy).mpr (fun full => notFull ⟨full, plain⟩)
      omega
    have fresh : handle.lghLastIdx + 1 ∉ handle.lghHdr.llhBitmap := fun mem => by
      have := counted.belowLast _ mem
      omega
    rw [nextIndex_of_plain plain notFull, if_neg (not_not_intro room), if_neg fresh]
    exact Option.some_ne_none _

/-- On a plain llog that keeps the count, an append never reaches the `LBUG` on
a bit already set, nor `LASSERT(index < LLOG_HDR_BITMAP_SIZE)`: it stops only
on the assertions about the record size of a fixed-size llog and about the size
of a padding record. -/
theorem llogOsdWriteRec_eq_none_of_counted {handle : LlogHandle}
    (counted : handle.lghHdr.Counted handle.lghLastIdx) (plain : ¬ handle.lghHdr.isCat)
    {reclen : Nat} {cookie : Bool} {fault : Option AppendFault}
    (stops : llogOsdWriteRec handle reclen cookie fault = none) :
    (handle.lghHdr.isFixsize ∧ (handle.lghHdr.llhSize = 0 ∨ handle.lghHdr.llhSize.toNat ≠ reclen)) ∨
      (handle.chunkLeft ≠ 0 ∧ handle.chunkLeft ≠ reclen ∧ handle.chunkLeft < reclen + llogMinRecSize ∧
        ¬ (llogMinRecSize ≤ handle.chunkLeft ∧ handle.chunkLeft % 8 = 0)) := by
  dsimp only [llogOsdWriteRec] at stops
  split at stops
  · cases stops
  · split at stops
    · next fixsize => exact .inl fixsize
    · split at stops
      · cases stops
      · split at stops
        · next padded =>
          split at stops
          · next badPad => exact .inr ⟨padded.1, padded.2.1, padded.2.2, badPad⟩
          · split at stops
            · cases stops
            · -- the padding record took an index without a bit
              exact absurd stops (@LlogLogHdr.Counted.appendIndex_ne_none (handle.pad handle.chunkLeft)
                handle.lghLastIdx counted (Nat.le_succ _) plain handle reclen cookie fault)
        · exact absurd stops (counted.appendIndex_ne_none (Nat.le_refl _) plain _ _ _ _)

theorem llogOsdWriteRec_eq_none_of_counted_fixsize :
    let handle := llogReadHeaderEmpty 8192 (llogFIsPlain ||| llogFIsFixsize) false
    (handle.lghHdr.isFixsize ∧ (handle.lghHdr.llhSize = 0 ∨ handle.lghHdr.llhSize.toNat ≠ 64)) ∨
      (handle.chunkLeft ≠ 0 ∧ handle.chunkLeft ≠ 64 ∧ handle.chunkLeft < 64 + llogMinRecSize ∧
        ¬ (llogMinRecSize ≤ handle.chunkLeft ∧ handle.chunkLeft % 8 = 0)) :=
  llogOsdWriteRec_eq_none_of_counted
    (show (llogReadHeaderEmpty 8192 (llogFIsPlain ||| llogFIsFixsize) false).lghHdr.Counted 0 from
      ⟨Finset.mem_singleton_self 0, rfl, fun i mem => by rw [Finset.mem_singleton.mp mem]; decide,
        fun i mem => Nat.le_of_eq (Finset.mem_singleton.mp mem), Nat.le_refl 0⟩)
    (by decide) (show llogOsdWriteRec _ 64 false none = none from rfl)

/-- A cancel leaves the flags alone, so a plain llog stays plain. -/
theorem llogCancelRec_isCat (handle : LlogHandle) (index : Nat) (notCurrent : Bool)
    (fault : Option CancelFault) :
    (llogCancelRec handle index notCurrent fault).2.lghHdr.isCat = handle.lghHdr.isCat := by
  rcases llogCancelRec_cases handle index notCurrent fault with same | ⟨-, -, -, cleared⟩
  · rw [same]
  · rw [cleared]
    rfl

/-- The header `llog_read_header` makes for an empty plain llog keeps what the
header is meant to keep, when its bitmap has room for the header's bit. -/
theorem llogReadHeaderEmpty_consistent {chunkSize : UInt32} (remote : Bool)
    (roomy : 0 < (hdrBitmapSize chunkSize llhBitmapOffsetof).toNat) :
    (llogReadHeaderEmpty chunkSize llogFIsPlain remote).lghHdr.Consistent 0 where
  headerBit := Finset.mem_singleton_self 0
  counted := rfl
  insideBitmap := fun i mem => by
    rw [Finset.mem_singleton.mp mem]
    exact roomy
  belowLast := fun i mem => Nat.le_of_eq (Finset.mem_singleton.mp mem)
  tailBelow := Nat.le_refl 0
  tailIsLast := rfl
  lastBelow := roomy

/-- Over every run from an empty plain llog, whatever appends and cancels it
makes and whichever of their storage calls fail, the header keeps the count:
its own bit is set, `llh_count` counts the set bits, which lie inside the
bitmap and at or below the last index, and so does the tail. -/
theorem counted_of_run {chunkSize : UInt32} {remote : Bool}
    (roomy : 0 < (hdrBitmapSize chunkSize llhBitmapOffsetof).toNat) (events : List LlogEvent)
    {handle : LlogHandle}
    (ran : Machine.run llogStep (some (llogReadHeaderEmpty chunkSize llogFIsPlain remote)) events = some handle) :
    handle.lghHdr.Counted handle.lghLastIdx := by
  let invariant : Option LlogHandle → Prop := fun state =>
    ∀ handle, state = some handle → handle.lghHdr.Counted handle.lghLastIdx ∧ ¬ handle.lghHdr.isCat
  have holdsAtStart : invariant (some (llogReadHeaderEmpty chunkSize llogFIsPlain remote)) := by
    rintro _ ⟨⟩
    have plain : (llogReadHeaderEmpty chunkSize llogFIsPlain remote).lghHdr.isCat = false := by
      show decide (llogFIsPlain &&& llogFIsCat ≠ 0) = false
      decide
    exact ⟨(llogReadHeaderEmpty_consistent remote roomy).toCounted, by simp [plain]⟩
  have preserved : ∀ state event, invariant state → Machine.anyEvent state event →
      invariant (llogStep state event) := by
    rintro (_ | before) event holds - after stepped
    · cases stepped
    · obtain ⟨counted, plain⟩ := holds before rfl
      cases event with
      | append reclen cookie fault =>
        obtain ⟨w, ran, rfl⟩ := Option.map_eq_some_iff.mp stepped
        exact counted.llogOsdWriteRec plain ran
      | cancel index notCurrent fault =>
        cases stepped
        exact ⟨counted.llogCancelRec index notCurrent fault, by rwa [llogCancelRec_isCat]⟩
  exact (Machine.Reachable.invariant invariant holdsAtStart preserved
    (Machine.Reachable.start.run events) handle ran).1

theorem counted_of_run_one_append :
    ∃ handle, Machine.run llogStep (some (llogReadHeaderEmpty 8192 llogFIsPlain false))
        [.append 64 false none] = some handle ∧ handle.lghHdr.Counted handle.lghLastIdx :=
  ⟨_, rfl, @counted_of_run 8192 false (by decide) [.append 64 false none] _ rfl⟩

/-! ## A plain llog filled to its last slot -/

/-- The handle of a plain llog in a local object of 8192-byte chunks after `k`
appends of 64-byte records: the header chunk, then the records back to back. -/
def filledPlainLlog (k : Nat) : LlogHandle where
  lghHdr := {
    lrhLen := 8192
    llhCount := (k + 1).toUInt32
    llhBitmapOffset := llhBitmapOffsetof
    llhSize := if k = 0 then 0 else 64
    llhFlags := llogFIsPlain
    llhCatIdx := 0
    llhBitmap := Finset.range (k + 1)
    lrtIndex := k.toUInt32 }
  lghLastIdx := k
  lghWriteOffset := 0
  laSize := if k = 0 then 0 else 8192 + 64 * k
  remote := false

theorem filledPlainLlog_zero : filledPlainLlog 0 = llogReadHeaderEmpty 8192 llogFIsPlain false := by
  simp [filledPlainLlog, llogReadHeaderEmpty]

/-- The bitmap of an 8192-byte header has 64768 slots. -/
theorem filledPlainLlog_bitmapSize (k : Nat) : (filledPlainLlog k).lghHdr.bitmapSize.toNat = 64768 := by
  show (hdrBitmapSize 8192 llhBitmapOffsetof).toNat = 64768
  decide

theorem filledPlainLlog_chunkLeft (k : Nat) :
    (filledPlainLlog k).chunkLeft = 8192 - (if k = 0 then 0 else 8192 + 64 * k) % 8192 := by
  show 8192 - ((if k = 0 then 0 else 8192 + 64 * k) &&& (8192 - 1)) = _
  rw [show (8192 - 1 : Nat) = 2 ^ 13 - 1 from rfl, Nat.and_two_pow_sub_one_eq_mod]

theorem filledPlainLlog_isFixsize (k : Nat) : ¬ (filledPlainLlog k).lghHdr.isFixsize := by
  show ¬ decide (llogFIsPlain &&& llogFIsFixsize ≠ 0) = true
  decide

/-- The filled llog keeps what its header is meant to keep. -/
theorem filledPlainLlog_consistent {k : Nat} (room : k < 64768) :
    (filledPlainLlog k).lghHdr.Consistent k where
  headerBit := Finset.mem_range.mpr (Nat.succ_pos k)
  counted := by
    show (k + 1).toUInt32.toNat = (Finset.range (k + 1)).card
    rw [Finset.card_range, UInt32.toNat_ofNat']
    exact Nat.mod_eq_of_lt (by omega)
  insideBitmap := fun i mem => by
    rw [filledPlainLlog_bitmapSize]
    have := Finset.mem_range.mp mem
    omega
  belowLast := fun i mem => Nat.le_of_lt_succ (Finset.mem_range.mp mem)
  tailBelow := by
    show k.toUInt32.toNat ≤ k
    rw [UInt32.toNat_ofNat']
    exact Nat.mod_le k _
  tailIsLast := by
    show k.toUInt32.toNat = k
    rw [UInt32.toNat_ofNat']
    exact Nat.mod_eq_of_lt (by omega)
  lastBelow := by
    rw [filledPlainLlog_bitmapSize]
    exact room

/-- A 64-byte record fits the chunk the filled llog ends in, so no padding
record is written, and takes the next slot while one is left. -/
theorem llogOsdWriteRec_filledPlainLlog {k : Nat} (room : k < 64767) :
    llogOsdWriteRec (filledPlainLlog k) 64 false none = some ⟨0, none, filledPlainLlog (k + 1)⟩ := by
  have size := filledPlainLlog_bitmapSize k
  have notFix := filledPlainLlog_isFixsize k
  -- the object ends on a multiple of 64 bytes, so what is left of its chunk is 64 or at least 128
  have noPad : ¬ ((filledPlainLlog k).chunkLeft ≠ 0 ∧ (filledPlainLlog k).chunkLeft ≠ 64 ∧
      (filledPlainLlog k).chunkLeft < 64 + llogMinRecSize) := by
    rw [filledPlainLlog_chunkLeft]
    simp only [llogMinRecSize]
    split <;> omega
  have notFull : ¬ llogIsFull (filledPlainLlog k) := by
    rw [llogIsFull_iff (by omega), size]
    exact fun full => by simp only [filledPlainLlog] at full; omega
  have next : (filledPlainLlog k).nextIndex = k + 1 := by
    simp only [LlogHandle.nextIndex, notFull]
    rfl
  have inside : k + 1 < (filledPlainLlog k).lghHdr.bitmapSize.toNat := by omega
  have fresh : k + 1 ∉ (filledPlainLlog k).lghHdr.llhBitmap := by simp [filledPlainLlog]
  have chunk : (filledPlainLlog k).lghHdr.lrhLen.toNat = 8192 := rfl
  have sizeAfter : (filledPlainLlog k).lghHdr.nextSize 64 = 64 := by
    simp only [LlogLogHdr.nextSize, notFix]
    by_cases empty : k = 0 <;> simp [filledPlainLlog, empty]
  have notFixAfter : ¬ ((filledPlainLlog k).takeIndex (k + 1) 64).lghHdr.isFixsize := notFix
  unfold llogOsdWriteRec appendIndex
  simp only [noPad, notFull, notFix, next, inside, fresh, chunk, Bool.false_eq_true, false_and,
    reduceCtorEq, if_false, not_true_eq_false, gt_iff_lt]
  rw [if_neg (by decide), appendWrite_local _ _ _ _ _ notFixAfter rfl]
  simp only [Bool.false_eq_true, if_false, Option.some.injEq, WriteOutcome.mk.injEq, true_and]
  -- what is left is the handle after the append, field by field
  have count : (k + 1).toUInt32 + 1 = (k + 1 + 1).toUInt32 := (UInt32.ofNat_add (k + 1) 1).symm
  have bitmap : insert (k + 1) (Finset.range (k + 1)) = Finset.range (k + 1 + 1) :=
    Finset.range_add_one.symm
  have laSize : max (if k = 0 then 0 else 8192 + 64 * k) 8192 + 64 = 8192 + 64 * (k + 1) := by
    split <;> omega
  simp only [LlogHandle.takeIndex, sizeAfter]
  simp only [filledPlainLlog, Nat.add_one_ne_zero, if_false, UInt32.reduceToNat, count, bitmap, laSize]

/-- Appends of 64-byte records fill the llog one slot each. -/
theorem run_filledPlainLlog (n : Nat) :
    ∀ j, j + n < 64768 → Machine.run llogStep (some (filledPlainLlog j))
      (List.replicate n (.append 64 false none)) = some (filledPlainLlog (j + n)) := by
  induction n with
  | zero => intro j _; rfl
  | succ n ih =>
    intro j room
    rw [List.replicate_succ, Machine.run_cons]
    have stepped : llogStep (some (filledPlainLlog j)) (.append 64 false none) = some (filledPlainLlog (j + 1)) := by
      simp only [llogStep, llogOsdWriteRec_filledPlainLlog (show j < 64767 by omega), Option.map_some]
    rw [stepped, ih (j + 1) (by omega), Nat.add_right_comm, Nat.add_assoc]

/-- After 64766 appends of 64-byte records an empty plain llog of 8192-byte
chunks keeps its bookkeeping, and 128 bytes are left in its last chunk.  A
112-byte record does not fit with room for another record behind it, so the
append writes a padding record that takes index 64767; the llog is then full,
and the append answers `-ENOSPC` with the last index at 64767 and the tail of
the header still at 64766. -/
theorem llogOsdWriteRec_pad_leaves_tail_behind :
    Machine.run llogStep (some (llogReadHeaderEmpty 8192 llogFIsPlain false))
        (List.replicate 64766 (.append 64 false none)) = some (filledPlainLlog 64766) ∧
      (filledPlainLlog 64766).lghHdr.Consistent 64766 ∧
      llogOsdWriteRec (filledPlainLlog 64766) 112 false none =
        some ⟨-enospc, none, (filledPlainLlog 64766).pad 128⟩ ∧
      ((filledPlainLlog 64766).pad 128).lghLastIdx = 64767 ∧
      ((filledPlainLlog 64766).pad 128).lghHdr.lrtIndex.toNat = 64766 := by
  have left : (filledPlainLlog 64766).chunkLeft = 128 := by
    rw [filledPlainLlog_chunkLeft]
    decide
  have full : llogIsFull ((filledPlainLlog 64766).pad 128) := by
    rw [llogIsFull_iff (by rw [LlogHandle.pad_lghHdr, filledPlainLlog_bitmapSize]; decide),
      LlogHandle.pad_lghHdr, filledPlainLlog_bitmapSize]
    decide
  have plain : ¬ ((filledPlainLlog 64766).pad 128).lghHdr.isCat := by
    show ¬ decide (llogFIsPlain &&& llogFIsCat ≠ 0) = true
    decide
  refine ⟨?_, filledPlainLlog_consistent (by decide), ?_, rfl, rfl⟩
  · rw [← filledPlainLlog_zero]
    exact run_filledPlainLlog 64766 0 (by decide)
  · have chunk : (filledPlainLlog 64766).lghHdr.lrhLen.toNat = 8192 := rfl
    unfold llogOsdWriteRec appendIndex
    simp only [left, chunk, filledPlainLlog_isFixsize, full, plain, llogMinRecSize, reduceCtorEq,
      Bool.false_eq_true, false_and, if_false, not_false_eq_true, and_self, if_true]
    rw [if_neg (by decide), if_pos (by decide), if_neg (by decide)]

end Lustre.Llog
