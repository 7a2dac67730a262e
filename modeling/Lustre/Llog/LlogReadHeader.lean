import Lustre.Llog.LlogOsd
import Lustre.Library.Bytes

/-!
# Reading the llog header from disk (obdclass/llog_osd.c, obdclass/llog_swab.c)

`llog_init_handle` allocates a zeroed header buffer of one chunk,
`lgh_hdr_size` bytes, and puts the flags it was given into `llh_flags`.
`llog_osd_read_header` then reads the first `lgh_hdr_size` bytes of the llog
object into it, swabs a header written on a host of the other byte order, and
checks what it read: the length read against `lrh_len`, the magic, `lrh_len`
against the chunk and the buffer, and the tail that `lrh_len` locates.  On
success the tail's index becomes the last index of the handle.

The buffer is a list of bytes and the fields of struct llog_log_hdr are read at
their offsets: `lrh_len` at 0, `lrh_type` at 8, `llh_bitmap_offset` at 28,
`llh_flags` at 36, the tail's `lrt_len` and `lrt_index` at `lrh_len - 8` and
`lrh_len - 4`.  An access outside the buffer, or a failed `LASSERT`, is `none`.

`llh_bitmap_offset` is read but never checked: an accepted header may put its
bitmap anywhere, and `LLOG_HDR_BITMAP_SIZE` is then computed from a difference
that wraps around.
-/

namespace Lustre.Llog

open Bytes

/-- LLOG_F_EXT_MASK (LLOG_F_EXT_JOBID) -/
def llogFExtMask : UInt32 := 0x8

/-- __swab32 -/
def swab32 (x : UInt32) : UInt32 := (decodeBe (encodeLe 4 x.toNat)).toUInt32

/-- The 32-bit field at `off` of the header buffer, little-endian. -/
def hdrField (buf : List UInt8) (off : Nat) : Option UInt32 :=
  (readLe buf off 4).map Nat.toUInt32

theorem hdrField_eq (buf : List UInt8) (off : Nat) : hdrField buf off = (readLe buf off 4).map Nat.toUInt32 := rfl

/-- Store a 32-bit field at `off` of the header buffer. -/
def setHdrField (buf : List UInt8) (off : Nat) (value : UInt32) : List UInt8 :=
  overwrite buf off (encodeLe 4 value.toNat)

theorem setHdrField_eq (buf : List UInt8) (off : Nat) (value : UInt32) :
    setHdrField buf off value = overwrite buf off (encodeLe 4 value.toNat) := rfl

/-- __swab32s and __swab64s on the buffer: the `width` bytes at `off` in the
other order. -/
def swabAt (buf : List UInt8) (off width : Nat) : Option (List UInt8) :=
  (slice buf off width).map fun bytes => overwrite buf off bytes.reverse

/-- The swabs of a list of fields, `(offset, width)`, in order. -/
def swabFields (buf : List UInt8) : List (Nat × Nat) → Option (List UInt8)
  | [] => some buf
  | (off, width) :: fields => (swabAt buf off width).bind fun buf => swabFields buf fields

/-- LLOG_HDR_TAIL: the tail lies `lrh_len - sizeof(llh_tail)` bytes into the
buffer, and before the buffer when `lrh_len` is below 8. -/
def hdrTailOffset (lrhLen : UInt32) : Option Nat :=
  if 8 ≤ lrhLen.toNat then some (lrhLen.toNat - 8) else none

/-- lustre_swab_llog_hdr, that is lustre_swab_llog_rec on the header: the
record header first; when it then reads as a llog header, the header fields,
and the tail found through the swabbed `lrh_len`.  The swabbing of the other
record types is not modelled (the header read rejects their type). -/
def lustreSwabLlogHdr (buf : List UInt8) : Option (List UInt8) := do
  let buf ← swabFields buf [(0, 4), (4, 4), (8, 4), (12, 4)]
  if (← hdrField buf 8) = llogHdrMagic then
    let buf ← swabFields buf [(16, 8), (24, 4), (28, 4), (36, 4), (32, 4), (40, 4)]
    let tail ← hdrTailOffset (← hdrField buf 0)
    swabFields buf [(tail, 4), (tail + 4, 4)]
  else pure buf

/-- LLOG_REC_HDR_NEEDS_SWABBING -/
def llogRecHdrNeedsSwabbing (lrhType : UInt32) : Bool :=
  lrhType &&& swab32 llogOpMask = swab32 llogOpMagic

/-- What `llog_osd_read_header` leaves when it accepts the header: the header
buffer, and the last index and the write offset of the handle. -/
structure HeaderRead where
  buf : List UInt8
  lghLastIdx : Nat
  lghWriteOffset : Nat
  deriving DecidableEq

/-- The buffer `llog_init_handle` allocates, zeroed, with the flags put in. -/
def initialHdrBuffer (hdrSize : Nat) (flags : UInt32) : List UInt8 :=
  setHdrField (List.replicate hdrSize 0) 36 flags

/-- The header buffer once `dt_read` has read the first `hdrSize` bytes of the
object into it. -/
def readHdrBuffer (content : List UInt8) (hdrSize : Nat) (flags : UInt32) : List UInt8 :=
  overwrite (initialHdrBuffer hdrSize flags) 0 (content.take hdrSize)

theorem readHdrBuffer_eq (content : List UInt8) (hdrSize : Nat) (flags : UInt32) :
    readHdrBuffer content hdrSize flags = overwrite (initialHdrBuffer hdrSize flags) 0 (content.take hdrSize) := rfl

/-- The checks of `llog_osd_read_header` on the header once it is in host
order: the magic, the length against the chunk and the buffer, and the tail
that the length locates.  `laSize` is the size of the object. -/
def llogOsdCheckHeader (buf : List UInt8) (hdrSize : Nat) (flags : UInt32) (laSize : Nat) :
    Option (Except Int HeaderRead) := do
  let lrhLen ← hdrField buf 0
  if (← hdrField buf 8) ≠ llogHdrMagic then pure (.error (-eio))
  else if lrhLen.toNat < llogMinChunkSize ∨ hdrSize < lrhLen.toNat then pure (.error (-eio))
  else
    let lrtLen ← hdrField buf (lrhLen.toNat - 8)
    let lrtIndex ← hdrField buf (lrhLen.toNat - 4)
    if lrtIndex > hdrBitmapSize lrhLen (← hdrField buf 28) ∨ lrtLen ≠ lrhLen then pure (.error (-eio))
    else
      let llhFlags ← hdrField buf 36
      pure (.ok ⟨setHdrField buf 36 (llhFlags ||| (flags &&& llogFExtMask)), lrtIndex.toNat, laSize⟩)

/-- llog_osd_read_header on an object whose bytes are `content`, into the
buffer of `hdrSize` bytes (the chunk size, at least LLOG_MIN_CHUNK_SIZE by the
LASSERT of `llog_init_handle`).  The error codes are `.error`; `LLOG_EEMPTY`
is one too. -/
def llogOsdReadHeader (content : List UInt8) (hdrSize : Nat) (flags : UInt32) :
    Option (Except Int HeaderRead) := do
  if hdrSize < llogMinChunkSize then none
  else if content.length = 0 then pure (.error llogEempty)
  else
    -- dt_read of lgh_hdr_size bytes at offset 0
    let rc := min content.length hdrSize
    let buf := readHdrBuffer content hdrSize flags
    if rc < 16 ∨ rc < (← hdrField buf 0).toNat then pure (.error (-efault))
    else
      let buf ← if llogRecHdrNeedsSwabbing (← hdrField buf 8) then lustreSwabLlogHdr buf else pure buf
      llogOsdCheckHeader buf hdrSize flags content.length

/-! ## Fields and lengths of the buffer -/

theorem length_setHdrField {buf : List UInt8} {off : Nat} (inside : off + 4 ≤ buf.length) (value : UInt32) :
    (setHdrField buf off value).length = buf.length :=
  length_overwrite (by rw [length_encodeLe]; exact inside)

theorem hdrField_setHdrField_of_add_le {buf : List UInt8} {off pos : Nat} (before : off + 4 ≤ pos)
    (fits : pos ≤ buf.length) (value : UInt32) : hdrField (setHdrField buf pos value) off = hdrField buf off := by
  rw [hdrField_eq, setHdrField_eq, readLe_overwrite_of_add_le before fits, hdrField_eq]

theorem hdrField_setHdrField_of_le {buf : List UInt8} {off pos : Nat} (after : pos + 4 ≤ off)
    (fits : pos + 4 ≤ buf.length) (value : UInt32) : hdrField (setHdrField buf pos value) off = hdrField buf off := by
  rw [hdrField_eq, setHdrField_eq, readLe_overwrite_of_le (by rw [length_encodeLe]; exact after)
    (by rw [length_encodeLe]; exact fits), hdrField]

theorem length_initialHdrBuffer {hdrSize : Nat} (big : llogMinChunkSize ≤ hdrSize) (flags : UInt32) :
    (initialHdrBuffer hdrSize flags).length = hdrSize := by
  unfold llogMinChunkSize at big
  rw [initialHdrBuffer, length_setHdrField (by rw [List.length_replicate]; omega), List.length_replicate]

/-- The read leaves the buffer one chunk long. -/
theorem length_readHdrBuffer {content : List UInt8} {hdrSize : Nat} (big : llogMinChunkSize ≤ hdrSize)
    (flags : UInt32) : (readHdrBuffer content hdrSize flags).length = hdrSize := by
  rw [readHdrBuffer_eq, length_overwrite (by rw [List.length_take, length_initialHdrBuffer big]; omega),
    length_initialHdrBuffer big]

/-- An object of one buffer's length fills the buffer. -/
theorem readHdrBuffer_of_length {content : List UInt8} {hdrSize : Nat} (big : llogMinChunkSize ≤ hdrSize)
    (oneChunk : content.length = hdrSize) (flags : UInt32) : readHdrBuffer content hdrSize flags = content := by
  rw [readHdrBuffer_eq, List.take_of_length_le (Nat.le_of_eq oneChunk)]
  exact overwrite_whole (by rw [length_initialHdrBuffer big, oneChunk])

theorem length_of_swabAt {buf swabbed : List UInt8} {off width : Nat}
    (swabs : swabAt buf off width = some swabbed) : swabbed.length = buf.length := by
  unfold swabAt at swabs
  obtain ⟨bytes, read, rfl⟩ := Option.map_eq_some_iff.mp swabs
  obtain ⟨sameWidth, fits⟩ := length_of_slice_eq_some read
  exact length_overwrite (by rw [List.length_reverse]; omega)

theorem length_of_swabFields {fields : List (Nat × Nat)} :
    ∀ {buf swabbed : List UInt8}, swabFields buf fields = some swabbed → swabbed.length = buf.length := by
  induction fields with
  | nil =>
    intro buf swabbed swabs
    cases swabs
    rfl
  | cons field fields ih =>
    intro buf swabbed swabs
    obtain ⟨off, width⟩ := field
    obtain ⟨next, first, rest⟩ := Option.bind_eq_some_iff.mp swabs
    rw [ih rest, length_of_swabAt first]

/-- Swabbing moves bytes within the buffer and keeps its length. -/
theorem length_of_lustreSwabLlogHdr {buf swabbed : List UInt8} (swabs : lustreSwabLlogHdr buf = some swabbed) :
    swabbed.length = buf.length := by
  simp only [lustreSwabLlogHdr, Option.bind_eq_bind, Option.bind_eq_some_iff] at swabs
  obtain ⟨recordSwabbed, record, lrhType, -, rest⟩ := swabs
  rw [← length_of_swabFields record]
  split at rest
  · simp only [Option.bind_eq_some_iff] at rest
    obtain ⟨fieldsSwabbed, fieldsDone, -, -, tail, -, tailDone⟩ := rest
    rw [length_of_swabFields tailDone, length_of_swabFields fieldsDone]
  · cases rest
    rfl

/-! ## What an accepted header holds -/

/-- The checks accept exactly a header with the magic, a length between the
smallest chunk and the buffer, and a tail that repeats the length and holds an
index no larger than `LLOG_HDR_BITMAP_SIZE`; `llh_bitmap_offset` is read for
that size and for nothing else. -/
theorem llogOsdCheckHeader_eq_ok_iff {buf : List UInt8} {hdrSize : Nat} {flags : UInt32} {laSize : Nat}
    {read : HeaderRead} :
    llogOsdCheckHeader buf hdrSize flags laSize = some (.ok read) ↔
      ∃ lrhLen offset lrtIndex llhFlags : UInt32,
        hdrField buf 0 = some lrhLen ∧ hdrField buf 8 = some llogHdrMagic ∧
        llogMinChunkSize ≤ lrhLen.toNat ∧ lrhLen.toNat ≤ hdrSize ∧
        hdrField buf (lrhLen.toNat - 8) = some lrhLen ∧ hdrField buf (lrhLen.toNat - 4) = some lrtIndex ∧
        hdrField buf 28 = some offset ∧ lrtIndex ≤ hdrBitmapSize lrhLen offset ∧
        hdrField buf 36 = some llhFlags ∧
        read = ⟨setHdrField buf 36 (llhFlags ||| (flags &&& llogFExtMask)), lrtIndex.toNat, laSize⟩ := by
  constructor
  · intro accepted
    simp only [llogOsdCheckHeader, Option.bind_eq_bind, Option.bind_eq_some_iff] at accepted
    obtain ⟨lrhLen, len, lrhType, typ, accepted⟩ := accepted
    split at accepted
    · cases accepted
    · next isMagic =>
      rw [not_not] at isMagic
      subst isMagic
      split at accepted
      · cases accepted
      · next sized =>
        simp only [Option.bind_eq_some_iff] at accepted
        obtain ⟨lrtLen, tailLen, lrtIndex, tailIndex, offset, off, accepted⟩ := accepted
        split at accepted
        · cases accepted
        · next tailOk =>
          simp only [Option.bind_eq_some_iff, Option.pure_def, Option.some.injEq, Except.ok.injEq] at accepted
          obtain ⟨llhFlags, fl, rfl⟩ := accepted
          rw [not_or, not_not] at tailOk
          obtain ⟨inside, rfl⟩ := tailOk
          exact ⟨lrtLen, offset, lrtIndex, llhFlags, len, typ, by omega, by omega, tailLen, tailIndex, off,
            UInt32.not_lt.mp inside, fl, rfl⟩
  · rintro ⟨lrhLen, offset, lrtIndex, llhFlags, len, typ, big, fits, tailLen, tailIndex, off, inside, fl, rfl⟩
    have sized : ¬ (lrhLen.toNat < llogMinChunkSize ∨ hdrSize < lrhLen.toNat) := by omega
    have notAbove : ¬ lrtIndex > hdrBitmapSize lrhLen offset := fun above => UInt32.not_le.mpr above inside
    simp only [llogOsdCheckHeader, len, typ, tailLen, tailIndex, off, fl, sized, notAbove, Option.bind_eq_bind,
      Option.bind_some, Option.pure_def, ne_eq, not_true_eq_false, if_false, or_self]

/-- An accepted header went through the checks on a buffer of one chunk. -/
theorem llogOsdReadHeader_checked {content : List UInt8} {hdrSize : Nat} {flags : UInt32} {read : HeaderRead}
    (accepted : llogOsdReadHeader content hdrSize flags = some (.ok read)) :
    llogMinChunkSize ≤ hdrSize ∧ ∃ buf, buf.length = hdrSize ∧
      llogOsdCheckHeader buf hdrSize flags content.length = some (.ok read) := by
  unfold llogOsdReadHeader at accepted
  split at accepted
  · cases accepted
  · next big =>
    have big : llogMinChunkSize ≤ hdrSize := Nat.le_of_not_lt big
    split at accepted
    · simp at accepted
    · simp only [Option.bind_eq_bind, Option.bind_eq_some_iff] at accepted
      obtain ⟨lrhLen, -, accepted⟩ := accepted
      split at accepted
      · simp at accepted
      · obtain ⟨lrhType, -, accepted⟩ := Option.bind_eq_some_iff.mp accepted
        split at accepted
        · -- a header in the other byte order is swabbed in place
          obtain ⟨buf, swabbed, checked⟩ := Option.bind_eq_some_iff.mp accepted
          exact ⟨big, buf, by rw [length_of_lustreSwabLlogHdr swabbed, length_readHdrBuffer big flags], checked⟩
        · rw [Option.pure_def, Option.bind_some] at accepted
          exact ⟨big, _, length_readHdrBuffer big flags, accepted⟩

/-- What an accepted header holds: the buffer is one chunk, `lrh_len` lies
between the smallest chunk and the buffer, the tail it locates lies inside the
buffer and repeats it, and the last index is the tail's index, no larger than
`LLOG_HDR_BITMAP_SIZE` as the macro computes it from `llh_bitmap_offset`. -/
theorem llogOsdReadHeader_accepted {content : List UInt8} {hdrSize : Nat} {flags : UInt32} {read : HeaderRead}
    (accepted : llogOsdReadHeader content hdrSize flags = some (.ok read)) :
    ∃ lrhLen offset lrtIndex : UInt32,
      read.buf.length = hdrSize ∧ llogMinChunkSize ≤ lrhLen.toNat ∧ lrhLen.toNat ≤ hdrSize ∧
      hdrField read.buf 0 = some lrhLen ∧ hdrField read.buf 28 = some offset ∧
      hdrField read.buf (lrhLen.toNat - 8) = some lrhLen ∧ hdrField read.buf (lrhLen.toNat - 4) = some lrtIndex ∧
      lrtIndex ≤ hdrBitmapSize lrhLen offset ∧ read.lghLastIdx = lrtIndex.toNat ∧
      read.lghWriteOffset = content.length := by
  obtain ⟨big, buf, oneChunk, checked⟩ := llogOsdReadHeader_checked accepted
  obtain ⟨lrhLen, offset, lrtIndex, llhFlags, len, -, chunk, fits, tailLen, tailIndex, off, inside, -, rfl⟩ :=
    llogOsdCheckHeader_eq_ok_iff.mp checked
  unfold llogMinChunkSize at big chunk
  have flagsFit : 36 + 4 ≤ buf.length := by omega
  -- the flags stored at 36 leave the length, the bitmap offset and the tail alone
  refine ⟨lrhLen, offset, lrtIndex, ?_, chunk, fits, ?_, ?_, ?_, ?_, inside, rfl, rfl⟩
  · rw [length_setHdrField flagsFit, oneChunk]
  · rw [hdrField_setHdrField_of_add_le (by omega) (by omega)]
    exact len
  · rw [hdrField_setHdrField_of_add_le (by omega) (by omega)]
    exact off
  · rw [hdrField_setHdrField_of_le (by omega) flagsFit]
    exact tailLen
  · rw [hdrField_setHdrField_of_le (by omega) flagsFit]
    exact tailIndex

/-- With the bitmap where it belongs, before the tail, `LLOG_HDR_BITMAP_SIZE`
is eight bits for each byte between them, cut to 32 bits. -/
theorem hdrBitmapSize_toNat {lrhLen offset : UInt32} (inside : offset.toNat + 8 ≤ lrhLen.toNat) :
    (hdrBitmapSize lrhLen offset).toNat = (lrhLen.toNat - offset.toNat - 8) * 8 % 2 ^ 32 := by
  have le : offset ≤ lrhLen := UInt32.le_iff_toNat_le.mpr (by omega)
  have between : (lrhLen - offset).toNat = lrhLen.toNat - offset.toNat := UInt32.toNat_sub_of_le _ _ le
  have small : lrhLen.toNat < 2 ^ 32 := UInt32.toNat_lt lrhLen
  have eight : (8 : UInt64) ≤ (lrhLen - offset).toUInt64 := by
    rw [UInt64.le_iff_toNat_le, UInt32.toNat_toUInt64, between]
    simp only [UInt64.reduceToNat]
    omega
  rw [hdrBitmapSize, UInt64.toNat_toUInt32, UInt64.toNat_mul, UInt64.toNat_sub_of_le _ _ eight,
    UInt32.toNat_toUInt64, between]
  simp only [UInt64.reduceToNat]
  omega

/-- An object at least one chunk long whose header is in host order, and not
longer than the buffer, goes straight to the checks. -/
theorem llogOsdReadHeader_eq_check {content : List UInt8} {hdrSize : Nat} {flags lrhLen lrhType : UInt32}
    (big : llogMinChunkSize ≤ hdrSize) (long : hdrSize ≤ content.length)
    (len : hdrField (readHdrBuffer content hdrSize flags) 0 = some lrhLen) (fits : lrhLen.toNat ≤ hdrSize)
    (typ : hdrField (readHdrBuffer content hdrSize flags) 8 = some lrhType)
    (hostOrder : llogRecHdrNeedsSwabbing lrhType = false) :
    llogOsdReadHeader content hdrSize flags =
      llogOsdCheckHeader (readHdrBuffer content hdrSize flags) hdrSize flags content.length := by
  unfold llogMinChunkSize at big
  have sized : ¬ hdrSize < llogMinChunkSize := by unfold llogMinChunkSize; omega
  have nonempty : content.length ≠ 0 := by omega
  have readAll : ¬ (min content.length hdrSize < 16 ∨ min content.length hdrSize < lrhLen.toNat) := by omega
  simp only [llogOsdReadHeader, sized, nonempty, len, typ, hostOrder, readAll, Option.bind_eq_bind,
    Option.bind_some, Option.pure_def, if_false, Bool.false_eq_true]

/-! ## A header whose bitmap lies outside the buffer -/

/-- The fields of a plain llog header in host order: `lrh_len` 8192, the
magic, `llh_count` 1, `llh_bitmap_offset` 65536, and `llh_flags` plain. -/
def farBitmapHeaderFields : List UInt8 :=
  encodeLe 4 8192 ++ encodeLe 4 0 ++ encodeLe 4 llogHdrMagic.toNat ++ encodeLe 4 0 ++ encodeLe 8 0 ++
    encodeLe 4 1 ++ encodeLe 4 65536 ++ encodeLe 4 0 ++ encodeLe 4 llogFIsPlain.toNat ++ encodeLe 4 0 ++
    encodeLe 4 0

/-- A one-chunk llog object with that header, zeroes, and a tail that repeats
the length and holds index 0. -/
def farBitmapLlogObject : List UInt8 :=
  farBitmapHeaderFields ++ (List.replicate 8136 0 ++ (encodeLe 4 8192 ++ encodeLe 4 0))

theorem farBitmapLlogObject_eq :
    farBitmapLlogObject = farBitmapHeaderFields ++ (List.replicate 8136 0 ++ (encodeLe 4 8192 ++ encodeLe 4 0)) :=
  rfl

theorem length_farBitmapHeaderFields : farBitmapHeaderFields.length = 48 := by decide

theorem length_farBitmapLlogObject : farBitmapLlogObject.length = 8192 := by
  simp only [farBitmapLlogObject_eq, List.length_append, List.length_replicate, length_farBitmapHeaderFields,
    length_encodeLe]

theorem hdrField_farBitmapLlogObject_front {off : Nat} (inside : off + 4 ≤ 48) :
    hdrField farBitmapLlogObject off = hdrField farBitmapHeaderFields off := by
  simp only [hdrField_eq, farBitmapLlogObject_eq,
    readLe_append_of_add_le (length_farBitmapHeaderFields ▸ inside)]

theorem hdrField_farBitmapLlogObject_tail {off : Nat} (after : 8184 ≤ off) :
    hdrField farBitmapLlogObject off = hdrField (encodeLe 4 8192 ++ encodeLe 4 0) (off - 8184) := by
  simp only [hdrField_eq, farBitmapLlogObject_eq]
  rw [readLe_append_of_le (by rw [length_farBitmapHeaderFields]; omega),
    readLe_append_of_le (by rw [List.length_replicate, length_farBitmapHeaderFields]; omega),
    List.length_replicate, length_farBitmapHeaderFields, Nat.sub_sub]

/-- `llog_osd_read_header` accepts the one-chunk object whose header puts the
bitmap at offset 65536: the length, the magic and the tail pass, and
`LLOG_HDR_BITMAP_SIZE`, computed from `8192 - 65536` in 32 bits, is
4294508480, so the tail's index 0 is below it.  The bitmap the handle then
uses starts 57344 bytes past the end of its 8192-byte buffer. -/
theorem llogOsdReadHeader_accepts_bitmap_outside :
    ∃ read, llogOsdReadHeader farBitmapLlogObject 8192 llogFIsPlain = some (.ok read) ∧
      read.buf.length = 8192 ∧ hdrField read.buf 0 = some 8192 ∧ hdrField read.buf 28 = some 65536 ∧
      read.lghLastIdx = 0 ∧ (hdrBitmapSize 8192 65536).toNat = 4294508480 := by
  have big : llogMinChunkSize ≤ 8192 := by decide
  have buf : readHdrBuffer farBitmapLlogObject 8192 llogFIsPlain = farBitmapLlogObject :=
    readHdrBuffer_of_length big length_farBitmapLlogObject llogFIsPlain
  have len : hdrField farBitmapLlogObject 0 = some 8192 := by
    rw [hdrField_farBitmapLlogObject_front (by omega)]
    decide
  have typ : hdrField farBitmapLlogObject 8 = some llogHdrMagic := by
    rw [hdrField_farBitmapLlogObject_front (by omega)]
    decide
  have off : hdrField farBitmapLlogObject 28 = some 65536 := by
    rw [hdrField_farBitmapLlogObject_front (by omega)]
    decide
  have fl : hdrField farBitmapLlogObject 36 = some llogFIsPlain := by
    rw [hdrField_farBitmapLlogObject_front (by omega)]
    decide
  have tailLen : hdrField farBitmapLlogObject 8184 = some 8192 := by
    rw [hdrField_farBitmapLlogObject_tail (by omega)]
    decide
  have tailIndex : hdrField farBitmapLlogObject 8188 = some 0 := by
    rw [hdrField_farBitmapLlogObject_tail (by omega)]
    decide
  have fits : 36 + 4 ≤ farBitmapLlogObject.length := by rw [length_farBitmapLlogObject]; omega
  rw [llogOsdReadHeader_eq_check big (Nat.le_of_eq length_farBitmapLlogObject.symm) (by rw [buf]; exact len)
    (by decide) (by rw [buf]; exact typ) (by decide), buf]
  refine ⟨_, llogOsdCheckHeader_eq_ok_iff.mpr ⟨8192, 65536, 0, llogFIsPlain, len, typ, by decide, by decide,
    tailLen, tailIndex, off, by decide, fl, rfl⟩, ?_, ?_, ?_, rfl, by decide⟩
  · rw [length_setHdrField fits, length_farBitmapLlogObject]
  · rw [hdrField_setHdrField_of_add_le (by omega) (by omega)]
    exact len
  · rw [hdrField_setHdrField_of_add_le (by omega) (by omega)]
    exact off

end Lustre.Llog
