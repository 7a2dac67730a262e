import Mathlib.Algebra.Order.BigOperators.Group.Finset
import Lustre.Library.Ledger
import Lustre.Library.Run

/-!
# Reply-data slots of a target

A target that serves clients with several modifying RPCs in flight keeps one
record per reply in the `reply_data` file, so that a resent request can have
its reply rebuilt after a restart.  Record `i` of the file is slot `i`; the
slots in use are bits of `lut_reply_bitmap`, sixteen chunks of `2^20` bits
allocated when first used.  Every export keeps its replies on
`ted_reply_list`, most recent first; the reply with the export's highest
transaction number is moved to `ted_reply_last` when the client says it got
it, so that the record stays on disk, and `ted_reply_cnt` counts both.

The model keeps the bitmap flat, slot `i` being bit `i % 2^20` of chunk
`i / 2^20` exactly as `tgt_set_reply_slot` splits it, together with which
chunks are allocated; a chunk is allocated zeroed.  The bit operations are
atomic and every list operation runs under the export's `ted_lcd_lock`, so a
run of whole operations is a linearisation of any interleaving of them.

Releasing and freeing keep the bitmap and the replies in step: on every run
whose record writes succeed, a bit is set exactly when one held reply has
that slot, and the count is the number of held replies.  A failed write of
the record breaks this: `tgt_add_reply_data` has already claimed the slot and
returns without clearing it, and its caller frees the reply.  It has also
raised `lcd_last_transno` to a reply that is then held nowhere.
-/

namespace Lustre
namespace TgtLastrcvd

/-! ## Constants and records -/

/-- `LUT_REPLY_SLOTS_PER_CHUNK`. -/
def lutReplySlotsPerChunk : Nat := 1 <<< 20

/-- `LUT_REPLY_SLOTS_MAX_CHUNKS`. -/
def lutReplySlotsMaxChunks : Nat := 16

/-- `ENOMEM`. -/
def enomem : Int := 12

/-- `EINVAL`. -/
def einval : Int := 22

/-- `ENOSPC`. -/
def enospc : Int := 28

/-- `EALREADY`. -/
def ealready : Int := 114

/-- The fields of `struct lsd_reply_data` these functions read. -/
structure LsdReplyData where
  /-- `lrd_transno`. -/
  lrdTransno : Nat
  /-- `lrd_xid`. -/
  lrdXid : Nat
  /-- `lrd_client_gen`. -/
  lrdClientGen : Nat
  deriving DecidableEq, Repr

/-- `struct tg_reply_data`. -/
structure TgReplyData where
  /-- `trd_reply`. -/
  trdReply : LsdReplyData
  /-- `trd_index`: the slot in `reply_data`. -/
  trdIndex : Nat
  /-- `trd_tag`. -/
  trdTag : Nat
  deriving DecidableEq, Repr

/-- The field of `struct lsd_client_data` these functions read. -/
structure LsdClientData where
  /-- `lcd_last_transno`. -/
  lcdLastTransno : Nat
  deriving DecidableEq, Repr

/-- The reply fields of `struct tg_export_data`, with the export's
`exp_last_committed`. -/
structure TgExportData where
  /-- `ted_lcd`; `none` once `tgt_client_free` has freed it. -/
  tedLcd : Option LsdClientData
  /-- `ted_reply_list`, most recently added first. -/
  tedReplyList : List TgReplyData
  /-- `ted_reply_last`. -/
  tedReplyLast : Option TgReplyData
  /-- `ted_reply_cnt`. -/
  tedReplyCnt : Int
  /-- `ted_reply_max`. -/
  tedReplyMax : Int
  /-- `ted_release_xid`. -/
  tedReleaseXid : Nat
  /-- `ted_release_tag`. -/
  tedReleaseTag : Nat
  /-- `exp_last_committed`. -/
  expLastCommitted : Nat
  deriving DecidableEq, Repr

/-- The reply-slot fields of `struct lu_target`. -/
structure LuTarget where
  /-- The bits of `lut_reply_bitmap`: slot `i` is bit
  `i % LUT_REPLY_SLOTS_PER_CHUNK` of chunk `i / LUT_REPLY_SLOTS_PER_CHUNK`. -/
  lutReplyBitmap : Nat → Bool
  /-- Whether `lut_reply_bitmap[chunk]` is allocated. -/
  lutReplyChunk : Nat → Bool
  /-- `lut_last_transno`. -/
  lutLastTransno : Nat

/-- A bitmap with bit `i` set to `v`. -/
def setBit (bits : Nat → Bool) (i : Nat) (v : Bool) : Nat → Bool :=
  fun j => if j = i then v else bits j

theorem setBit_apply (bits : Nat → Bool) (i : Nat) (v : Bool) (j : Nat) :
    setBit bits i v j = if j = i then v else bits j := rfl

@[simp] theorem setBit_self (bits : Nat → Bool) (i : Nat) (v : Bool) :
    setBit bits i v i = v := by
  simp [setBit_apply]

theorem setBit_of_ne {bits : Nat → Bool} {i j : Nat} (v : Bool) (different : j ≠ i) :
    setBit bits i v j = bits j := by
  simp [setBit_apply, different]

/-! ## The slot bitmap -/

/-- The scan of `find_first_zero_bit` from bit `b`, with `n` bits left. -/
def findZeroFrom (bits : Nat → Bool) : Nat → Nat → Nat
  | b, 0 => b
  | b, n + 1 => if bits b then findZeroFrom bits (b + 1) n else b

/-- `find_first_zero_bit(addr, size)`: the first clear bit below `size`, or
`size` when there is none. -/
def findFirstZeroBit (bits : Nat → Bool) (size : Nat) : Nat :=
  findZeroFrom bits 0 size

/-- `tgt_bitmap_chunk_alloc`; `mem` says whether `OBD_ALLOC` succeeds.  A new
chunk is zeroed; a chunk another thread installed first is kept. -/
def tgtBitmapChunkAlloc (lut : LuTarget) (chunk : Nat) (mem : Bool) : LuTarget × Int :=
  if !mem then (lut, -enomem)
  else if lut.lutReplyChunk chunk then (lut, 0)
  else
    ({ lut with
        lutReplyBitmap := fun i =>
          if i / lutReplySlotsPerChunk = chunk then false else lut.lutReplyBitmap i
        lutReplyChunk := setBit lut.lutReplyChunk chunk true }, 0)

/-- The chunk `chunk` allocated if it is not yet, as both callers do before
touching it. -/
def chunkReady (lut : LuTarget) (chunk : Nat) (mem : Bool) : LuTarget × Int :=
  if lut.lutReplyChunk chunk then (lut, 0) else tgtBitmapChunkAlloc lut chunk mem

/-- The loop of `tgt_find_free_reply_slot` from chunk `chunk`, with `n`
chunks left: the first clear bit of the first chunk that has one is set and
its slot returned.  The `test_and_set_bit` retry never fires here, since the
bit was found clear and nothing runs in between. -/
def findFreeReplySlotFrom (mem : Bool) : LuTarget → Nat → Nat → LuTarget × Int
  | lut, _, 0 => (lut, -enospc)
  | lut, chunk, n + 1 =>
    let ready := chunkReady lut chunk mem
    if ready.2 ≠ 0 then ready
    else
      let lut := ready.1
      let base := chunk * lutReplySlotsPerChunk
      let b := findFirstZeroBit (fun b => lut.lutReplyBitmap (base + b)) lutReplySlotsPerChunk
      if b < lutReplySlotsPerChunk then
        ({ lut with lutReplyBitmap := setBit lut.lutReplyBitmap (base + b) true },
          ((base + b : Nat) : Int))
      else findFreeReplySlotFrom mem lut (chunk + 1) n

/-- `tgt_find_free_reply_slot`. -/
def tgtFindFreeReplySlot (lut : LuTarget) (mem : Bool) : LuTarget × Int :=
  findFreeReplySlotFrom mem lut 0 lutReplySlotsMaxChunks

/-- `tgt_set_reply_slot`; `none` is a failed `LASSERT`.  The second
`LASSERT`, `b < LUT_REPLY_SLOTS_PER_CHUNK`, holds of a remainder. -/
def tgtSetReplySlot (lut : LuTarget) (idx : Nat) (mem : Bool) : Option (LuTarget × Int) :=
  let chunk := idx / lutReplySlotsPerChunk
  if chunk < lutReplySlotsMaxChunks then
    let ready := chunkReady lut chunk mem
    if ready.2 ≠ 0 then some ready
    else if ready.1.lutReplyBitmap idx then some (ready.1, -ealready)
    else some ({ ready.1 with lutReplyBitmap := setBit ready.1.lutReplyBitmap idx true }, 0)
  else none

theorem tgtSetReplySlot_eq (lut : LuTarget) (idx : Nat) (mem : Bool) :
    tgtSetReplySlot lut idx mem =
      let chunk := idx / lutReplySlotsPerChunk
      if chunk < lutReplySlotsMaxChunks then
        let ready := chunkReady lut chunk mem
        if ready.2 ≠ 0 then some ready
        else if ready.1.lutReplyBitmap idx then some (ready.1, -ealready)
        else some ({ ready.1 with lutReplyBitmap := setBit ready.1.lutReplyBitmap idx true }, 0)
      else none := rfl

/-- `tgt_clear_reply_slot`; `none` is a failed `LASSERT` or a chunk that was
never allocated, which `test_and_clear_bit` would dereference. -/
def tgtClearReplySlot (lut : LuTarget) (idx : Nat) : Option (LuTarget × Int) :=
  let chunk := idx / lutReplySlotsPerChunk
  if chunk < lutReplySlotsMaxChunks ∧ lut.lutReplyChunk chunk = true then
    if lut.lutReplyBitmap idx then
      some ({ lut with lutReplyBitmap := setBit lut.lutReplyBitmap idx false }, 0)
    else some (lut, -ealready)
  else none

/-! ### What the bitmap operations do -/

/-- A bit, counted as the one reply that may own its slot. -/
def bitCount (lut : LuTarget) (i : Nat) : ℤ := if lut.lutReplyBitmap i then 1 else 0

theorem bitCount_eq (lut : LuTarget) (i : Nat) :
    bitCount lut i = if lut.lutReplyBitmap i then 1 else 0 := rfl

/-- Every set bit lies in an allocated chunk, below the last chunk. -/
def BitsAllocated (lut : LuTarget) : Prop :=
  ∀ i, lut.lutReplyBitmap i = true →
    i / lutReplySlotsPerChunk < lutReplySlotsMaxChunks ∧
      lut.lutReplyChunk (i / lutReplySlotsPerChunk) = true

theorem findZeroFrom_clear (bits : Nat → Bool) (b n : Nat) :
    findZeroFrom bits b n < b + n → bits (findZeroFrom bits b n) = false := by
  induction n generalizing b with
  | zero => simp [findZeroFrom]
  | succ n ih =>
    by_cases set : bits b
    · simp only [findZeroFrom, set, if_true]
      intro below
      exact ih (b + 1) (by omega)
    · simp [findZeroFrom, set]

/-- A bit `find_first_zero_bit` finds below the size is clear. -/
theorem findFirstZeroBit_clear {bits : Nat → Bool} {size : Nat}
    (below : findFirstZeroBit bits size < size) :
    bits (findFirstZeroBit bits size) = false :=
  findZeroFrom_clear bits 0 size (by simpa [findFirstZeroBit] using below)

/-- Making a chunk ready changes no bit: a chunk allocated now had none set.
It fails only for want of memory. -/
theorem BitsAllocated.prepareChunk {lut : LuTarget} (allocated : BitsAllocated lut)
    (chunk : Nat) (mem : Bool) :
    BitsAllocated (chunkReady lut chunk mem).1 ∧
      (chunkReady lut chunk mem).1.lutReplyBitmap = lut.lutReplyBitmap ∧
      (chunkReady lut chunk mem).1.lutLastTransno = lut.lutLastTransno ∧
      ((chunkReady lut chunk mem).2 = 0 ∧
          (chunkReady lut chunk mem).1.lutReplyChunk chunk = true ∨
        (chunkReady lut chunk mem).2 = -enomem) := by
  unfold chunkReady tgtBitmapChunkAlloc
  by_cases ready : lut.lutReplyChunk chunk = true
  · simp [ready, allocated]
  · cases mem with
    | false => simp [ready, allocated]
    | true =>
      have zeroed : (fun i => if i / lutReplySlotsPerChunk = chunk then false
          else lut.lutReplyBitmap i) = lut.lutReplyBitmap := by
        funext i
        by_cases inChunk : i / lutReplySlotsPerChunk = chunk
        · cases bit : lut.lutReplyBitmap i with
          | false => simp [inChunk]
          | true => exact absurd (inChunk ▸ (allocated i bit).2) ready
        · simp [inChunk]
      simp only [ready, Bool.not_true, Bool.false_eq_true, if_false, zeroed, setBit_self,
        true_and]
      refine ⟨?_, Or.inl trivial⟩
      intro i bit
      obtain ⟨below, chunkSet⟩ := allocated i bit
      refine ⟨below, ?_⟩
      by_cases same : i / lutReplySlotsPerChunk = chunk
      · simp [same]
      · simp [setBit_of_ne _ same, chunkSet]

/-- What the loop of `tgt_find_free_reply_slot` can do: fail with every bit
as it was, or claim a slot whose bit was clear. -/
theorem BitsAllocated.findFree {lut : LuTarget} (allocated : BitsAllocated lut)
    (mem : Bool) (chunk n : Nat) (within : chunk + n ≤ lutReplySlotsMaxChunks) :
    BitsAllocated (findFreeReplySlotFrom mem lut chunk n).1 ∧
      (findFreeReplySlotFrom mem lut chunk n).1.lutLastTransno = lut.lutLastTransno ∧
      ((findFreeReplySlotFrom mem lut chunk n).2 < 0 ∧
          (findFreeReplySlotFrom mem lut chunk n).1.lutReplyBitmap = lut.lutReplyBitmap ∨
        0 ≤ (findFreeReplySlotFrom mem lut chunk n).2 ∧
          lut.lutReplyBitmap (findFreeReplySlotFrom mem lut chunk n).2.toNat = false ∧
          (findFreeReplySlotFrom mem lut chunk n).1.lutReplyBitmap =
            setBit lut.lutReplyBitmap (findFreeReplySlotFrom mem lut chunk n).2.toNat true) := by
  induction n generalizing lut chunk with
  | zero => simp [findFreeReplySlotFrom, allocated, enospc]
  | succ n ih =>
    obtain ⟨readyAllocated, sameBits, sameLast, outcome⟩ := allocated.prepareChunk chunk mem
    rcases outcome with ⟨readyOk, chunkSet⟩ | failed
    · simp only [findFreeReplySlotFrom, readyOk, ne_eq, not_true_eq_false, if_false]
      split_ifs with found
      · -- the first clear bit of this chunk is claimed
        set b := findFirstZeroBit (fun b => (chunkReady lut chunk mem).1.lutReplyBitmap
          (chunk * lutReplySlotsPerChunk + b)) lutReplySlotsPerChunk
        have clear : (chunkReady lut chunk mem).1.lutReplyBitmap
            (chunk * lutReplySlotsPerChunk + b) = false := findFirstZeroBit_clear found
        have inChunk : (chunk * lutReplySlotsPerChunk + b) / lutReplySlotsPerChunk = chunk := by
          rw [Nat.mul_comm, Nat.mul_add_div (by decide), Nat.div_eq_of_lt found, Nat.add_zero]
        simp only [Int.natCast_nonneg, Int.toNat_natCast, true_and, sameLast]
        refine ⟨?_, Or.inr ⟨?_, ?_⟩⟩
        · intro i bit
          by_cases claimed : i = chunk * lutReplySlotsPerChunk + b
          · subst claimed
            rw [inChunk]
            exact ⟨by omega, chunkSet⟩
          · exact readyAllocated i (by simpa [setBit_of_ne _ claimed] using bit)
        · rw [← sameBits]
          exact clear
        · rw [sameBits]
      · -- this chunk is full: the next one
        obtain ⟨nextAllocated, nextLast, nextOutcome⟩ := ih readyAllocated (chunk + 1) (by omega)
        rw [sameBits] at nextOutcome
        exact ⟨nextAllocated, nextLast.trans sameLast, nextOutcome⟩
    · have refused : ¬(chunkReady lut chunk mem).2 = 0 := by
        rw [failed]
        decide
      simp only [findFreeReplySlotFrom, ne_eq, refused, not_false_eq_true, if_true]
      refine ⟨readyAllocated, sameLast, Or.inl ⟨by rw [failed]; decide, sameBits⟩⟩

/-! ## Replies of one export -/

/-- `tgt_free_reply_data`: unlink the reply, count it out and clear its
slot. -/
def tgtFreeReplyData (lut : LuTarget) (ted : TgExportData) (trd : TgReplyData) :
    Option (LuTarget × TgExportData) :=
  (tgtClearReplySlot lut trd.trdIndex).map fun cleared =>
    (cleared.1, { ted with
      tedReplyList := ted.tedReplyList.erase trd
      tedReplyCnt := ted.tedReplyCnt - 1 })

/-- `tgt_release_reply_data`: a reply with the export's last transaction
number is kept as `ted_reply_last`, after freeing the one kept before;
any other is freed.  `none` is a dereference of a freed `ted_lcd`. -/
def tgtReleaseReplyData (lut : LuTarget) (ted : TgExportData) (trd : TgReplyData) :
    Option (LuTarget × TgExportData) :=
  match ted.tedLcd with
  | none => none
  | some lcd =>
    if trd.trdReply.lrdTransno = lcd.lcdLastTransno then
      let retain := fun (freed : LuTarget × TgExportData) =>
        (freed.1, { freed.2 with
          tedReplyList := freed.2.tedReplyList.erase trd
          tedReplyLast := some trd })
      match ted.tedReplyLast with
      | none => some (retain (lut, ted))
      | some last => (tgtFreeReplyData lut ted last).map retain
    else tgtFreeReplyData lut ted trd

/-- One turn of the loop of `tgt_handle_received_xid`. -/
def receivedXidStep (rcvdXid : Nat) (done : LuTarget × TgExportData) (trd : TgReplyData) :
    Option (LuTarget × TgExportData) :=
  if trd.trdReply.lrdXid > rcvdXid then some done
  else tgtReleaseReplyData done.1
    { done.2 with tedReleaseXid := done.2.tedReleaseXid + 1 } trd

/-- `tgt_handle_received_xid`: release every reply the client has seen,
walking the list as it was when the walk began. -/
def tgtHandleReceivedXid (lut : LuTarget) (ted : TgExportData) (rcvdXid : Nat) :
    Option (LuTarget × TgExportData) :=
  ted.tedReplyList.foldlM (receivedXidStep rcvdXid) (lut, ted)

/-- `tgt_handle_tag`: release the first reply that used the tag. -/
def tgtHandleTag (lut : LuTarget) (ted : TgExportData) (tag : Nat) :
    Option (LuTarget × TgExportData) :=
  if tag = 0 then some (lut, ted)
  else
    match ted.tedReplyList.find? (fun trd => trd.trdTag = tag) with
    | none => some (lut, ted)
    | some trd =>
      tgtReleaseReplyData lut { ted with tedReleaseTag := ted.tedReleaseTag + 1 } trd

/-- One turn of the first loop of `tgt_client_free`. -/
def clientFreeStep (done : LuTarget × TgExportData) (trd : TgReplyData) :
    Option (LuTarget × TgExportData) :=
  tgtReleaseReplyData done.1 done.2 trd

/-- The reply part of `tgt_client_free`: release every reply, free the one
kept, then free `ted_lcd`.  The client slot in `last_rcvd` is another
bitmap, not modelled. -/
def tgtClientFree (lut : LuTarget) (ted : TgExportData) : Option (LuTarget × TgExportData) :=
  (ted.tedReplyList.foldlM clientFreeStep (lut, ted)).bind fun released =>
    let dropLcd := fun (done : LuTarget × TgExportData) =>
      (done.1, { done.2 with tedLcd := none })
    match released.2.tedReplyLast with
    | none => some (dropLcd released)
    | some last =>
      (tgtFreeReplyData released.1 released.2 last).map fun freed =>
        dropLcd (freed.1, { freed.2 with tedReplyLast := none })

/-- `tgt_add_reply_data`, with `mem` for the chunk allocations and `writeRc`
for the write of the record when `update_lrd_file` asks for it.  It returns
the export's new state and the return code; the caller frees the reply on a
negative one.  `none` is a dereference of a freed `ted_lcd`. -/
def tgtAddReplyData (lut : LuTarget) (ted : TgExportData) (trd : TgReplyData) (mem : Bool)
    (updateLrdFile : Bool) (writeRc : Int) : Option (LuTarget × TgExportData × Int) :=
  match ted.tedLcd with
  | none => none
  | some lcd =>
    let lcd := if trd.trdReply.lrdTransno > lcd.lcdLastTransno then
      { lcd with lcdLastTransno := trd.trdReply.lrdTransno } else lcd
    let ted := { ted with tedLcd := some lcd }
    let found := tgtFindFreeReplySlot lut mem
    if found.2 < 0 then some (found.1, ted, found.2)
    else if updateLrdFile ∧ writeRc ≠ 0 then some (found.1, ted, writeRc)
    else
      let trd := { trd with trdIndex := found.2.toNat }
      some (found.1, { ted with
        tedReplyList := trd :: ted.tedReplyList
        tedReplyCnt := ted.tedReplyCnt + 1
        tedReplyMax := max ted.tedReplyMax (ted.tedReplyCnt + 1) }, 0)

/-! ### The slots an export's replies own -/

/-- The replies an export holds: its list, and the one kept. -/
def TgExportData.held (ted : TgExportData) : List TgReplyData :=
  ted.tedReplyList ++ ted.tedReplyLast.toList

theorem TgExportData.held_eq (ted : TgExportData) :
    ted.held = ted.tedReplyList ++ ted.tedReplyLast.toList := rfl

/-- How many of the replies an export holds use slot `i`. -/
def TgExportData.heldAt (ted : TgExportData) (i : Nat) : ℤ :=
  ((ted.held.countP fun trd => trd.trdIndex == i : Nat) : ℤ)

theorem TgExportData.heldAt_def (ted : TgExportData) (i : Nat) :
    ted.heldAt i = ((ted.held.countP fun trd => trd.trdIndex == i : Nat) : ℤ) := rfl

/-- An operation on one export changed the bits as it changed the replies
that export holds. -/
def SlotMoves (lut lut' : LuTarget) (ted ted' : TgExportData) : Prop :=
  ∀ i, bitCount lut' i - bitCount lut i = ted'.heldAt i - ted.heldAt i

theorem SlotMoves.refl (lut : LuTarget) (ted : TgExportData) : SlotMoves lut lut ted ted :=
  fun _ => by simp

theorem SlotMoves.trans {lut lut' lut'' : LuTarget} {ted ted' ted'' : TgExportData}
    (first : SlotMoves lut lut' ted ted') (second : SlotMoves lut' lut'' ted' ted'') :
    SlotMoves lut lut'' ted ted'' := fun i => by
  have firstMoved := first i
  have secondMoved := second i
  omega

/-- What an export's replies and the target's bitmap keep between them:
each held reply owns a set bit that no other held reply of the export owns,
the count counts the held replies, a freed export holds none, and set bits
lie in allocated chunks. -/
structure Owns (lut : LuTarget) (ted : TgExportData) : Prop where
  bounded : ∀ i, ted.heldAt i ≤ bitCount lut i
  counted : ted.tedReplyCnt = ted.held.length
  freedEmpty : ted.tedLcd = none → ted.held = []
  allocated : BitsAllocated lut

/-- An operation that moved the bits as the replies keeps `Owns`, once it
keeps the count and the allocation. -/
theorem Owns.of_moves {lut lut' : LuTarget} {ted ted' : TgExportData} (owns : Owns lut ted)
    (moves : SlotMoves lut lut' ted ted') (counted : ted'.tedReplyCnt = ted'.held.length)
    (freedEmpty : ted'.tedLcd = none → ted'.held = []) (allocated : BitsAllocated lut') :
    Owns lut' ted' where
  bounded i := by
    have moved := moves i
    have before := owns.bounded i
    omega
  counted := counted
  freedEmpty := freedEmpty
  allocated := allocated

theorem bitCount_le_one (lut : LuTarget) (i : Nat) : bitCount lut i ≤ 1 := by
  unfold bitCount
  split <;> omega

theorem heldAt_nonneg (ted : TgExportData) (i : Nat) : 0 ≤ ted.heldAt i := by
  simp [TgExportData.heldAt_def]

theorem bitCount_of_setBit {lut lut' : LuTarget} {i : Nat} {v : Bool}
    (bits : lut'.lutReplyBitmap = setBit lut.lutReplyBitmap i v) (j : Nat) :
    bitCount lut' j = if j = i then (if v then 1 else 0) else bitCount lut j := by
  by_cases same : j = i
  · simp [bitCount_eq, bits, same]
  · simp [bitCount_eq, bits, same, setBit_of_ne _ same]

/-- A held reply's slot is set. -/
theorem Owns.bit_of_held {lut : LuTarget} {ted : TgExportData} {trd : TgReplyData}
    (owns : Owns lut ted) (held : trd ∈ ted.held) : lut.lutReplyBitmap trd.trdIndex = true := by
  have counted : 0 < ted.heldAt trd.trdIndex := by
    simpa [TgExportData.heldAt_def] using ⟨trd, held, rfl⟩
  have bounded := owns.bounded trd.trdIndex
  rw [bitCount_eq] at bounded
  split at bounded
  · assumption
  · omega

theorem countP_erase_add {α : Type} [DecidableEq α] {p : α → Bool} {a : α} {l : List α}
    (listed : a ∈ l) : (l.erase a).countP p + (if p a then 1 else 0) = l.countP p := by
  rw [← List.countP_cons]
  exact ((List.perm_cons_erase listed).countP_eq p).symm

theorem heldAt_eq (ted : TgExportData) (i : Nat) :
    ted.heldAt i = ((ted.tedReplyList.countP fun trd => trd.trdIndex == i : Nat) : ℤ) +
      ((ted.tedReplyLast.toList.countP fun trd => trd.trdIndex == i : Nat) : ℤ) := by
  simp [TgExportData.heldAt_def, TgExportData.held_eq, List.countP_append]

/-- The reply kept is not also on the list. -/
theorem Owns.last_not_listed {lut : LuTarget} {ted : TgExportData} {last : TgReplyData}
    (owns : Owns lut ted) (kept : ted.tedReplyLast = some last) :
    last ∉ ted.tedReplyList := by
  intro listed
  have onList : 0 < ted.tedReplyList.countP fun trd => trd.trdIndex == last.trdIndex :=
    List.countP_pos_iff.mpr ⟨last, listed, by simp⟩
  have twice := heldAt_eq ted last.trdIndex
  have bounded := owns.bounded last.trdIndex
  have atMostOne := bitCount_le_one lut last.trdIndex
  simp only [kept, Option.toList_some, List.countP_singleton, beq_self_eq_true, if_true] at twice
  omega

/-- Dropping a reply from the list drops its slot from the export. -/
theorem heldAt_of_erase {ted ted' : TgExportData} {trd : TgReplyData}
    (listed : trd ∈ ted.tedReplyList) (list' : ted'.tedReplyList = ted.tedReplyList.erase trd)
    (last' : ted'.tedReplyLast = ted.tedReplyLast) (i : Nat) :
    ted'.heldAt i = ted.heldAt i - if trd.trdIndex = i then 1 else 0 := by
  have dropped := countP_erase_add (p := fun trd => trd.trdIndex == i) listed
  rw [heldAt_eq, heldAt_eq, list', last', ← dropped]
  by_cases same : trd.trdIndex = i
  · simp [same]
    omega
  · simp [same]

/-- Moving a listed reply to `ted_reply_last` leaves the list's slots. -/
theorem heldAt_of_retain {ted ted' : TgExportData} {trd : TgReplyData}
    (listed : trd ∈ ted.tedReplyList) (list' : ted'.tedReplyList = ted.tedReplyList.erase trd)
    (last' : ted'.tedReplyLast = some trd) (i : Nat) :
    ted'.heldAt i = ((ted.tedReplyList.countP fun trd => trd.trdIndex == i : Nat) : ℤ) := by
  have dropped := countP_erase_add (p := fun trd => trd.trdIndex == i) listed
  rw [heldAt_eq, list', last', ← dropped]
  by_cases same : trd.trdIndex = i <;> simp [same]

theorem BitsAllocated.clear {lut : LuTarget} (allocated : BitsAllocated lut) (i : Nat) :
    BitsAllocated { lut with lutReplyBitmap := setBit lut.lutReplyBitmap i false } := by
  intro j bit
  by_cases same : j = i
  · simp [same] at bit
  · exact allocated j (by simpa [setBit_of_ne _ same] using bit)

/-- Freeing a reply whose slot is set clears the slot. -/
theorem tgtFreeReplyData_of_set {lut : LuTarget} {ted : TgExportData} {trd : TgReplyData}
    (allocated : BitsAllocated lut) (set : lut.lutReplyBitmap trd.trdIndex = true) :
    tgtFreeReplyData lut ted trd =
      some ({ lut with lutReplyBitmap := setBit lut.lutReplyBitmap trd.trdIndex false },
        { ted with
          tedReplyList := ted.tedReplyList.erase trd
          tedReplyCnt := ted.tedReplyCnt - 1 }) := by
  obtain ⟨below, chunkSet⟩ := allocated _ set
  simp [tgtFreeReplyData, tgtClearReplySlot, below, chunkSet, set]

/-- What `tgt_release_reply_data` does to a listed reply of a live export:
it leaves the list, is kept or freed, and the bits move with it. -/
theorem Owns.release {lut : LuTarget} {ted : TgExportData} {lcd : LsdClientData}
    {trd : TgReplyData} (owns : Owns lut ted) (live : ted.tedLcd = some lcd)
    (listed : trd ∈ ted.tedReplyList) :
    ∃ done, tgtReleaseReplyData lut ted trd = some done ∧ SlotMoves lut done.1 ted done.2 ∧
      Owns done.1 done.2 ∧ done.2.tedReplyList = ted.tedReplyList.erase trd ∧
      done.2.tedLcd = ted.tedLcd ∧
      (trd.trdReply.lrdTransno = lcd.lcdLastTransno ∧ done.2.tedReplyLast = some trd ∨
        trd.trdReply.lrdTransno ≠ lcd.lcdLastTransno ∧
          done.2.tedReplyLast = ted.tedReplyLast) := by
  have listedSet := owns.bit_of_held (List.mem_append_left _ listed)
  have shorter := List.length_erase_of_mem listed
  have nonempty := List.length_pos_of_mem listed
  have counted := owns.counted
  simp only [TgExportData.held_eq, List.length_append] at counted
  unfold tgtReleaseReplyData
  split
  · simp_all
  rename_i lcd' matched
  obtain rfl : lcd = lcd' := Option.some.inj (live.symm.trans matched)
  by_cases retained : trd.trdReply.lrdTransno = lcd.lcdLastTransno
  · rw [if_pos retained]
    cases kept : ted.tedReplyLast with
    | none =>
      -- the reply becomes the one kept: no slot changes hands
      have moves : SlotMoves lut lut ted
          { ted with
            tedReplyList := ted.tedReplyList.erase trd
            tedReplyLast := some trd } := by
        intro i
        rw [heldAt_of_retain listed rfl rfl, heldAt_eq]
        simp [kept]
      refine ⟨_, rfl, moves, owns.of_moves moves ?_ (by simp [live]) owns.allocated, rfl, rfl,
        Or.inl ⟨retained, rfl⟩⟩
      simp only [TgExportData.held_eq, List.length_append, Option.toList_some,
        List.length_singleton, kept, Option.toList_none, List.length_nil] at counted ⊢
      omega
    | some last =>
      -- the reply kept before is freed first; it was not on the list
      have lastHeld : last ∈ ted.held := by simp [TgExportData.held_eq, kept]
      have lastSet := owns.bit_of_held lastHeld
      have apart := owns.last_not_listed kept
      simp only [tgtFreeReplyData_of_set owns.allocated lastSet, Option.map_some,
        List.erase_of_not_mem apart]
      have moves : SlotMoves lut
          { lut with lutReplyBitmap := setBit lut.lutReplyBitmap last.trdIndex false } ted
          { ted with
            tedReplyList := ted.tedReplyList.erase trd
            tedReplyCnt := ted.tedReplyCnt - 1
            tedReplyLast := some trd } := by
        intro i
        rw [heldAt_of_retain listed rfl rfl, heldAt_eq, bitCount_of_setBit rfl]
        by_cases same : i = last.trdIndex
        · subst same
          simp [kept, bitCount_eq, lastSet]
        · simp [kept, same, Ne.symm same]
      refine ⟨_, rfl, moves, owns.of_moves moves ?_ (by simp [live])
        (owns.allocated.clear _), rfl, rfl, Or.inl ⟨retained, rfl⟩⟩
      simp only [TgExportData.held_eq, List.length_append, Option.toList_some,
        List.length_singleton, kept] at counted ⊢
      omega
  · rw [if_neg retained, tgtFreeReplyData_of_set owns.allocated listedSet]
    set freed : TgExportData := { ted with
      tedReplyList := ted.tedReplyList.erase trd
      tedReplyCnt := ted.tedReplyCnt - 1 }
    have moves : SlotMoves lut
        { lut with lutReplyBitmap := setBit lut.lutReplyBitmap trd.trdIndex false } ted freed := by
      intro i
      rw [heldAt_of_erase listed (show freed.tedReplyList = _ from rfl) rfl,
        bitCount_of_setBit rfl]
      by_cases same : i = trd.trdIndex
      · subst same
        simp [bitCount_eq, listedSet]
      · simp [same, Ne.symm same]
    refine ⟨_, rfl, moves, owns.of_moves moves ?_ (by simp [freed, live])
      (owns.allocated.clear _), rfl, rfl, Or.inr ⟨retained, rfl⟩⟩
    simp only [freed, TgExportData.held_eq, List.length_append] at counted ⊢
    omega

/-- An export that holds replies holds one with its last transaction
number, unless it was freed: what keeping `ted_reply_last` is for. -/
def TgExportData.KeepsLast (ted : TgExportData) : Prop :=
  ∀ lcd, ted.tedLcd = some lcd →
    ted.held = [] ∨ ∃ trd ∈ ted.held, trd.trdReply.lrdTransno = lcd.lcdLastTransno

/-- A release keeps the reply with the last transaction number: it is the
reply released, now kept, or it was held before and is not the one freed. -/
theorem TgExportData.KeepsLast.release {ted ted' : TgExportData} {lcd : LsdClientData}
    {trd : TgReplyData} (keeps : ted.KeepsLast) (live : ted.tedLcd = some lcd)
    (listed : trd ∈ ted.tedReplyList) (list' : ted'.tedReplyList = ted.tedReplyList.erase trd)
    (lcd' : ted'.tedLcd = ted.tedLcd)
    (last' : trd.trdReply.lrdTransno = lcd.lcdLastTransno ∧ ted'.tedReplyLast = some trd ∨
      trd.trdReply.lrdTransno ≠ lcd.lcdLastTransno ∧ ted'.tedReplyLast = ted.tedReplyLast) :
    ted'.KeepsLast := by
  intro current isCurrent
  obtain rfl : lcd = current := Option.some.inj (live.symm.trans (lcd'.symm.trans isCurrent))
  right
  rcases last' with ⟨same, kept⟩ | ⟨other, kept⟩
  · exact ⟨trd, by simp [TgExportData.held_eq, kept], same⟩
  · rcases keeps lcd live with empty | ⟨holder, held, transno⟩
    · simp [TgExportData.held_eq, List.append_eq_nil_iff] at empty
      simp [empty.1] at listed
    · -- the holder is not the reply freed, whose number differs
      have apart : holder ≠ trd := fun same => other (same ▸ transno)
      refine ⟨holder, ?_, transno⟩
      simp only [TgExportData.held_eq, List.mem_append, list', kept] at held ⊢
      rcases held with onList | isLast
      · exact Or.inl ((List.mem_erase_of_ne apart).mpr onList)
      · exact Or.inr isLast

/-- Counting a release in `ted_release_xid` or `ted_release_tag` changes
nothing `Owns` looks at. -/
theorem Owns.counter {lut : LuTarget} {ted : TgExportData} (owns : Owns lut ted) (xid tag : Nat) :
    Owns lut { ted with tedReleaseXid := xid, tedReleaseTag := tag } :=
  ⟨owns.bounded, owns.counted, owns.freedEmpty, owns.allocated⟩

/-- A freed export has nothing on its list. -/
theorem Owns.list_eq_nil {lut : LuTarget} {ted : TgExportData} (owns : Owns lut ted)
    (freed : ted.tedLcd = none) : ted.tedReplyList = [] := by
  have empty := owns.freedEmpty freed
  simp only [TgExportData.held_eq, List.append_eq_nil_iff] at empty
  exact empty.1

/-- The walk of `tgt_handle_received_xid`: every reply still to be visited
is on the current list, since a release only unlinks the reply it is
given. -/
theorem Owns.receivedXidWalk (rcvdXid : Nat) :
    ∀ (rest : List TgReplyData) {lut : LuTarget} {ted : TgExportData} {lcd : LsdClientData},
      Owns lut ted → ted.tedLcd = some lcd → rest.Sublist ted.tedReplyList →
      ∃ done, rest.foldlM (receivedXidStep rcvdXid) (lut, ted) = some done ∧
        SlotMoves lut done.1 ted done.2 ∧ Owns done.1 done.2 ∧ done.2.tedLcd = ted.tedLcd ∧
        (ted.KeepsLast → done.2.KeepsLast)
  | [], lut, ted, _, owns, _, _ => ⟨(lut, ted), rfl, SlotMoves.refl lut ted, owns, rfl, id⟩
  | trd :: rest, lut, ted, lcd, owns, live, sublist => by
    have listed : trd ∈ ted.tedReplyList := sublist.subset (List.mem_cons_self ..)
    rw [List.foldlM_cons]
    by_cases unseen : trd.trdReply.lrdXid > rcvdXid
    · -- the client has not seen this reply yet: it stays
      simp only [receivedXidStep, unseen, if_true]
      exact Owns.receivedXidWalk rcvdXid rest owns live (List.sublist_of_cons_sublist sublist)
    · -- released: the rest is still on the list it leaves behind
      obtain ⟨released, ran, moves, owns', list', lcd', last'⟩ :=
        (owns.counter (ted.tedReleaseXid + 1) ted.tedReleaseTag).release live listed
      have rest' : rest.Sublist released.2.tedReplyList := by
        rw [list']
        simpa using sublist.erase trd
      obtain ⟨done, walked, moves'', owns'', lcd'', keeps''⟩ :=
        Owns.receivedXidWalk rcvdXid rest owns' (lcd'.trans live) rest'
      refine ⟨done, ?_, moves.trans moves'', owns'', lcd''.trans lcd',
        fun keeps => keeps'' (TgExportData.KeepsLast.release keeps live listed list' lcd' last')⟩
      simp only [receivedXidStep, unseen, if_false]
      rw [ran]
      exact walked

/-- `tgt_handle_received_xid` never fails, and moves the bits as it moves
the replies. -/
theorem Owns.handleReceivedXid {lut : LuTarget} {ted : TgExportData} (owns : Owns lut ted)
    (rcvdXid : Nat) :
    ∃ done, tgtHandleReceivedXid lut ted rcvdXid = some done ∧
      SlotMoves lut done.1 ted done.2 ∧ Owns done.1 done.2 ∧ done.2.tedLcd = ted.tedLcd ∧
      (ted.KeepsLast → done.2.KeepsLast) := by
  rcases Option.eq_none_or_eq_some ted.tedLcd with freed | ⟨lcd, live⟩
  · -- a freed export holds nothing to walk
    exact ⟨(lut, ted), by simp [tgtHandleReceivedXid, owns.list_eq_nil freed],
      SlotMoves.refl lut ted, owns, rfl, id⟩
  · exact owns.receivedXidWalk rcvdXid ted.tedReplyList live (List.Sublist.refl _)

/-- `tgt_handle_tag` never fails, and moves the bits as it moves the
replies. -/
theorem Owns.handleTag {lut : LuTarget} {ted : TgExportData} (owns : Owns lut ted) (tag : Nat) :
    ∃ done, tgtHandleTag lut ted tag = some done ∧
      SlotMoves lut done.1 ted done.2 ∧ Owns done.1 done.2 ∧ done.2.tedLcd = ted.tedLcd ∧
      (ted.KeepsLast → done.2.KeepsLast) := by
  unfold tgtHandleTag
  split_ifs with untagged
  · exact ⟨(lut, ted), rfl, SlotMoves.refl lut ted, owns, rfl, id⟩
  · cases found : ted.tedReplyList.find? (fun trd => trd.trdTag = tag) with
    | none => exact ⟨(lut, ted), rfl, SlotMoves.refl lut ted, owns, rfl, id⟩
    | some trd =>
      have listed := List.mem_of_find?_eq_some found
      rcases Option.eq_none_or_eq_some ted.tedLcd with freed | ⟨lcd, live⟩
      · simp [owns.list_eq_nil freed] at listed
      · obtain ⟨done, ran, moves, owns', list', lcd', last'⟩ :=
          (owns.counter ted.tedReleaseXid (ted.tedReleaseTag + 1)).release live listed
        exact ⟨done, ran, moves, owns', lcd',
          fun keeps => TgExportData.KeepsLast.release keeps live listed list' lcd' last'⟩

/-- The first walk of `tgt_client_free` releases the whole list. -/
theorem Owns.clientFreeWalk :
    ∀ (rest : List TgReplyData) {lut : LuTarget} {ted : TgExportData} {lcd : LsdClientData},
      Owns lut ted → ted.tedLcd = some lcd → ted.tedReplyList = rest →
      ∃ done, rest.foldlM clientFreeStep (lut, ted) = some done ∧
        SlotMoves lut done.1 ted done.2 ∧ Owns done.1 done.2 ∧ done.2.tedLcd = ted.tedLcd ∧
        done.2.tedReplyList = []
  | [], lut, ted, _, owns, _, listed => ⟨(lut, ted), rfl, SlotMoves.refl lut ted, owns, rfl, listed⟩
  | trd :: rest, lut, ted, lcd, owns, live, listed => by
    obtain ⟨released, ran, moves, owns', list', lcd', -⟩ :=
      owns.release live (listed ▸ List.mem_cons_self ..)
    have rest' : released.2.tedReplyList = rest := by
      rw [list', listed, List.erase_cons_head]
    obtain ⟨done, walked, moves'', owns'', lcd'', emptied⟩ :=
      Owns.clientFreeWalk rest owns' (lcd'.trans live) rest'
    refine ⟨done, ?_, moves.trans moves'', owns'', lcd''.trans lcd', emptied⟩
    rw [List.foldlM_cons]
    simp only [clientFreeStep]
    rw [ran]
    exact walked

/-- `tgt_client_free` never fails: it clears the slot of every reply the
export held and leaves it holding none. -/
theorem Owns.clientFree {lut : LuTarget} {ted : TgExportData} (owns : Owns lut ted) :
    ∃ done, tgtClientFree lut ted = some done ∧
      SlotMoves lut done.1 ted done.2 ∧ Owns done.1 done.2 ∧ done.2.held = [] := by
  -- first every listed reply, by the walk
  obtain ⟨released, walked, moves, owns', emptied⟩ :
      ∃ released, ted.tedReplyList.foldlM clientFreeStep (lut, ted) = some released ∧
        SlotMoves lut released.1 ted released.2 ∧ Owns released.1 released.2 ∧
        released.2.tedReplyList = [] := by
    rcases Option.eq_none_or_eq_some ted.tedLcd with freed | ⟨lcd, live⟩
    · have empty := owns.list_eq_nil freed
      exact ⟨(lut, ted), by simp [empty], SlotMoves.refl lut ted, owns, empty⟩
    · obtain ⟨done, ran, moves, owns', -, emptied⟩ := owns.clientFreeWalk _ live rfl
      exact ⟨done, ran, moves, owns', emptied⟩
  unfold tgtClientFree
  rw [walked, Option.bind_some]
  -- then the reply kept, if any
  cases kept : released.2.tedReplyLast with
  | none =>
    have moves' : SlotMoves lut released.1 ted { released.2 with tedLcd := none } := moves
    refine ⟨_, rfl, moves', owns'.of_moves (SlotMoves.refl _ _) owns'.counted (fun _ => ?_)
      owns'.allocated, ?_⟩ <;> simp [TgExportData.held_eq, emptied, kept]
  | some last =>
    have lastHeld : last ∈ released.2.held := by simp [TgExportData.held_eq, kept]
    have lastSet := owns'.bit_of_held lastHeld
    simp only [tgtFreeReplyData_of_set owns'.allocated lastSet, Option.map_some, emptied,
      List.erase_nil]
    have counted := owns'.counted
    simp only [TgExportData.held_eq, emptied, kept, List.nil_append, Option.toList_some,
      List.length_singleton] at counted
    have lastMoves : SlotMoves released.1
        { released.1 with lutReplyBitmap := setBit released.1.lutReplyBitmap last.trdIndex false }
        released.2
        { released.2 with
          tedLcd := none
          tedReplyList := []
          tedReplyLast := none
          tedReplyCnt := released.2.tedReplyCnt - 1 } := by
      intro i
      rw [heldAt_eq, heldAt_eq, bitCount_of_setBit rfl, emptied, kept]
      by_cases same : i = last.trdIndex
      · subst same
        simp [bitCount_eq, lastSet]
      · simp [same, Ne.symm same]
    have owns'' := owns'.of_moves lastMoves (by simp [TgExportData.held_eq]; omega)
      (fun _ => by simp [TgExportData.held_eq]) (owns'.allocated.clear _)
    exact ⟨_, rfl, moves.trans lastMoves, owns'', by simp [TgExportData.held_eq]⟩

/-- `tgt_find_free_reply_slot` as a whole, from `BitsAllocated.findFree`. -/
theorem BitsAllocated.tgtFindFree {lut : LuTarget} (allocated : BitsAllocated lut) (mem : Bool) :
    BitsAllocated (tgtFindFreeReplySlot lut mem).1 ∧
      (tgtFindFreeReplySlot lut mem).1.lutLastTransno = lut.lutLastTransno ∧
      ((tgtFindFreeReplySlot lut mem).2 < 0 ∧
          (tgtFindFreeReplySlot lut mem).1.lutReplyBitmap = lut.lutReplyBitmap ∨
        0 ≤ (tgtFindFreeReplySlot lut mem).2 ∧
          lut.lutReplyBitmap (tgtFindFreeReplySlot lut mem).2.toNat = false ∧
          (tgtFindFreeReplySlot lut mem).1.lutReplyBitmap =
            setBit lut.lutReplyBitmap (tgtFindFreeReplySlot lut mem).2.toNat true) :=
  allocated.findFree mem 0 lutReplySlotsMaxChunks (by simp)

/-- The check of `tgt_add_reply_data` that raises `lcd_last_transno`. -/
theorem raisedLcd_eq (lcd : LsdClientData) (transno : Nat) :
    (if transno > lcd.lcdLastTransno then { lcd with lcdLastTransno := transno } else lcd) =
      ⟨max lcd.lcdLastTransno transno⟩ := by
  split_ifs with above
  · simp [Nat.max_eq_right (Nat.le_of_lt above)]
  · simp [Nat.max_eq_left (Nat.le_of_not_lt above)]

/-- Everything `tgt_add_reply_data` can do on a live export.  It raises
`lcd_last_transno` first.  Then either no slot is found and no bit changes,
or a clear slot is claimed; the record write then fails and the reply is
dropped with the slot still claimed, or the reply goes on the list with
its slot. -/
theorem tgtAddReplyData_cases {lut : LuTarget} {ted : TgExportData} {lcd : LsdClientData}
    (allocated : BitsAllocated lut) (live : ted.tedLcd = some lcd) (trd : TgReplyData)
    (mem updateLrdFile : Bool) (writeRc : Int) :
    ∃ added, tgtAddReplyData lut ted trd mem updateLrdFile writeRc = some added ∧
      BitsAllocated added.1 ∧ added.1.lutLastTransno = lut.lutLastTransno ∧
      added.2.1.tedLcd = some ⟨max lcd.lcdLastTransno trd.trdReply.lrdTransno⟩ ∧
      added.2.1.tedReplyLast = ted.tedReplyLast ∧
      ((added.2.2 < 0 ∧ added.1.lutReplyBitmap = lut.lutReplyBitmap ∧
          added.2.1.tedReplyList = ted.tedReplyList ∧ added.2.1.tedReplyCnt = ted.tedReplyCnt) ∨
        ∃ slot, lut.lutReplyBitmap slot = false ∧
          added.1.lutReplyBitmap = setBit lut.lutReplyBitmap slot true ∧
          ((updateLrdFile = true ∧ writeRc ≠ 0 ∧ added.2.2 = writeRc ∧
              added.2.1.tedReplyList = ted.tedReplyList ∧
              added.2.1.tedReplyCnt = ted.tedReplyCnt) ∨
            (¬(updateLrdFile = true ∧ writeRc ≠ 0) ∧ added.2.2 = 0 ∧
              added.2.1.tedReplyList = { trd with trdIndex := slot } :: ted.tedReplyList ∧
              added.2.1.tedReplyCnt = ted.tedReplyCnt + 1))) := by
  obtain ⟨allocated', sameLast, outcome⟩ := allocated.tgtFindFree mem
  unfold tgtAddReplyData
  split
  · simp_all
  rename_i lcd' matched
  obtain rfl : lcd = lcd' := Option.some.inj (live.symm.trans matched)
  simp only [raisedLcd_eq]
  split_ifs with failed written
  · -- no slot
    refine ⟨_, rfl, allocated', sameLast, rfl, rfl, Or.inl ⟨failed, ?_, rfl, rfl⟩⟩
    rcases outcome with ⟨-, sameBits⟩ | ⟨found, -⟩
    · exact sameBits
    · omega
  · -- a slot, and a failed write
    rcases outcome with ⟨below, -⟩ | ⟨-, clear, setBits⟩
    · omega
    · exact ⟨_, rfl, allocated', sameLast, rfl, rfl,
        Or.inr ⟨_, clear, setBits, Or.inl ⟨written.1, written.2, rfl, rfl, rfl⟩⟩⟩
  · -- a slot, and the reply listed
    rcases outcome with ⟨below, -⟩ | ⟨-, clear, setBits⟩
    · omega
    · exact ⟨_, rfl, allocated', sameLast, rfl, rfl,
        Or.inr ⟨_, clear, setBits, Or.inr ⟨written, rfl, rfl, rfl⟩⟩⟩

/-- A reply added with its record written moves the bits as it moves the
replies. -/
theorem Owns.addReplyData {lut : LuTarget} {ted : TgExportData} {lcd : LsdClientData}
    (owns : Owns lut ted) (live : ted.tedLcd = some lcd) (trd : TgReplyData)
    (mem updateLrdFile : Bool) (writeRc : Int) (written : updateLrdFile = false ∨ writeRc = 0) :
    ∃ added, tgtAddReplyData lut ted trd mem updateLrdFile writeRc = some added ∧
      SlotMoves lut added.1 ted added.2.1 ∧ Owns added.1 added.2.1 := by
  obtain ⟨added, ran, allocated', -, lcd', last', outcome⟩ :=
    tgtAddReplyData_cases owns.allocated live trd mem updateLrdFile writeRc
  have counted := owns.counted
  simp only [TgExportData.held_eq, List.length_append] at counted
  have freedEmpty : added.2.1.tedLcd = none → added.2.1.held = [] := by simp [lcd']
  rcases outcome with ⟨-, sameBits, list', cnt'⟩ | ⟨slot, clear, setBits, failed | listed⟩
  · -- nothing found: nothing moves
    have moves : SlotMoves lut added.1 ted added.2.1 := by
      intro i
      simp [bitCount_eq, sameBits, heldAt_eq, list', last']
    refine ⟨added, ran, moves, owns.of_moves moves ?_ freedEmpty allocated'⟩
    simp [TgExportData.held_eq, list', last', cnt', counted]
  · -- excluded: the write did not fail
    rcases written with noFile | ok
    · simp [noFile] at failed
    · exact absurd ok failed.2.1
  · obtain ⟨-, -, list', cnt'⟩ := listed
    have moves : SlotMoves lut added.1 ted added.2.1 := by
      intro i
      rw [heldAt_eq, heldAt_eq, bitCount_of_setBit setBits, list', last']
      by_cases same : i = slot
      · subst same
        simp [bitCount_eq, clear]
      · simp [same, Ne.symm same]
    refine ⟨added, ran, moves, owns.of_moves moves ?_ freedEmpty allocated'⟩
    simp only [TgExportData.held_eq, List.length_append, list', last', cnt', counted,
      List.length_cons]
    omega

/-! ## The target and all its exports -/

/-- The target and every export it has known; `ι` names the exports. -/
structure TgtSystem (ι : Type) where
  /-- The target. -/
  lut : LuTarget
  /-- The exports. -/
  exports : ι → TgExportData

/-- The reply operations, each on one export, with the outcomes the
environment chooses. -/
inductive TgtEvent (ι : Type)
  /-- `tgt_add_reply_data`. -/
  | addReplyData (e : ι) (trd : TgReplyData) (mem updateLrdFile : Bool) (writeRc : Int)
  /-- `tgt_handle_received_xid`. -/
  | handleReceivedXid (e : ι) (rcvdXid : Nat)
  /-- `tgt_handle_tag`. -/
  | handleTag (e : ι) (tag : Nat)
  /-- `tgt_client_free`. -/
  | clientFree (e : ι)

section Events

variable {ι : Type} [DecidableEq ι]

/-- Store the result of an operation on export `e`. -/
def TgtSystem.set (sys : TgtSystem ι) (e : ι) (done : LuTarget × TgExportData) :
    TgtSystem ι :=
  { lut := done.1, exports := Function.update sys.exports e done.2 }

@[simp] theorem TgtSystem.set_lut (sys : TgtSystem ι) (e : ι) (done : LuTarget × TgExportData) :
    (sys.set e done).lut = done.1 := rfl

@[simp] theorem TgtSystem.set_exports (sys : TgtSystem ι) (e : ι) (done : LuTarget × TgExportData) :
    (sys.set e done).exports = Function.update sys.exports e done.2 := rfl

/-- One operation; `none` is a failed assertion or a dereference of freed
memory, and stays. -/
def TgtEvent.apply : Option (TgtSystem ι) → TgtEvent ι → Option (TgtSystem ι)
  | none, _ => none
  | some sys, .addReplyData e trd mem updateLrdFile writeRc =>
    (tgtAddReplyData sys.lut (sys.exports e) trd mem updateLrdFile writeRc).map
      fun added => sys.set e (added.1, added.2.1)
  | some sys, .handleReceivedXid e rcvdXid =>
    (tgtHandleReceivedXid sys.lut (sys.exports e) rcvdXid).map (sys.set e)
  | some sys, .handleTag e tag => (tgtHandleTag sys.lut (sys.exports e) tag).map (sys.set e)
  | some sys, .clientFree e => (tgtClientFree sys.lut (sys.exports e)).map (sys.set e)

theorem TgtEvent.apply_addReplyData (sys : TgtSystem ι) (e : ι) (trd : TgReplyData) (mem updateLrdFile : Bool)
    (writeRc : Int) :
    TgtEvent.apply (some sys) (.addReplyData e trd mem updateLrdFile writeRc) =
      (tgtAddReplyData sys.lut (sys.exports e) trd mem updateLrdFile writeRc).map
        fun added => sys.set e (added.1, added.2.1) := rfl

theorem TgtEvent.apply_handleReceivedXid (sys : TgtSystem ι) (e : ι) (rcvdXid : Nat) :
    TgtEvent.apply (some sys) (.handleReceivedXid e rcvdXid) =
      (tgtHandleReceivedXid sys.lut (sys.exports e) rcvdXid).map (sys.set e) := rfl

theorem TgtEvent.apply_handleTag (sys : TgtSystem ι) (e : ι) (tag : Nat) :
    TgtEvent.apply (some sys) (.handleTag e tag) = (tgtHandleTag sys.lut (sys.exports e) tag).map (sys.set e) := rfl

theorem TgtEvent.apply_clientFree (sys : TgtSystem ι) (e : ι) :
    TgtEvent.apply (some sys) (.clientFree e) = (tgtClientFree sys.lut (sys.exports e)).map (sys.set e) := rfl

/-! ## Loading `reply_data` at start -/

/-- What `tgt_reply_data_init` finds: an empty file (a header is written), a
header with a wrong magic or record size, or a good header and the records
after it. -/
inductive ReplyDataFile
  | empty
  | invalidHeader
  | records (lrds : List LsdReplyData)

/-- The loop of `tgt_reply_data_init` from record `idx` on: a record whose
client generation belongs to a connected export (`gens`, the lookup in
`obd_gen_hash`) claims its slot and goes on that export's list.  The code of
`tgt_set_reply_slot` is ignored, as the source does. -/
def replyDataInitLoop (gens : Nat → Option ι) (mem : Bool) :
    List LsdReplyData → Nat → TgtSystem ι → Option (TgtSystem ι)
  | [], _, sys => some sys
  | lrd :: lrds, idx, sys =>
    match gens lrd.lrdClientGen with
    | none => replyDataInitLoop gens mem lrds (idx + 1) sys
    | some e =>
      match tgtSetReplySlot sys.lut idx mem with
      | none => none
      | some (lut, _) =>
        let ted := sys.exports e
        let trd : TgReplyData := ⟨lrd, idx, 0⟩
        replyDataInitLoop gens mem lrds (idx + 1) (sys.set e
          ({ lut with lutLastTransno := max lut.lutLastTransno lrd.lrdTransno },
           { ted with
              tedReplyList := trd :: ted.tedReplyList
              tedReplyCnt := ted.tedReplyCnt + 1
              tedReplyMax := max ted.tedReplyMax (ted.tedReplyCnt + 1)
              expLastCommitted := max ted.expLastCommitted lrd.lrdTransno }))

/-- `tgt_reply_data_init`, with its return code. -/
def tgtReplyDataInit (gens : Nat → Option ι) (mem : Bool) (file : ReplyDataFile)
    (sys : TgtSystem ι) : Option (Int × TgtSystem ι) :=
  match file with
  | .empty => some (0, sys)
  | .invalidHeader => some (-einval, sys)
  | .records lrds => (replyDataInitLoop gens mem lrds 0 sys).map fun sys => (0, sys)

end Events

/-! ## What loading `reply_data` does -/

/-- With memory, a chunk is always made ready. -/
theorem chunkReady_mem (lut : LuTarget) (chunk : Nat) : (chunkReady lut chunk true).2 = 0 := by
  unfold chunkReady tgtBitmapChunkAlloc
  split_ifs <;> simp_all

/-- `tgt_set_reply_slot` on a clear slot below the last chunk, with
memory, sets it. -/
theorem BitsAllocated.setReplySlot {lut : LuTarget} (allocated : BitsAllocated lut) {idx : Nat}
    (below : idx / lutReplySlotsPerChunk < lutReplySlotsMaxChunks)
    (clear : lut.lutReplyBitmap idx = false) :
    ∃ lut', tgtSetReplySlot lut idx true = some (lut', 0) ∧ BitsAllocated lut' ∧
      lut'.lutReplyBitmap = setBit lut.lutReplyBitmap idx true := by
  obtain ⟨readyAllocated, sameBits, -, outcome⟩ := allocated.prepareChunk (idx / lutReplySlotsPerChunk) true
  have ok := chunkReady_mem lut (idx / lutReplySlotsPerChunk)
  rcases outcome with ⟨-, chunkSet⟩ | failed
  · refine ⟨{ (chunkReady lut (idx / lutReplySlotsPerChunk) true).1 with
      lutReplyBitmap := setBit lut.lutReplyBitmap idx true }, ?_, ?_, rfl⟩
    · simp [tgtSetReplySlot_eq, below, ok, sameBits, clear]
    intro i bit
    by_cases same : i = idx
    · subst same
      exact ⟨below, chunkSet⟩
    · exact readyAllocated i (by rw [sameBits]; simpa [setBit_of_ne _ same] using bit)
  · rw [ok] at failed
    exact absurd failed (by decide)

/-- `tgt_set_reply_slot` fails its `LASSERT` exactly past the last chunk. -/
theorem tgtSetReplySlot_eq_none_iff (lut : LuTarget) (idx : Nat) (mem : Bool) :
    tgtSetReplySlot lut idx mem = none ↔
      lutReplySlotsPerChunk * lutReplySlotsMaxChunks ≤ idx := by
  have within : idx / lutReplySlotsPerChunk < lutReplySlotsMaxChunks ↔
      idx < lutReplySlotsPerChunk * lutReplySlotsMaxChunks := by
    rw [Nat.div_lt_iff_lt_mul (by decide), Nat.mul_comm]
  by_cases below : idx / lutReplySlotsPerChunk < lutReplySlotsMaxChunks
  · have inside := within.mp below
    simp only [tgtSetReplySlot_eq, below, if_true]
    constructor
    · intro isNone
      split_ifs at isNone
    · intro past
      omega
  · have outside := mt within.mpr below
    simp only [tgtSetReplySlot_eq, below, if_false, true_iff]
    omega

/-- A property of some element of a list, at its position. -/
theorem exists_getElem?_cons {α : Type} (p : Nat → α → Prop) (a : α) (l : List α) :
    (∃ k x, (a :: l)[k]? = some x ∧ p k x) ↔ p 0 a ∨ ∃ k x, l[k]? = some x ∧ p (k + 1) x := by
  constructor
  · rintro ⟨k, x, found, holds⟩
    cases k with
    | zero =>
      simp only [List.getElem?_cons_zero, Option.some.injEq] at found
      exact Or.inl (found ▸ holds)
    | succ k => exact Or.inr ⟨k, x, by simpa using found, holds⟩
  · rintro (holds | ⟨k, x, found, holds⟩)
    · exact ⟨0, a, rfl, holds⟩
    · exact ⟨k + 1, x, by simpa using found, holds⟩

section Loading

variable {ι : Type} [DecidableEq ι]

/-- The loading loop fails its `LASSERT` exactly when the file holds a record
of a connected client at a slot past the last chunk: `reply_data` files of
any size are not all loaded. -/
theorem replyDataInitLoop_eq_none_iff (gens : Nat → Option ι) (mem : Bool) :
    ∀ (lrds : List LsdReplyData) (idx : Nat) (sys : TgtSystem ι),
      replyDataInitLoop gens mem lrds idx sys = none ↔
        ∃ k lrd, lrds[k]? = some lrd ∧ (gens lrd.lrdClientGen).isSome ∧
          lutReplySlotsPerChunk * lutReplySlotsMaxChunks ≤ idx + k
  | [], idx, sys => by simp [replyDataInitLoop]
  | lrd :: lrds, idx, sys => by
    rw [exists_getElem?_cons (fun k (lrd : LsdReplyData) => (gens lrd.lrdClientGen).isSome ∧
      lutReplySlotsPerChunk * lutReplySlotsMaxChunks ≤ idx + k)]
    have shifted : (∃ k lrd, lrds[k]? = some lrd ∧ (gens lrd.lrdClientGen).isSome ∧
          lutReplySlotsPerChunk * lutReplySlotsMaxChunks ≤ idx + (k + 1)) ↔
        ∃ k lrd, lrds[k]? = some lrd ∧ (gens lrd.lrdClientGen).isSome ∧
          lutReplySlotsPerChunk * lutReplySlotsMaxChunks ≤ idx + 1 + k :=
      exists_congr fun k => by rw [show idx + (k + 1) = idx + 1 + k by omega]
    rw [shifted]
    cases connected : gens lrd.lrdClientGen with
    | none =>
      simp only [replyDataInitLoop, connected, Option.isSome_none, Bool.false_eq_true,
        false_and, false_or]
      exact replyDataInitLoop_eq_none_iff gens mem lrds (idx + 1) sys
    | some e =>
      cases setSlot : tgtSetReplySlot sys.lut idx mem with
      | none =>
        have past := (tgtSetReplySlot_eq_none_iff sys.lut idx mem).mp setSlot
        simp only [replyDataInitLoop, connected, setSlot, Option.isSome_some, true_and,
          Nat.add_zero, true_iff]
        exact Or.inl past
      | some result =>
        have within : ¬lutReplySlotsPerChunk * lutReplySlotsMaxChunks ≤ idx := fun past =>
          absurd ((tgtSetReplySlot_eq_none_iff sys.lut idx mem).mpr past) (by simp [setSlot])
        simp only [replyDataInitLoop, connected, setSlot, Option.isSome_some, true_and,
          Nat.add_zero, within, false_or]
        exact replyDataInitLoop_eq_none_iff gens mem lrds (idx + 1) _

end Loading

/-! ## Slots stay tracked over every run whose records are written -/

section Tracking

variable {ι : Type} [Fintype ι]

/-- How many replies held by all the exports use slot `i`. -/
def TgtSystem.holders (sys : TgtSystem ι) (i : Nat) : ℤ :=
  ∑ e, (sys.exports e).heldAt i

theorem TgtSystem.holders_eq (sys : TgtSystem ι) (i : Nat) :
    sys.holders i = ∑ e, (sys.exports e).heldAt i := rfl

/-- The bitmap and the replies agree: a set bit is used by exactly one held
reply and a clear one by none, every export counts the replies it holds, a
freed export holds none, and set bits lie in allocated chunks. -/
structure SlotsTracked (sys : TgtSystem ι) : Prop where
  exact : ∀ i, bitCount sys.lut i = sys.holders i
  counted : ∀ e, (sys.exports e).tedReplyCnt = (sys.exports e).held.length
  freedEmpty : ∀ e, (sys.exports e).tedLcd = none → (sys.exports e).held = []
  allocated : BitsAllocated sys.lut

/-- What tracking says of one slot: its bit is set exactly when one held
reply uses it. -/
theorem SlotsTracked.bit_iff {sys : TgtSystem ι} (tracked : SlotsTracked sys) (i : Nat) :
    sys.lut.lutReplyBitmap i = true ↔ sys.holders i = 1 := by
  rw [← tracked.exact i]
  unfold bitCount
  split <;> simp_all

/-- One export of a tracked target owns its replies' slots. -/
theorem SlotsTracked.owns {sys : TgtSystem ι} (tracked : SlotsTracked sys) (e : ι) :
    Owns sys.lut (sys.exports e) where
  bounded i := by
    rw [tracked.exact i, TgtSystem.holders_eq]
    exact Finset.single_le_sum (fun j _ => heldAt_nonneg (sys.exports j) i) (Finset.mem_univ e)
  counted := tracked.counted e
  freedEmpty := tracked.freedEmpty e
  allocated := tracked.allocated

/-- A target with no slot in use and exports that hold nothing is
tracked. -/
theorem slotsTracked_of_quiet {sys : TgtSystem ι} (clear : ∀ i, sys.lut.lutReplyBitmap i = false)
    (empty : ∀ e, (sys.exports e).held = []) (uncounted : ∀ e, (sys.exports e).tedReplyCnt = 0) :
    SlotsTracked sys where
  exact i := by simp [bitCount_eq, clear, TgtSystem.holders_eq, TgExportData.heldAt_def, empty]
  counted e := by simp [empty, uncounted]
  freedEmpty e _ := empty e
  allocated i bit := by simp [clear] at bit

/-- A target with one connected export, no slot in use and nothing held. -/
def quietTarget : TgtSystem Unit :=
  ⟨⟨fun _ => false, fun _ => false, 0⟩, fun _ => ⟨some ⟨0⟩, [], none, 0, 0, 0, 0, 0⟩⟩

variable [DecidableEq ι]

/-- A change of one export that moved the bits as it moved the export's
replies keeps the whole target tracked. -/
theorem SlotsTracked.set {sys : TgtSystem ι} {e : ι} {done : LuTarget × TgExportData}
    (tracked : SlotsTracked sys) (moves : SlotMoves sys.lut done.1 (sys.exports e) done.2)
    (owns : Owns done.1 done.2) : SlotsTracked (sys.set e done) where
  exact i := Ledger.total_eq_sum_update (fun ted : TgExportData => ted.heldAt i) (tracked.exact i)
    (moves i)
  counted e' := by
    by_cases same : e' = e
    · subst same
      simpa using owns.counted
    · simpa [same] using tracked.counted e'
  freedEmpty e' := by
    by_cases same : e' = e
    · subst same
      simpa using owns.freedEmpty
    · simpa [same] using tracked.freedEmpty e'
  allocated := owns.allocated

/-- The operations the tracking holds over: a reply is added only to a
connected export, and its record is written. -/
def TgtEvent.Written (sys : TgtSystem ι) : TgtEvent ι → Prop
  | .addReplyData e _ _ updateLrdFile writeRc =>
    (sys.exports e).tedLcd ≠ none ∧ (updateLrdFile = false ∨ writeRc = 0)
  | _ => True

/-- `Written`, for a state a failed assertion may have ended. -/
def TgtEvent.WrittenAt : Option (TgtSystem ι) → TgtEvent ι → Prop
  | some sys, event => event.Written sys
  | none, _ => False

/-- One operation whose record is written fails no assertion and keeps the
target tracked. -/
theorem SlotsTracked.apply {sys : TgtSystem ι} (tracked : SlotsTracked sys)
    {event : TgtEvent ι} (written : event.Written sys) :
    ∃ sys', TgtEvent.apply (some sys) event = some sys' ∧ SlotsTracked sys' := by
  cases event with
  | addReplyData e trd mem updateLrdFile writeRc =>
    obtain ⟨connected, ok⟩ := written
    obtain ⟨lcd, live⟩ := Option.ne_none_iff_exists'.mp connected
    obtain ⟨added, ran, moves, owns⟩ :=
      (tracked.owns e).addReplyData live trd mem updateLrdFile writeRc ok
    exact ⟨_, by simp [TgtEvent.apply_addReplyData, ran],
      @SlotsTracked.set ι _ _ sys e (added.1, added.2.1) tracked moves owns⟩
  | handleReceivedXid e rcvdXid =>
    obtain ⟨done, ran, moves, owns, -⟩ := (tracked.owns e).handleReceivedXid rcvdXid
    exact ⟨_, by simp [TgtEvent.apply_handleReceivedXid, ran], tracked.set moves owns⟩
  | handleTag e tag =>
    obtain ⟨done, ran, moves, owns, -⟩ := (tracked.owns e).handleTag tag
    exact ⟨_, by simp [TgtEvent.apply_handleTag, ran], tracked.set moves owns⟩
  | clientFree e =>
    obtain ⟨done, ran, moves, owns, -⟩ := (tracked.owns e).clientFree
    exact ⟨_, by simp [TgtEvent.apply_clientFree, ran], tracked.set moves owns⟩

/-- Over every run from a tracked target whose records are written, in any
order of operations on any exports, no assertion fails, a bit is set
exactly when one held reply uses its slot, and every export's count is the
number of replies it holds. -/
theorem slotsTracked_of_reachable {start : TgtSystem ι} (tracked : SlotsTracked start)
    {state : Option (TgtSystem ι)}
    (reachable : Machine.Reachable TgtEvent.apply TgtEvent.WrittenAt (some start) state) :
    ∃ sys, state = some sys ∧ SlotsTracked sys := by
  refine reachable.invariant (fun state => ∃ sys, state = some sys ∧ SlotsTracked sys)
    ⟨start, rfl, tracked⟩ ?_
  rintro _ event ⟨sys, rfl, tracked⟩ written
  exact tracked.apply written

/-- A reply added to the quiet target, its record written. -/
theorem slotsTracked_of_reachable_first_reply :
    ∃ sys, TgtEvent.apply (some quietTarget) (.addReplyData () ⟨⟨1, 1, 1⟩, 0, 0⟩ true true 0) = some sys ∧
      SlotsTracked sys :=
  slotsTracked_of_reachable (slotsTracked_of_quiet (fun _ => rfl) (fun _ => rfl) (fun _ => rfl))
    (Machine.Reachable.start.step (TgtEvent.addReplyData () ⟨⟨1, 1, 1⟩, 0, 0⟩ true true 0)
      ⟨by simp [quietTarget], .inr rfl⟩)

/-- A change of one export that left its replies as they were leaves every
slot's holders as they were. -/
theorem holders_set_of_heldAt {sys : TgtSystem ι} {e : ι} {done : LuTarget × TgExportData}
    (same : ∀ i, done.2.heldAt i = (sys.exports e).heldAt i) (i : Nat) :
    (sys.set e done).holders i = sys.holders i := by
  simp only [TgtSystem.holders_eq, TgtSystem.set_exports]
  rw [Ledger.sum_update_eq sys.exports e done.2 fun ted => ted.heldAt i, same i, sub_self,
    add_zero]

/-- The loading loop from a tracked target whose slots from `idx` on are
clear: with memory, and every record of a connected client below the last
slot, every such record claims its own slot and the target stays
tracked. -/
theorem SlotsTracked.loadReplies (gens : Nat → Option ι) :
    ∀ (lrds : List LsdReplyData) (idx : Nat) (sys : TgtSystem ι), SlotsTracked sys →
      (∀ j, idx ≤ j → sys.lut.lutReplyBitmap j = false) →
      (∀ gen e, gens gen = some e → (sys.exports e).tedLcd ≠ none) →
      (∀ k lrd, lrds[k]? = some lrd → (gens lrd.lrdClientGen).isSome →
        idx + k < lutReplySlotsPerChunk * lutReplySlotsMaxChunks) →
      ∃ sys', replyDataInitLoop gens true lrds idx sys = some sys' ∧ SlotsTracked sys'
  | [], _, sys, tracked, _, _, _ => ⟨sys, rfl, tracked⟩
  | lrd :: lrds, idx, sys, tracked, clearFrom, connected, below => by
    have below' : ∀ k lrd', lrds[k]? = some lrd' → (gens lrd'.lrdClientGen).isSome →
        idx + 1 + k < lutReplySlotsPerChunk * lutReplySlotsMaxChunks := fun k lrd' found live => by
      have := below (k + 1) lrd' (by simpa using found) live
      omega
    cases found : gens lrd.lrdClientGen with
    | none =>
      simp only [replyDataInitLoop, found]
      exact SlotsTracked.loadReplies gens lrds (idx + 1) sys tracked
        (fun j above => clearFrom j (by omega)) connected below'
    | some e =>
      have inRange := below 0 lrd rfl (by simp [found])
      have chunkBelow : idx / lutReplySlotsPerChunk < lutReplySlotsMaxChunks := by
        rw [Nat.div_lt_iff_lt_mul (by decide), Nat.mul_comm]
        simpa using inRange
      have clear := clearFrom idx le_rfl
      obtain ⟨lut', setSlot, allocated', bits'⟩ := tracked.allocated.setReplySlot chunkBelow clear
      have live := connected _ _ found
      have counted := (tracked.owns e).counted
      simp only [TgExportData.held_eq, List.length_append] at counted
      simp only [replyDataInitLoop, found, setSlot]
      -- the record claims slot `idx` and goes on its export's list
      have moves : SlotMoves sys.lut
          { lut' with lutLastTransno := max lut'.lutLastTransno lrd.lrdTransno } (sys.exports e)
          { sys.exports e with
            tedReplyList := ⟨lrd, idx, 0⟩ :: (sys.exports e).tedReplyList
            tedReplyCnt := (sys.exports e).tedReplyCnt + 1
            tedReplyMax := max (sys.exports e).tedReplyMax ((sys.exports e).tedReplyCnt + 1)
            expLastCommitted := max (sys.exports e).expLastCommitted lrd.lrdTransno } := by
        intro i
        have sameBit : bitCount
            { lut' with lutLastTransno := max lut'.lutLastTransno lrd.lrdTransno } i =
            bitCount lut' i := rfl
        rw [heldAt_eq, heldAt_eq, sameBit, bitCount_of_setBit bits']
        by_cases same : i = idx
        · subst same
          simp [bitCount_eq, clear]
        · simp [same, Ne.symm same]
      have owns := (tracked.owns e).of_moves moves
        (by simp only [TgExportData.held_eq, List.length_append, List.length_cons]; push_cast; omega)
        (fun freed => absurd freed live) allocated'
      refine SlotsTracked.loadReplies gens lrds (idx + 1) _ (tracked.set moves owns) ?_ ?_ below'
      · intro j above
        simp [bits', setBit_of_ne _ (show j ≠ idx by omega), clearFrom j (by omega)]
      · intro gen e' found'
        by_cases same : e' = e
        · subst same
          simpa using connected gen e' found'
        · simpa [same] using connected gen e' found'

/-- `tgt_reply_data_init` on a target with no slot in use: with every chunk
allocation succeeding, and every record of a connected client below the
last slot, it loads without a failed assertion and leaves the target
tracked. -/
theorem tgtReplyDataInit_tracked (gens : Nat → Option ι) (file : ReplyDataFile)
    {sys : TgtSystem ι} (clear : ∀ i, sys.lut.lutReplyBitmap i = false)
    (empty : ∀ e, (sys.exports e).held = []) (uncounted : ∀ e, (sys.exports e).tedReplyCnt = 0)
    (connected : ∀ gen e, gens gen = some e → (sys.exports e).tedLcd ≠ none)
    (below : ∀ lrds, file = .records lrds → ∀ k lrd, lrds[k]? = some lrd →
      (gens lrd.lrdClientGen).isSome → k < lutReplySlotsPerChunk * lutReplySlotsMaxChunks) :
    ∃ rc sys', tgtReplyDataInit gens true file sys = some (rc, sys') ∧ SlotsTracked sys' := by
  have tracked := slotsTracked_of_quiet clear empty uncounted
  cases file with
  | empty => exact ⟨0, sys, rfl, tracked⟩
  | invalidHeader => exact ⟨-einval, sys, rfl, tracked⟩
  | records lrds =>
    obtain ⟨sys', loaded, tracked'⟩ := tracked.loadReplies gens lrds 0 sys
      (fun j _ => clear j) connected (fun k lrd found live => by
        simpa using below lrds rfl k lrd found live)
    exact ⟨0, sys', by simp [tgtReplyDataInit, loaded], tracked'⟩

/-- One record of a connected client loaded into the quiet target. -/
theorem tgtReplyDataInit_tracked_one_record :
    ∃ rc sys', tgtReplyDataInit (fun _ => some ()) true (.records [⟨1, 1, 1⟩]) quietTarget = some (rc, sys') ∧
      SlotsTracked sys' :=
  tgtReplyDataInit_tracked (fun _ => some ()) (.records [⟨1, 1, 1⟩]) (fun _ => rfl) (fun _ => rfl)
    (fun _ => rfl) (fun _ _ _ => by simp [quietTarget]) (fun lrds file k lrd found _ => by
      cases file
      cases k with
      | zero => decide
      | succ k => simp at found)

/-! ### The reply with the last transaction number -/

/-- The operations over which every export keeps a reply with its last
transaction number: as `Written`, and an added reply gets its slot and
carries a transaction number no lower than the export's last. -/
def TgtEvent.Served (sys : TgtSystem ι) : TgtEvent ι → Prop
  | .addReplyData e trd mem updateLrdFile writeRc =>
    (∃ lcd, (sys.exports e).tedLcd = some lcd ∧ lcd.lcdLastTransno ≤ trd.trdReply.lrdTransno) ∧
    (tgtAddReplyData sys.lut (sys.exports e) trd mem updateLrdFile writeRc).map
      (fun added => added.2.2) = some 0
  | _ => True

/-- `Served`, for a state a failed assertion may have ended. -/
def TgtEvent.ServedAt : Option (TgtSystem ι) → TgtEvent ι → Prop
  | some sys, event => event.Served sys
  | none, _ => False

/-- Tracked, and every export keeps a reply with its last transaction
number. -/
def LastKept (sys : TgtSystem ι) : Prop :=
  SlotsTracked sys ∧ ∀ e, (sys.exports e).KeepsLast

omit [Fintype ι] in
/-- A change of one export that keeps its last reply keeps `KeepsLast` of
every export. -/
theorem keepsLast_set {sys : TgtSystem ι} {e : ι} {done : LuTarget × TgExportData}
    (kept : ∀ e, (sys.exports e).KeepsLast) (keeps : done.2.KeepsLast) (e' : ι) :
    ((sys.set e done).exports e').KeepsLast := by
  by_cases same : e' = e
  · subst same
    simpa using keeps
  · simpa [same] using kept e'

/-- One served operation keeps `LastKept`. -/
theorem LastKept.apply {sys : TgtSystem ι} (lastKept : LastKept sys) {event : TgtEvent ι}
    (served : event.Served sys) :
    ∃ sys', TgtEvent.apply (some sys) event = some sys' ∧ LastKept sys' := by
  obtain ⟨tracked, kept⟩ := lastKept
  cases event with
  | addReplyData e trd mem updateLrdFile writeRc =>
    obtain ⟨⟨lcd, live, fresh⟩, succeeded⟩ := served
    obtain ⟨added, ran, -, -, lcd', -, outcome⟩ :=
      tgtAddReplyData_cases tracked.allocated live trd mem updateLrdFile writeRc
    simp only [ran, Option.map_some, Option.some.injEq] at succeeded
    rcases outcome with ⟨failed, -⟩ | ⟨slot, -, -, ⟨-, nonzero, returned, -⟩ | ⟨written, -, listed, -⟩⟩
    · omega
    · exact absurd (returned.symm.trans succeeded) nonzero
    · have ok : updateLrdFile = false ∨ writeRc = 0 := by
        cases updateLrdFile <;> simp_all
      obtain ⟨added', ran', moves, owns⟩ :=
        (tracked.owns e).addReplyData live trd mem updateLrdFile writeRc ok
      rw [ran] at ran'
      obtain rfl := Option.some.inj ran'
      -- the new reply carries the raised last number
      have keeps : added.2.1.KeepsLast := by
        intro current isCurrent
        rw [lcd'] at isCurrent
        obtain rfl := Option.some.inj isCurrent
        refine Or.inr ⟨{ trd with trdIndex := slot }, ?_, ?_⟩
        · simp [TgExportData.held_eq, listed]
        · simp [Nat.max_eq_right fresh]
      exact ⟨_, by simp [TgtEvent.apply_addReplyData, ran],
        ⟨@SlotsTracked.set ι _ _ sys e (added.1, added.2.1) tracked moves owns,
          keepsLast_set kept keeps⟩⟩
  | handleReceivedXid e rcvdXid =>
    obtain ⟨done, ran, moves, owns, -, keeps⟩ := (tracked.owns e).handleReceivedXid rcvdXid
    exact ⟨_, by simp [TgtEvent.apply_handleReceivedXid, ran], tracked.set moves owns,
      keepsLast_set kept (keeps (kept e))⟩
  | handleTag e tag =>
    obtain ⟨done, ran, moves, owns, -, keeps⟩ := (tracked.owns e).handleTag tag
    exact ⟨_, by simp [TgtEvent.apply_handleTag, ran], tracked.set moves owns,
      keepsLast_set kept (keeps (kept e))⟩
  | clientFree e =>
    obtain ⟨done, ran, moves, owns, empty⟩ := (tracked.owns e).clientFree
    exact ⟨_, by simp [TgtEvent.apply_clientFree, ran], tracked.set moves owns,
      keepsLast_set kept fun _ _ => Or.inl empty⟩

/-- Over every run of served operations from a target where every export
keeps its last reply, every release leaves each export holding a reply
with its last transaction number, or nothing. -/
theorem lastKept_of_reachable {start : TgtSystem ι} (lastKept : LastKept start)
    {state : Option (TgtSystem ι)}
    (reachable : Machine.Reachable TgtEvent.apply TgtEvent.ServedAt (some start) state) :
    ∃ sys, state = some sys ∧ LastKept sys := by
  refine reachable.invariant (fun state => ∃ sys, state = some sys ∧ LastKept sys)
    ⟨start, rfl, lastKept⟩ ?_
  rintro _ event ⟨sys, rfl, lastKept⟩ served
  exact lastKept.apply served

/-- A reply with the export's last transaction number added to the quiet target. -/
theorem lastKept_of_reachable_first_reply :
    ∃ sys, TgtEvent.apply (some quietTarget) (.addReplyData () ⟨⟨1, 1, 1⟩, 0, 0⟩ true true 0) = some sys ∧
      LastKept sys :=
  lastKept_of_reachable
    ⟨slotsTracked_of_quiet (fun _ => rfl) (fun _ => rfl) (fun _ => rfl), fun _ _ _ => .inl rfl⟩
    (Machine.Reachable.start.step (TgtEvent.addReplyData () ⟨⟨1, 1, 1⟩, 0, 0⟩ true true 0)
      ⟨⟨⟨0⟩, rfl, by decide⟩, by decide⟩)

end Tracking

/-! ## Where the accounting breaks -/

/-- From a tracked target, a failed write of the record leaves slot 0 set
with no reply using it.  A reply is then added, a second one's record
write fails, and the client acknowledges the first: the export holds no
reply, though `lcd_last_transno` is 2.  Loading a record of a connected
client while a chunk allocation fails lists a reply whose slot stays
clear. -/
theorem tgtAddReplyData_leaks_slot :
    SlotsTracked quietTarget ∧
      (Machine.run TgtEvent.apply (some quietTarget)
          [.addReplyData () ⟨⟨1, 1, 1⟩, 0, 0⟩ true true (-5)]).map
        (fun sys => (sys.lut.lutReplyBitmap 0, sys.holders 0)) = some (true, 0) ∧
      (Machine.run TgtEvent.apply (some quietTarget)
          [.addReplyData () ⟨⟨1, 1, 1⟩, 0, 0⟩ true true 0,
           .addReplyData () ⟨⟨2, 2, 1⟩, 0, 0⟩ true true (-5),
           .handleReceivedXid () 1]).map
        (fun sys => ((sys.exports ()).tedLcd, (sys.exports ()).held)) = some (some ⟨2⟩, []) ∧
      (tgtReplyDataInit (fun _ => some ()) false (.records [⟨1, 1, 1⟩]) quietTarget).map
        (fun loaded => (loaded.2.lut.lutReplyBitmap 0, loaded.2.holders 0)) = some (false, 1) :=
  ⟨slotsTracked_of_quiet (fun _ => rfl) (fun _ => rfl) (fun _ => rfl), by decide, by decide,
    by decide⟩

end TgtLastrcvd
end Lustre
