import Lustre.Ptlrpc.PackGeneric
import Lustre.Library.Bytes

/-!
# Laying out and shrinking RPC messages (ptlrpc/pack_generic.c)

A sender sizes a message with `lustre_msg_size_v2`, lays out its header and
buffers with `lustre_init_msg_v2`, and may later cut a buffer short with
`lustre_shrink_msg_v2`, which moves the buffers after it down with one
`memmove`.  The three functions and the accessor `lustre_msg_buf_v2` each
recompute the offset of a buffer from the rounded lengths of the buffers before
it, in their own machine integers: a `__u32` for the size and the offset, a
pointer for the layout, an `int` for the length of the moved tail.

The header words are kept as `LustreMsgV2` and the message's memory as a list
of bytes; the buffers lie after the header, so the two never overlap.  When the
true length of a message is below `2^31`, every computation is exact: the
buffers are where the header and the rounded lengths before them say, 8-byte
aligned, apart and inside the message, and a shrink keeps the bytes of every
buffer.  A message whose true length reaches `2^32` gets a size that has
wrapped, smaller than its own header.
-/

namespace Lustre
namespace PackGeneric

open Bytes

/-! ## The functions -/

/-- `lustre_msg_size_v2`: the header size and the rounded buffer lengths,
added up in a `__u32`. -/
def lustreMsgSizeV2 (count : Int32) (lengths : Nat → UInt32) : UInt32 :=
  (List.range count.toNatClampNeg).foldl
    (fun size i => (size.toUInt64 + cfsSizeRound (lengths i).toUInt64).toUInt32)
    (lustreMsgHdrSizeV2 count.toUInt32)

/-- `memcpy(dst, src, len)` into the message memory; `none` when it would read
past the source or write past the memory. -/
def memcpyInto (mem : List UInt8) (dst : Nat) (src : List UInt8) (len : Nat) : Option (List UInt8) :=
  if len ≤ src.length ∧ dst + len ≤ mem.length then some (overwrite mem dst (src.take len)) else none

/-- `memmove(dst, src, len)` within the message memory: the bytes at `src`, as
they were, stored at `dst`. -/
def memmoveWithin (mem : List UInt8) (dst src len : Nat) : Option (List UInt8) :=
  match slice mem src len with
  | none => none
  | some moved => if dst + len ≤ mem.length then some (overwrite mem dst moved) else none

/-- The `LOGL` loop of `lustre_init_msg_v2`: buffer `i`, when given, is copied
to the pointer `ptr`, which then moves past its rounded length. -/
def logBuffers (lens : Nat → UInt32) (bufs : Nat → Option (List UInt8)) :
    List Nat → Nat → List UInt8 → Option (List UInt8)
  | [], _, mem => some mem
  | i :: rest, ptr, mem =>
    let copied := match bufs i with
      | none => some mem
      | some src => memcpyInto mem ptr src (lens i).toNat
    match copied with
    | none => none
    | some mem => logBuffers lens bufs rest (ptr + (cfsSizeRound (lens i).toUInt64).toNat) mem

/-- `lustre_init_msg_v2`: the header words, then, when `bufs` is given, the
buffers copied in after the header. -/
def lustreInitMsgV2 (msg : LustreMsgV2) (mem : List UInt8) (count : Int32) (lens : Nat → UInt32)
    (bufs : Option (Nat → Option (List UInt8))) : Option (LustreMsgV2 × List UInt8) :=
  let msg : LustreMsgV2 := { msg with
    lmBufcount := count.toUInt32
    lmMagic := lustreMsgMagicV2
    lmBuflens := fun i => if i < count.toNatClampNeg then lens i else msg.lmBuflens i }
  match bufs with
  | none => some (msg, mem)
  | some bufs =>
    match logBuffers lens bufs (List.range count.toNatClampNeg) (lustreMsgHdrSizeV2 count.toUInt32).toNat mem with
    | none => none
    | some mem => some (msg, mem)

/-- `tail_len` of `lustre_shrink_msg_v2`: the rounded lengths of the buffers
after `segment`, added up in an `int`. -/
def tailLength (msg : LustreMsgV2) (segment : UInt32) : Int32 :=
  (List.range' (segment.toNat + 1) (msg.lmBufcount.toNat - (segment.toNat + 1))).foldl
    (fun tailLen n => addRounded tailLen (msg.lmBuflens n)) 0

/-- The header after `msg->lm_buflens[segment] = newlen`. -/
def setBuflen (msg : LustreMsgV2) (segment newlen : UInt32) : LustreMsgV2 :=
  { msg with lmBuflens := Function.update msg.lmBuflens segment.toNat newlen }

theorem setBuflen_eq (msg : LustreMsgV2) (segment newlen : UInt32) :
    setBuflen msg segment newlen = { msg with lmBuflens := Function.update msg.lmBuflens segment.toNat newlen } := rfl

/-- `lustre_shrink_msg_v2`: the result, the header and the memory. -/
def lustreShrinkMsgV2 (msg : LustreMsgV2) (mem : List UInt8) (segment newlen : UInt32) (moveData : Bool) :
    Option (Int32 × LustreMsgV2 × List UInt8) :=
  if msg.lmBufcount ≤ segment then none
  else if msg.lmBuflens segment.toNat < newlen then none
  else if msg.lmBuflens segment.toNat = newlen then
    some ((lustreMsgSizeV2 msg.lmBufcount.toInt32 msg.lmBuflens).toInt32, msg, mem)
  else
    -- where the later buffers start, taken before the length changes
    let (tail, tailLen) : Option UInt32 × Int32 :=
      if moveData ∧ msg.lmBufcount > segment + 1 then (lustreMsgBufV2 msg (segment + 1) 0, tailLength msg segment)
      else (none, 0)
    let msg := setBuflen msg segment newlen
    let moved : Option (List UInt8) :=
      match tail with
      | none => some mem
      | some tail =>
        if tailLen = 0 then some mem
        else
          match lustreMsgBufV2 msg (segment + 1) 0 with
          | none => none
          | some newpos =>
            if tail < newpos then none
            else if newpos = tail then some mem
            else memmoveWithin mem newpos.toNat tail.toNat tailLen.toInt64.toUInt64.toNat
    match moved with
    | none => none
    | some mem => some ((lustreMsgSizeV2 msg.lmBufcount.toInt32 msg.lmBuflens).toInt32, msg, mem)

/-- Buffer `n` read through `lustre_msg_buf_v2`: the `lm_buflens[n]` bytes at
the pointer it returns. -/
def lustreMsgBufContents (msg : LustreMsgV2) (mem : List UInt8) (n : UInt32) : Option (List UInt8) :=
  match lustreMsgBufV2 msg n 0 with
  | none => none
  | some offset => slice mem offset.toNat (msg.lmBuflens n.toNat).toNat

/-! ## Offsets in unbounded arithmetic -/

/-- The offset of buffer `n`: the header, then the rounded earlier buffers. -/
def bufOffset (msg : LustreMsgV2) (n : Nat) : Nat := msgHdrSize msg.lmBufcount.toNat + roundedSum n msg.lmBuflens

theorem sizeRound_mod_eight (val : Nat) : sizeRound val % 8 = 0 := by
  unfold sizeRound
  omega

theorem roundedSum_mod_eight (n : Nat) (lens : Nat → UInt32) : roundedSum n lens % 8 = 0 := by
  induction n with
  | zero => rfl
  | succ n ih =>
    have := sizeRound_mod_eight (lens n).toNat
    rw [roundedSum_succ]
    omega

/-- The rounded lengths from buffer `start` on, for `k` buffers. -/
theorem roundedSum_add (lens : Nat → UInt32) (start : Nat) :
    ∀ k, roundedSum (start + k) lens =
      roundedSum start lens + ((List.range' start k).map fun n => sizeRound (lens n).toNat).sum
  | 0 => by simp
  | k + 1 => by
    rw [← Nat.add_assoc, roundedSum_succ, roundedSum_add lens start k, List.range'_concat, List.map_append,
      List.sum_append]
    simp [Nat.add_assoc]

/-- A buffer ends no later than the next one starts. -/
theorem roundedSum_add_le (lens : Nat → UInt32) {m n : Nat} (before : m < n) :
    roundedSum m lens + (lens m).toNat ≤ roundedSum n lens := by
  have := roundedSum_mono (show m + 1 ≤ n by omega) lens
  have := le_sizeRound (lens m).toNat
  rw [roundedSum_succ] at *
  omega

/-- `lustre_msg_buf_v2` of a buffer that is present, in a message whose true
length fits in its `__u32`, is the buffer's offset. -/
theorem lustreMsgBufV2_eq_bufOffset {msg : LustreMsgV2} {n : UInt32} (present : n < msg.lmBufcount)
    (small : msg.requiredLength < 2 ^ 32) :
    ∃ offset, lustreMsgBufV2 msg n 0 = some offset ∧ offset.toNat = bufOffset msg n.toNat := by
  have presentNat : n.toNat < msg.lmBufcount.toNat := UInt32.lt_iff_toNat_lt.mp present
  have prefixLe := roundedSum_mono (Nat.le_of_lt presentNat) msg.lmBuflens
  unfold LustreMsgV2.requiredLength at small
  have headerToNat : (lustreMsgHdrSizeV2 msg.lmBufcount).toNat = msgHdrSize msg.lmBufcount.toNat := by
    rw [lustreMsgHdrSizeV2_toNat]
    exact Nat.mod_eq_of_lt (by omega)
  rw [lustreMsgBufV2, if_neg (by simpa using present), if_neg (by simp)]
  refine ⟨_, rfl, ?_⟩
  rw [bufOffset_toNat _ _ _ (by omega), headerToNat]
  rfl

/-- `lustre_msg_size_v2` of a non-negative count whose true size fits in a
`__u32` is that size. -/
theorem lustreMsgSizeV2_toNat {count : Int32} (nonneg : 0 ≤ count) (lens : Nat → UInt32)
    (small : msgHdrSize count.toNatClampNeg + roundedSum count.toNatClampNeg lens < 2 ^ 32) :
    (lustreMsgSizeV2 count lens).toNat = msgHdrSize count.toNatClampNeg + roundedSum count.toNatClampNeg lens := by
  have countNat : count.toUInt32.toNat = count.toNatClampNeg :=
    (Int32.toNat_toBitVec count).symm.trans (Int32.toNat_toBitVec_of_le nonneg)
  have headerToNat : (lustreMsgHdrSizeV2 count.toUInt32).toNat = msgHdrSize count.toNatClampNeg := by
    rw [lustreMsgHdrSizeV2_toNat, countNat]
    exact Nat.mod_eq_of_lt (by omega)
  rw [lustreMsgSizeV2, bufOffset_toNat _ _ _ (by rw [headerToNat]; exact small), headerToNat]

/-- A buffer ends no later than the next one starts. -/
theorem bufOffset_add_le_bufOffset (msg : LustreMsgV2) {m n : Nat} (before : m < n) :
    bufOffset msg m + (msg.lmBuflens m).toNat ≤ bufOffset msg n := by
  have := roundedSum_add_le msg.lmBuflens before
  unfold bufOffset
  omega

/-- Every buffer present ends within the true length. -/
theorem bufOffset_add_le_requiredLength {msg : LustreMsgV2} {n : Nat} (present : n < msg.lmBufcount.toNat) :
    bufOffset msg n + (msg.lmBuflens n).toNat ≤ msg.requiredLength :=
  bufOffset_add_le_bufOffset msg present

theorem bufOffset_mono (msg : LustreMsgV2) {m n : Nat} (le : m ≤ n) : bufOffset msg m ≤ bufOffset msg n :=
  Nat.add_le_add_left (roundedSum_mono le msg.lmBuflens) _

/-- A message whose true length is below `2^31` and fits in its memory: every
`__u32` and `int` the code computes on its lengths is then exact. -/
structure Fits (msg : LustreMsgV2) (mem : List UInt8) : Prop where
  small : msg.requiredLength < 2 ^ 31
  inside : msg.requiredLength ≤ mem.length

namespace Fits

variable {msg : LustreMsgV2} {mem : List UInt8}

theorem countSmall (fits : Fits msg mem) : msg.lmBufcount.toNat < 2 ^ 31 := by
  have := fits.small
  unfold LustreMsgV2.requiredLength msgHdrSize sizeRound at this
  omega

/-- `lustre_msg_size_v2(lm_bufcount, lm_buflens)` is the true length. -/
theorem lustreMsgSizeV2_toNat (fits : Fits msg mem) :
    (lustreMsgSizeV2 msg.lmBufcount.toInt32 msg.lmBuflens).toNat = msg.requiredLength := by
  obtain ⟨nonneg, countNat⟩ := UInt32.toNatClampNeg_toInt32 fits.countSmall
  have := fits.small
  unfold LustreMsgV2.requiredLength at this ⊢
  rw [PackGeneric.lustreMsgSizeV2_toNat nonneg _ (by rw [countNat]; omega), countNat]

/-- The buffers present lie at their offsets, inside the memory. -/
theorem lustreMsgBufContents_eq (fits : Fits msg mem) {n : UInt32} (present : n < msg.lmBufcount) :
    lustreMsgBufContents msg mem n = slice mem (bufOffset msg n.toNat) (msg.lmBuflens n.toNat).toNat := by
  obtain ⟨offset, located, offsetNat⟩ := lustreMsgBufV2_eq_bufOffset present (by have := fits.small; omega)
  simp only [lustreMsgBufContents, located, offsetNat]

theorem bufOffset_add_le (fits : Fits msg mem) {n : Nat} (present : n < msg.lmBufcount.toNat) :
    bufOffset msg n + (msg.lmBuflens n).toNat ≤ mem.length :=
  Nat.le_trans (bufOffset_add_le_requiredLength present) fits.inside

/-- Every buffer present is at its offset, 8-byte aligned, after the buffers
before it and inside the memory. -/
theorem buffer_layout (fits : Fits msg mem) {n : UInt32} (present : n < msg.lmBufcount) :
    ∃ offset, lustreMsgBufV2 msg n 0 = some offset ∧ offset.toNat = bufOffset msg n.toNat ∧
      offset.toNat % 8 = 0 ∧ offset.toNat + (msg.lmBuflens n.toNat).toNat ≤ mem.length ∧
      ∀ j : UInt32, j < n → ∃ offsetJ, lustreMsgBufV2 msg j 0 = some offsetJ ∧
        offsetJ.toNat + (msg.lmBuflens j.toNat).toNat ≤ offset.toNat := by
  have small : msg.requiredLength < 2 ^ 32 := by have := fits.small; omega
  obtain ⟨offset, located, offsetNat⟩ := lustreMsgBufV2_eq_bufOffset present small
  have presentNat : n.toNat < msg.lmBufcount.toNat := UInt32.lt_iff_toNat_lt.mp present
  refine ⟨offset, located, offsetNat, ?_, by rw [offsetNat]; exact fits.bufOffset_add_le presentNat, ?_⟩
  · have := sizeRound_mod_eight (32 + 4 * msg.lmBufcount.toNat)
    have := roundedSum_mod_eight n.toNat msg.lmBuflens
    rw [offsetNat, bufOffset, msgHdrSize]
    omega
  · intro j before
    have beforeNat : j.toNat < n.toNat := UInt32.lt_iff_toNat_lt.mp before
    obtain ⟨offsetJ, locatedJ, offsetJNat⟩ := lustreMsgBufV2_eq_bufOffset (UInt32.lt_trans before present) small
    refine ⟨offsetJ, locatedJ, ?_⟩
    rw [offsetJNat, offsetNat]
    exact bufOffset_add_le_bufOffset msg beforeNat

end Fits

/-! ## Laying out a message -/

theorem cfsSizeRound_toNat_of_u32 (len : UInt32) : (cfsSizeRound len.toUInt64).toNat = sizeRound len.toNat := by
  have := len.toNat_lt
  rw [cfsSizeRound_toNat _ (by rw [UInt32.toNat_toUInt64]; omega), UInt32.toNat_toUInt64]

/-- The `LOGL` loop from buffer `start`, with the pointer at that buffer's
offset, copies every given buffer to its offset and leaves the bytes before the
pointer alone. -/
theorem logBuffers_spec (lens : Nat → UInt32) (bufs : Nat → Option (List UInt8)) (base : Nat) :
    ∀ (k start : Nat) (mem : List UInt8), base + roundedSum (start + k) lens ≤ mem.length →
      (∀ i, start ≤ i → i < start + k → ∀ src, bufs i = some src → (lens i).toNat ≤ src.length) →
      ∃ mem', logBuffers lens bufs (List.range' start k) (base + roundedSum start lens) mem = some mem' ∧
        mem'.length = mem.length ∧
        (∀ a w, a + w ≤ base + roundedSum start lens → slice mem' a w = slice mem a w) ∧
        ∀ i, start ≤ i → i < start + k → ∀ src, bufs i = some src →
          slice mem' (base + roundedSum i lens) (lens i).toNat = some (src.take (lens i).toNat)
  | 0, start, mem, _, _ => ⟨mem, rfl, rfl, fun _ _ _ => rfl, fun i low high => absurd high (by omega)⟩
  | k + 1, start, mem, fits, sources => by
    -- the pointer after buffer `start` is the offset of the next one
    have next : base + roundedSum start lens + (cfsSizeRound (lens start).toUInt64).toNat =
        base + roundedSum (start + 1) lens := by
      rw [cfsSizeRound_toNat_of_u32, roundedSum_succ, Nat.add_assoc]
    have restFits : base + roundedSum (start + 1 + k) lens ≤ mem.length := by
      rw [show start + 1 + k = start + (k + 1) by omega]
      exact fits
    have ends := roundedSum_add_le lens (show start < start + 1 by omega)
    have grows := roundedSum_mono (show start + 1 ≤ start + 1 + k by omega) lens
    have restSources : ∀ i, start + 1 ≤ i → i < start + 1 + k → ∀ src, bufs i = some src →
        (lens i).toNat ≤ src.length := fun i low high => sources i (by omega) (by omega)
    rw [List.range'_succ, logBuffers]
    cases given : bufs start with
    | none =>
      obtain ⟨mem', run, length, frame, copied⟩ := logBuffers_spec lens bufs base k (start + 1) mem restFits restSources
      refine ⟨mem', by rw [next]; exact run, length, fun a w before => frame a w (by omega), ?_⟩
      intro i low high src source
      rcases Nat.lt_or_eq_of_le low with later | rfl
      · exact copied i later (by omega) src source
      · rw [given] at source
        cases source
    | some src =>
      have enough := sources start (Nat.le_refl _) (by omega) src given
      have takeLength : (src.take (lens start).toNat).length = (lens start).toNat := List.length_take_of_le enough
      have inside : base + roundedSum start lens + (lens start).toNat ≤ mem.length := by omega
      have copy : memcpyInto mem (base + roundedSum start lens) src (lens start).toNat =
          some (overwrite mem (base + roundedSum start lens) (src.take (lens start).toNat)) :=
        if_pos ⟨enough, inside⟩
      have copyLength : (overwrite mem (base + roundedSum start lens) (src.take (lens start).toNat)).length =
          mem.length := length_overwrite (by rw [takeLength]; exact inside)
      obtain ⟨mem', run, length, frame, copied⟩ := logBuffers_spec lens bufs base k (start + 1) _
        (by rw [copyLength]; exact restFits) restSources
      refine ⟨mem', by dsimp only; rw [copy]; dsimp only; rw [next]; exact run, length.trans copyLength, ?_, ?_⟩
      · intro a w before
        rw [frame a w (by omega), slice_overwrite_of_add_le before (by omega)]
      · intro i low high src' source
        rcases Nat.lt_or_eq_of_le low with later | rfl
        · exact copied i later (by omega) src' source
        · rw [given, Option.some_inj] at source
          subst source
          have whole := slice_front (src.take (lens start).toNat) []
          rw [List.append_nil, takeLength] at whole
          have back : slice (overwrite mem (base + roundedSum start lens) (src.take (lens start).toNat))
              (base + roundedSum start lens + 0) (lens start).toNat = slice (src.take (lens start).toNat) 0 (lens start).toNat :=
            slice_overwrite_inside (by rw [takeLength]; omega) (by rw [takeLength]; omega)
          rw [Nat.add_zero] at back
          rw [frame _ _ (by omega), back, whole]

/-- `lustre_init_msg_v2` of a non-negative count whose true size is below
`2^31`, into memory of the size `lustre_msg_size_v2` gives: the header
announces the buffers, the message fits its memory, and every given buffer is
copied to its offset. -/
theorem lustreInitMsgV2_spec (msg : LustreMsgV2) (mem : List UInt8) {count : Int32} (lens : Nat → UInt32)
    (bufs : Option (Nat → Option (List UInt8))) (nonneg : 0 ≤ count)
    (small : msgHdrSize count.toNatClampNeg + roundedSum count.toNatClampNeg lens < 2 ^ 31)
    (sized : mem.length = (lustreMsgSizeV2 count lens).toNat)
    (sources : ∀ bs, bufs = some bs → ∀ i < count.toNatClampNeg, ∀ src, bs i = some src → (lens i).toNat ≤ src.length) :
    ∃ msg' mem', lustreInitMsgV2 msg mem count lens bufs = some (msg', mem') ∧
      msg'.lmBufcount.toNat = count.toNatClampNeg ∧ (∀ i < count.toNatClampNeg, msg'.lmBuflens i = lens i) ∧
      Fits msg' mem' ∧
      ∀ bs, bufs = some bs → ∀ i < count.toNatClampNeg, ∀ src, bs i = some src →
        slice mem' (msgHdrSize count.toNatClampNeg + roundedSum i lens) (lens i).toNat = some (src.take (lens i).toNat) := by
  have countNat : count.toUInt32.toNat = count.toNatClampNeg :=
    (Int32.toNat_toBitVec count).symm.trans (Int32.toNat_toBitVec_of_le nonneg)
  have headerToNat : (lustreMsgHdrSizeV2 count.toUInt32).toNat = msgHdrSize count.toNatClampNeg := by
    rw [lustreMsgHdrSizeV2_toNat, countNat]
    exact Nat.mod_eq_of_lt (by omega)
  have sizeNat := lustreMsgSizeV2_toNat nonneg lens (by omega)
  -- the header `lustre_init_msg_v2` writes
  let header : LustreMsgV2 := { msg with
    lmBufcount := count.toUInt32
    lmMagic := lustreMsgMagicV2
    lmBuflens := fun i => if i < count.toNatClampNeg then lens i else msg.lmBuflens i }
  have headerLens : ∀ i < count.toNatClampNeg, header.lmBuflens i = lens i := fun i below => if_pos below
  have required : header.requiredLength = msgHdrSize count.toNatClampNeg + roundedSum count.toNatClampNeg lens := by
    rw [LustreMsgV2.requiredLength, show header.lmBufcount.toNat = count.toNatClampNeg from countNat,
      roundedSum_congr headerLens]
  have fitsOf : ∀ mem' : List UInt8, mem'.length = mem.length → Fits header mem' := fun mem' same =>
    ⟨by rw [required]; exact small, by rw [required, same, sized, sizeNat]⟩
  cases bufs with
  | none =>
    exact ⟨header, mem, rfl, countNat, headerLens, fitsOf mem rfl, fun bs given => absurd given (by simp)⟩
  | some bs =>
    have loopSources : ∀ i, 0 ≤ i → i < 0 + count.toNatClampNeg → ∀ src, bs i = some src →
        (lens i).toNat ≤ src.length := fun i _ below => sources bs rfl i (by omega)
    obtain ⟨mem', run, length, -, copied⟩ := logBuffers_spec lens bs (msgHdrSize count.toNatClampNeg)
      count.toNatClampNeg 0 mem (by rw [sized, sizeNat, Nat.zero_add]) loopSources
    have start : msgHdrSize count.toNatClampNeg + roundedSum 0 lens = (lustreMsgHdrSizeV2 count.toUInt32).toNat := by
      rw [headerToNat]
      rfl
    refine ⟨header, mem', ?_, countNat, headerLens, fitsOf mem' length, ?_⟩
    · show (match logBuffers lens bs (List.range count.toNatClampNeg) (lustreMsgHdrSizeV2 count.toUInt32).toNat mem with
        | none => none
        | some mem => some (header, mem)) = some (header, mem')
      rw [List.range_eq_range', ← start, run]
    · intro bs' same i below src given
      rw [Option.some_inj] at same
      subst same
      exact copied i (Nat.zero_le i) (by omega) src given

/-! ## Shrinking a buffer -/

theorem roundedSum_update_of_le (lens : Nat → UInt32) {segment n : Nat} (v : UInt32) (upTo : n ≤ segment) :
    roundedSum n (Function.update lens segment v) = roundedSum n lens :=
  roundedSum_congr fun _ below => Function.update_of_ne (by omega) v lens

/-- Past the changed buffer, the offsets move by the change of its rounded
length. -/
theorem roundedSum_update (lens : Nat → UInt32) {segment : Nat} (v : UInt32) :
    ∀ n, segment < n → roundedSum n (Function.update lens segment v) + sizeRound (lens segment).toNat =
      roundedSum n lens + sizeRound v.toNat
  | 0, after => absurd after (Nat.not_lt_zero _)
  | n + 1, after => by
    rw [roundedSum_succ, roundedSum_succ]
    rcases Nat.lt_or_eq_of_le (Nat.le_of_lt_succ after) with later | rfl
    · have := roundedSum_update lens v n later
      rw [Function.update_of_ne (by omega)]
      omega
    · rw [Function.update_self, roundedSum_update_of_le lens v (Nat.le_refl _)]
      omega

theorem sizeRound_mono {a b : Nat} (le : a ≤ b) : sizeRound a ≤ sizeRound b := by
  unfold sizeRound
  exact Nat.mul_le_mul_right 8 (Nat.div_le_div_right (by omega))

section Shrink

variable {msg : LustreMsgV2} {mem : List UInt8} {segment newlen : UInt32}

@[simp] theorem setBuflen_lmBufcount : (setBuflen msg segment newlen).lmBufcount = msg.lmBufcount := rfl

@[simp] theorem setBuflen_lmBuflens_self : (setBuflen msg segment newlen).lmBuflens segment.toNat = newlen :=
  Function.update_self _ _ _

theorem setBuflen_lmBuflens_of_ne {n : Nat} (other : n ≠ segment.toNat) :
    (setBuflen msg segment newlen).lmBuflens n = msg.lmBuflens n :=
  Function.update_of_ne other _ _

theorem bufOffset_setBuflen_of_le {n : Nat} (upTo : n ≤ segment.toNat) :
    bufOffset (setBuflen msg segment newlen) n = bufOffset msg n := by
  rw [bufOffset, bufOffset, setBuflen_lmBufcount]
  exact congrArg _ (roundedSum_update_of_le msg.lmBuflens newlen upTo)

theorem bufOffset_setBuflen (msg : LustreMsgV2) (newlen : UInt32) {n : Nat} (after : segment.toNat < n) :
    bufOffset (setBuflen msg segment newlen) n + sizeRound (msg.lmBuflens segment.toNat).toNat =
      bufOffset msg n + sizeRound newlen.toNat := by
  have := roundedSum_update msg.lmBuflens newlen n after
  rw [bufOffset, bufOffset, setBuflen_lmBufcount]
  simp only [setBuflen_eq] at this ⊢
  omega

theorem requiredLength_setBuflen_le (shorter : newlen ≤ msg.lmBuflens segment.toNat)
    (present : segment < msg.lmBufcount) :
    (setBuflen msg segment newlen).requiredLength ≤ msg.requiredLength := by
  have presentNat : segment.toNat < msg.lmBufcount.toNat := UInt32.lt_iff_toNat_lt.mp present
  have := roundedSum_update msg.lmBuflens newlen msg.lmBufcount.toNat presentNat
  have := sizeRound_mono (UInt32.le_iff_toNat_le.mp shorter)
  unfold LustreMsgV2.requiredLength
  simp only [setBuflen_eq] at this ⊢
  omega

theorem Fits.setBuflen (fits : Fits msg mem) (shorter : newlen ≤ msg.lmBuflens segment.toNat)
    (present : segment < msg.lmBufcount) : Fits (setBuflen msg segment newlen) mem :=
  have := requiredLength_setBuflen_le shorter present
  ⟨by have := fits.small; omega, by have := fits.inside; omega⟩

theorem setBuflen_self (msg : LustreMsgV2) (segment : UInt32) :
    setBuflen msg segment (msg.lmBuflens segment.toNat) = msg := by
  rw [setBuflen_eq, Function.update_eq_self]

/-- The `int` loop of `tail_len` adds the rounded lengths modulo `2^32`. -/
theorem foldl_addRounded_toInt (lens : Nat → UInt32) :
    ∀ (l : List Nat) (start : Int32), (l.foldl (fun tailLen n => addRounded tailLen (lens n)) start).toInt =
      (start.toInt + (l.map fun n => sizeRound (lens n).toNat).sum).bmod (2 ^ 32)
  | [], start => by
    have := start.toInt_lt
    have := start.le_toInt
    rw [List.foldl_nil, List.map_nil, List.sum_nil, Int.ofNat_zero, Int.add_zero, Int.bmod_eq_of_le (by omega) (by omega)]
  | n :: l, start => by
    rw [List.foldl_cons, foldl_addRounded_toInt lens l, addRounded_toInt, Int.bmod_add_bmod, List.map_cons,
      List.sum_cons]
    push_cast
    rw [Int.add_assoc]

/-- `tail_len` is the length of the buffers after `segment`. -/
theorem tailLength_eq (fits : Fits msg mem) (present : segment < msg.lmBufcount) :
    0 ≤ tailLength msg segment ∧
      (tailLength msg segment).toNatClampNeg = msg.requiredLength - bufOffset msg (segment.toNat + 1) := by
  have presentNat : segment.toNat < msg.lmBufcount.toNat := UInt32.lt_iff_toNat_lt.mp present
  have sum := roundedSum_add msg.lmBuflens (segment.toNat + 1) (msg.lmBufcount.toNat - (segment.toNat + 1))
  rw [show segment.toNat + 1 + (msg.lmBufcount.toNat - (segment.toNat + 1)) = msg.lmBufcount.toNat by omega] at sum
  have grows := roundedSum_mono (show segment.toNat + 1 ≤ msg.lmBufcount.toNat by omega) msg.lmBuflens
  have small := fits.small
  unfold LustreMsgV2.requiredLength at small
  have value : (tailLength msg segment).toInt = (msg.requiredLength - bufOffset msg (segment.toNat + 1) : Nat) := by
    rw [tailLength, foldl_addRounded_toInt, Int32.toInt_zero, Int.zero_add, Int.bmod_eq_of_le (by omega) (by omega)]
    unfold LustreMsgV2.requiredLength bufOffset
    omega
  constructor
  · rw [Int32.le_iff_toInt_le, value, Int32.toInt_zero]
    omega
  · change (tailLength msg segment).toInt.toNat = _
    rw [value, Int.toNat_natCast]

/-! What a shrink leaves in memory -/

/-- The memory after `lustre_shrink_msg_v2`: the bytes before the new end of
`segment` as they were, and the bytes of each later buffer at its new offset. -/
structure Shrunk (msg : LustreMsgV2) (segment newlen : UInt32) (mem mem' : List UInt8) : Prop where
  length : mem'.length = mem.length
  front : ∀ a w, a + w ≤ bufOffset (setBuflen msg segment newlen) (segment.toNat + 1) → slice mem' a w = slice mem a w
  later : ∀ n, segment.toNat < n → n < msg.lmBufcount.toNat →
    slice mem' (bufOffset (setBuflen msg segment newlen) n) (msg.lmBuflens n).toNat =
      slice mem (bufOffset msg n) (msg.lmBuflens n).toNat

namespace Shrunk

/-- With every later buffer where it was, leaving the memory is a shrink. -/
theorem of_same_offsets (same : ∀ n, segment.toNat < n → n < msg.lmBufcount.toNat →
    bufOffset (setBuflen msg segment newlen) n = bufOffset msg n) : Shrunk msg segment newlen mem mem :=
  ⟨rfl, fun _ _ _ => rfl, fun n after below => by rw [same n after below]⟩

/-- With every later buffer empty, leaving the memory is a shrink. -/
theorem of_empty_tail (fits : Fits msg mem) (present : segment < msg.lmBufcount)
    (shorter : newlen ≤ msg.lmBuflens segment.toNat)
    (empty : ∀ n, segment.toNat < n → n < msg.lmBufcount.toNat → (msg.lmBuflens n).toNat = 0) :
    Shrunk msg segment newlen mem mem := by
  refine ⟨rfl, fun _ _ _ => rfl, fun n after below => ?_⟩
  have inside := fits.bufOffset_add_le below
  have inside' := (fits.setBuflen shorter present).bufOffset_add_le below
  rw [setBuflen_lmBuflens_of_ne (show n ≠ segment.toNat by omega), empty n after below] at inside'
  rw [empty n after below, slice_eq, slice_eq, if_pos inside', if_pos (by omega), List.take_zero, List.take_zero]

/-- The `memmove` of the later buffers from their old start to their new one
is a shrink. -/
theorem memmove (fits : Fits msg mem) (present : segment < msg.lmBufcount)
    (shorter : newlen ≤ msg.lmBuflens segment.toNat) {moved : List UInt8}
    (read : slice mem (bufOffset msg (segment.toNat + 1)) (msg.requiredLength - bufOffset msg (segment.toNat + 1)) =
      some moved) :
    Shrunk msg segment newlen mem
      (overwrite mem (bufOffset (setBuflen msg segment newlen) (segment.toNat + 1)) moved) := by
  have presentNat : segment.toNat < msg.lmBufcount.toNat := UInt32.lt_iff_toNat_lt.mp present
  obtain ⟨movedLength, -⟩ := length_of_slice_eq_some read
  have shift := bufOffset_setBuflen msg newlen (show segment.toNat < segment.toNat + 1 by omega)
  have roundLe := sizeRound_mono (UInt32.le_iff_toNat_le.mp shorter)
  have tailLe : bufOffset msg (segment.toNat + 1) ≤ msg.requiredLength :=
    bufOffset_mono msg (show segment.toNat + 1 ≤ msg.lmBufcount.toNat by omega)
  have fitsWrite : bufOffset (setBuflen msg segment newlen) (segment.toNat + 1) + moved.length ≤ mem.length := by
    have := fits.inside
    omega
  refine ⟨length_overwrite fitsWrite, fun a w before => slice_overwrite_of_add_le before (by omega), ?_⟩
  intro n after below
  have shiftN := bufOffset_setBuflen msg newlen after
  have grows := bufOffset_mono msg (show segment.toNat + 1 ≤ n by omega)
  have ends := bufOffset_add_le_requiredLength below
  -- the later buffer sits as far into the moved bytes as it sat into the old tail
  have newOffset : bufOffset (setBuflen msg segment newlen) n =
      bufOffset (setBuflen msg segment newlen) (segment.toNat + 1) +
        (bufOffset msg n - bufOffset msg (segment.toNat + 1)) := by omega
  rw [newOffset, slice_overwrite_inside (by omega) fitsWrite, slice_of_slice read (by omega),
    Nat.add_sub_cancel' grows]

/-- After a shrink the message still fits its memory. -/
theorem fits (shrunk : Shrunk msg segment newlen mem mem') (fits : Fits msg mem)
    (present : segment < msg.lmBufcount) (shorter : newlen ≤ msg.lmBuflens segment.toNat) :
    Fits (setBuflen msg segment newlen) mem' :=
  have shorterFits := fits.setBuflen shorter present
  ⟨shorterFits.small, shrunk.length ▸ shorterFits.inside⟩

section Contents

variable {mem' : List UInt8} (shrunk : Shrunk msg segment newlen mem mem') (fits : Fits msg mem)
  (present : segment < msg.lmBufcount) (shorter : newlen ≤ msg.lmBuflens segment.toNat)
include shrunk fits present shorter

theorem contents_before {j : UInt32} (before : j < segment) :
    lustreMsgBufContents (setBuflen msg segment newlen) mem' j = lustreMsgBufContents msg mem j := by
  have beforeNat : j.toNat < segment.toNat := UInt32.lt_iff_toNat_lt.mp before
  have presentJ := UInt32.lt_trans before present
  rw [(shrunk.fits fits present shorter).lustreMsgBufContents_eq presentJ, fits.lustreMsgBufContents_eq presentJ,
    bufOffset_setBuflen_of_le (Nat.le_of_lt beforeNat), setBuflen_lmBuflens_of_ne (Nat.ne_of_lt beforeNat)]
  apply shrunk.front
  -- buffer `j` ends before `segment` starts, and `segment` does not move
  have ends := bufOffset_add_le_bufOffset msg beforeNat
  have unmoved : bufOffset (setBuflen msg segment newlen) segment.toNat = bufOffset msg segment.toNat :=
    bufOffset_setBuflen_of_le (Nat.le_refl _)
  have := bufOffset_mono (setBuflen msg segment newlen) (show segment.toNat ≤ segment.toNat + 1 by omega)
  omega

theorem contents_segment :
    lustreMsgBufContents (setBuflen msg segment newlen) mem' segment =
      (lustreMsgBufContents msg mem segment).map (List.take newlen.toNat) := by
  have presentNat : segment.toNat < msg.lmBufcount.toNat := UInt32.lt_iff_toNat_lt.mp present
  have ends := bufOffset_add_le_bufOffset (setBuflen msg segment newlen) (show segment.toNat < segment.toNat + 1 by omega)
  rw [bufOffset_setBuflen_of_le (Nat.le_refl _), setBuflen_lmBuflens_self] at ends
  rw [(shrunk.fits fits present shorter).lustreMsgBufContents_eq present, fits.lustreMsgBufContents_eq present,
    bufOffset_setBuflen_of_le (Nat.le_refl _), setBuflen_lmBuflens_self,
    map_take_slice (UInt32.le_iff_toNat_le.mp shorter) (fits.bufOffset_add_le presentNat)]
  exact shrunk.front _ _ ends

theorem contents_later {j : UInt32} (after : segment < j) (below : j < msg.lmBufcount) :
    lustreMsgBufContents (setBuflen msg segment newlen) mem' j = lustreMsgBufContents msg mem j := by
  have afterNat : segment.toNat < j.toNat := UInt32.lt_iff_toNat_lt.mp after
  rw [(shrunk.fits fits present shorter).lustreMsgBufContents_eq below, fits.lustreMsgBufContents_eq below,
    setBuflen_lmBuflens_of_ne (Nat.ne_of_gt afterNat)]
  exact shrunk.later j.toNat afterNat (UInt32.lt_iff_toNat_lt.mp below)

end Contents

end Shrunk

theorem succ_toNat_of_lt (present : segment < msg.lmBufcount) : (segment + 1).toNat = segment.toNat + 1 := by
  have presentNat : segment.toNat < msg.lmBufcount.toNat := UInt32.lt_iff_toNat_lt.mp present
  have := msg.lmBufcount.toNat_lt
  rw [UInt32.toNat_add, UInt32.toNat_one]
  exact Nat.mod_eq_of_lt (by omega)

/-- `lustre_shrink_msg_v2` with `move_data` set, on a message that fits: it
stores the new length, returns the new true length and moves the later
buffers down with their bytes. -/
theorem lustreShrinkMsgV2_spec (fits : Fits msg mem) (present : segment < msg.lmBufcount)
    (shorter : newlen ≤ msg.lmBuflens segment.toNat) :
    ∃ mem', lustreShrinkMsgV2 msg mem segment newlen true =
        some ((lustreMsgSizeV2 msg.lmBufcount.toInt32 (setBuflen msg segment newlen).lmBuflens).toInt32,
          setBuflen msg segment newlen, mem') ∧
      Shrunk msg segment newlen mem mem' := by
  have presentNat : segment.toNat < msg.lmBufcount.toNat := UInt32.lt_iff_toNat_lt.mp present
  unfold lustreShrinkMsgV2
  rw [if_neg (UInt32.not_le.mpr present), if_neg (UInt32.not_lt.mpr shorter)]
  by_cases same : msg.lmBuflens segment.toNat = newlen
  · subst same
    rw [if_pos rfl, setBuflen_self]
    exact ⟨mem, rfl, Shrunk.of_same_offsets fun n _ _ => by rw [setBuflen_self]⟩
  rw [if_neg same]
  by_cases later : msg.lmBufcount > segment + 1
  swap
  · -- `segment` is the last buffer: nothing follows it
    rw [if_neg (fun moving => later moving.2)]
    have lastNat : msg.lmBufcount.toNat ≤ segment.toNat + 1 := by
      rw [← succ_toNat_of_lt present]
      exact UInt32.le_iff_toNat_le.mp (UInt32.not_lt.mp later)
    exact ⟨mem, rfl, Shrunk.of_same_offsets fun n after below => absurd below (by omega)⟩
  rw [if_pos ⟨rfl, later⟩]
  have laterNat : segment.toNat + 1 < msg.lmBufcount.toNat := by
    rw [← succ_toNat_of_lt present]
    exact UInt32.lt_iff_toNat_lt.mp later
  obtain ⟨tail, located, tailNat⟩ := lustreMsgBufV2_eq_bufOffset later (by have := fits.small; omega)
  obtain ⟨nonneg, tailLen⟩ := tailLength_eq fits present
  rw [succ_toNat_of_lt present] at tailNat
  rw [located]
  dsimp only
  by_cases empty : tailLength msg segment = 0
  · -- every later buffer is empty
    rw [if_pos empty]
    refine ⟨mem, rfl, Shrunk.of_empty_tail fits present shorter fun n after below => ?_⟩
    rw [empty] at tailLen
    have := bufOffset_mono msg (show segment.toNat + 1 ≤ n by omega)
    have := bufOffset_add_le_requiredLength below
    change 0 = _ at tailLen
    omega
  rw [if_neg empty]
  have fits' := fits.setBuflen shorter present
  obtain ⟨newpos, movedTo, newposNat⟩ :=
    lustreMsgBufV2_eq_bufOffset (show segment + 1 < (setBuflen msg segment newlen).lmBufcount from later) (by have := fits'.small; omega)
  rw [succ_toNat_of_lt present] at newposNat
  rw [movedTo]
  dsimp only
  -- the later buffers move down by what the rounded length of `segment` lost
  have shift := bufOffset_setBuflen msg newlen (show segment.toNat < segment.toNat + 1 by omega)
  have roundLe := sizeRound_mono (UInt32.le_iff_toNat_le.mp shorter)
  rw [if_neg (UInt32.not_lt.mpr (UInt32.le_iff_toNat_le.mpr (by omega)))]
  by_cases unmoved : newpos = tail
  · rw [if_pos unmoved]
    have sameRound : sizeRound newlen.toNat = sizeRound (msg.lmBuflens segment.toNat).toNat := by
      rw [unmoved] at newposNat
      omega
    refine ⟨mem, rfl, Shrunk.of_same_offsets fun n after _ => ?_⟩
    have := bufOffset_setBuflen msg newlen after
    omega
  rw [if_neg unmoved, memmoveWithin, Int32.toNat_toUInt64_toInt64 nonneg, tailLen, tailNat, newposNat]
  have inside := fits.inside
  have tailLe : bufOffset msg (segment.toNat + 1) ≤ msg.requiredLength := bufOffset_mono msg (Nat.le_of_lt laterNat)
  obtain ⟨moved, read⟩ : ∃ moved, slice mem (bufOffset msg (segment.toNat + 1))
      (msg.requiredLength - bufOffset msg (segment.toNat + 1)) = some moved :=
    ⟨_, by rw [slice_eq, if_pos (by omega)]⟩
  have movedLength := (length_of_slice_eq_some read).1
  rw [read]
  dsimp only
  rw [if_pos (by omega)]
  exact ⟨_, rfl, Shrunk.memmove fits present shorter read⟩

/-- What `lustre_shrink_msg_v2(msg, segment, newlen, 1)` does to a message that
fits: the size it returns is the new true length, and every buffer reads as it
did, `segment` cut to its first `newlen` bytes. -/
theorem lustreShrinkMsgV2_keeps (fits : Fits msg mem) (present : segment < msg.lmBufcount)
    (shorter : newlen ≤ msg.lmBuflens segment.toNat) :
    ∃ size mem', lustreShrinkMsgV2 msg mem segment newlen true = some (size, setBuflen msg segment newlen, mem') ∧
      size = (lustreMsgSizeV2 msg.lmBufcount.toInt32 (setBuflen msg segment newlen).lmBuflens).toInt32 ∧
      0 ≤ size ∧ size.toNatClampNeg = (setBuflen msg segment newlen).requiredLength ∧
      (∀ j, j < segment →
        lustreMsgBufContents (setBuflen msg segment newlen) mem' j = lustreMsgBufContents msg mem j) ∧
      lustreMsgBufContents (setBuflen msg segment newlen) mem' segment =
        (lustreMsgBufContents msg mem segment).map (List.take newlen.toNat) ∧
      (∀ j, segment < j → j < msg.lmBufcount →
        lustreMsgBufContents (setBuflen msg segment newlen) mem' j = lustreMsgBufContents msg mem j) := by
  obtain ⟨mem', shrunkTo, shrunk⟩ := lustreShrinkMsgV2_spec fits present shorter
  have fits' := shrunk.fits fits present shorter
  have sizeNat := fits'.lustreMsgSizeV2_toNat
  obtain ⟨nonneg, sizeClamp⟩ := UInt32.toNatClampNeg_toInt32 (show
    (lustreMsgSizeV2 (setBuflen msg segment newlen).lmBufcount.toInt32 (setBuflen msg segment newlen).lmBuflens).toNat <
      2 ^ 31 by
      rw [sizeNat]
      exact fits'.small)
  refine ⟨_, mem', shrunkTo, rfl, nonneg, ?_, fun j before => shrunk.contents_before fits present shorter before,
    shrunk.contents_segment fits present shorter,
    fun j after below => shrunk.contents_later fits present shorter after below⟩
  exact sizeClamp.trans sizeNat

end Shrink

/-! ## The layout of a message -/

/-- What `lustre_init_msg_v2` lays out in `lustre_msg_size_v2(count, lens)`
bytes, when the true length is below `2^31`: each buffer `n` at the header size
plus the rounded lengths before it, 8-byte aligned, after the buffers before it,
inside the message, and holding the bytes given for it. -/
theorem lustreInitMsgV2_layout (msg : LustreMsgV2) (mem : List UInt8) {count : Int32} (lens : Nat → UInt32)
    (bufs : Option (Nat → Option (List UInt8))) (nonneg : 0 ≤ count)
    (small : msgHdrSize count.toNatClampNeg + roundedSum count.toNatClampNeg lens < 2 ^ 31)
    (sized : mem.length = (lustreMsgSizeV2 count lens).toNat)
    (sources : ∀ bs, bufs = some bs → ∀ i < count.toNatClampNeg, ∀ src, bs i = some src → (lens i).toNat ≤ src.length) :
    ∃ msg' mem', lustreInitMsgV2 msg mem count lens bufs = some (msg', mem') ∧
      ∀ n : UInt32, n.toNat < count.toNatClampNeg →
        ∃ offset, lustreMsgBufV2 msg' n 0 = some offset ∧
          offset.toNat = msgHdrSize count.toNatClampNeg + roundedSum n.toNat lens ∧ offset.toNat % 8 = 0 ∧
          offset.toNat + (lens n.toNat).toNat ≤ (lustreMsgSizeV2 count lens).toNat ∧
          (∀ j : UInt32, j < n → ∃ offsetJ, lustreMsgBufV2 msg' j 0 = some offsetJ ∧
            offsetJ.toNat + (lens j.toNat).toNat ≤ offset.toNat) ∧
          ∀ bs src, bufs = some bs → bs n.toNat = some src →
            lustreMsgBufContents msg' mem' n = some (src.take (lens n.toNat).toNat) := by
  obtain ⟨msg', mem', laidOut, countNat, lensEq, fits, copied⟩ :=
    lustreInitMsgV2_spec msg mem lens bufs nonneg small sized sources
  have sizeNat := lustreMsgSizeV2_toNat nonneg lens (by omega)
  refine ⟨msg', mem', laidOut, fun n below => ?_⟩
  have present : n < msg'.lmBufcount := UInt32.lt_iff_toNat_lt.mpr (by omega)
  -- offsets in `msg'` are those of `lens`: the lengths agree below `count`
  have offsetEq : ∀ m ≤ count.toNatClampNeg, bufOffset msg' m = msgHdrSize count.toNatClampNeg + roundedSum m lens :=
    fun m upTo => by
      rw [bufOffset, countNat, roundedSum_congr fun i before => lensEq i (by omega)]
  obtain ⟨offset, located, offsetNat, aligned, -, before⟩ := fits.buffer_layout present
  refine ⟨offset, located, by rw [offsetNat, offsetEq n.toNat (Nat.le_of_lt below)], aligned, ?_, ?_, ?_⟩
  · have := bufOffset_add_le_requiredLength (show n.toNat < msg'.lmBufcount.toNat by omega)
    rw [LustreMsgV2.requiredLength, countNat, roundedSum_congr fun i before => lensEq i before] at this
    rw [offsetNat, sizeNat, ← lensEq n.toNat below]
    exact this
  · intro j earlier
    obtain ⟨offsetJ, locatedJ, endsBefore⟩ := before j earlier
    have earlierNat : j.toNat < n.toNat := UInt32.lt_iff_toNat_lt.mp earlier
    exact ⟨offsetJ, locatedJ, by rw [← lensEq j.toNat (by omega)]; exact endsBefore⟩
  · intro bs src given source
    rw [fits.lustreMsgBufContents_eq present, offsetEq n.toNat (Nat.le_of_lt below), lensEq n.toNat below]
    exact copied bs given n.toNat below src source

/-- Laying out a message and shrinking one of its buffers, for messages whose
true length is below `2^31`. -/
theorem lustreMsgV2_layout_and_shrink :
    (∀ (msg : LustreMsgV2) (mem : List UInt8) (count : Int32) (lens : Nat → UInt32)
        (bufs : Option (Nat → Option (List UInt8))), 0 ≤ count →
        msgHdrSize count.toNatClampNeg + roundedSum count.toNatClampNeg lens < 2 ^ 31 →
        mem.length = (lustreMsgSizeV2 count lens).toNat →
        (∀ bs, bufs = some bs → ∀ i < count.toNatClampNeg, ∀ src, bs i = some src → (lens i).toNat ≤ src.length) →
        ∃ msg' mem', lustreInitMsgV2 msg mem count lens bufs = some (msg', mem') ∧
          ∀ n : UInt32, n.toNat < count.toNatClampNeg →
            ∃ offset, lustreMsgBufV2 msg' n 0 = some offset ∧
              offset.toNat = msgHdrSize count.toNatClampNeg + roundedSum n.toNat lens ∧ offset.toNat % 8 = 0 ∧
              offset.toNat + (lens n.toNat).toNat ≤ (lustreMsgSizeV2 count lens).toNat ∧
              (∀ j : UInt32, j < n → ∃ offsetJ, lustreMsgBufV2 msg' j 0 = some offsetJ ∧
                offsetJ.toNat + (lens j.toNat).toNat ≤ offset.toNat) ∧
              ∀ bs src, bufs = some bs → bs n.toNat = some src →
                lustreMsgBufContents msg' mem' n = some (src.take (lens n.toNat).toNat)) ∧
    (∀ (msg : LustreMsgV2) (mem : List UInt8) (segment newlen : UInt32), Fits msg mem →
        segment < msg.lmBufcount → newlen ≤ msg.lmBuflens segment.toNat →
        ∃ size mem', lustreShrinkMsgV2 msg mem segment newlen true = some (size, setBuflen msg segment newlen, mem') ∧
          size = (lustreMsgSizeV2 msg.lmBufcount.toInt32 (setBuflen msg segment newlen).lmBuflens).toInt32 ∧
          0 ≤ size ∧ size.toNatClampNeg = (setBuflen msg segment newlen).requiredLength ∧
          (∀ j, j < segment →
            lustreMsgBufContents (setBuflen msg segment newlen) mem' j = lustreMsgBufContents msg mem j) ∧
          lustreMsgBufContents (setBuflen msg segment newlen) mem' segment =
            (lustreMsgBufContents msg mem segment).map (List.take newlen.toNat) ∧
          (∀ j, segment < j → j < msg.lmBufcount →
            lustreMsgBufContents (setBuflen msg segment newlen) mem' j = lustreMsgBufContents msg mem j)) :=
  ⟨fun msg mem _ lens bufs nonneg small sized sources =>
    lustreInitMsgV2_layout msg mem lens bufs nonneg small sized sources,
   fun _ _ _ _ fits present shorter => lustreShrinkMsgV2_keeps fits present shorter⟩

/-- Two buffers, of 9 and 5 bytes. -/
def twoBufferLens (i : Nat) : UInt32 := if i = 0 then 9 else 5

/-- A 64-byte message of two buffers: a 48-byte header, then 16 and 8 bytes. -/
def twoBufferMsg : LustreMsgV2 := { wrappedMsg with lmBufcount := 2, lmBuflens := twoBufferLens }

/-- Laying out `twoBufferMsg` puts buffer 1 at offset 56; cutting buffer 0 to
one byte moves buffer 1 down to 48 with its bytes. -/
theorem lustreMsgV2_layout_and_shrink_on_two_buffers :
    (0 ≤ (2 : Int32) ∧ msgHdrSize 2 + roundedSum 2 twoBufferLens < 2 ^ 31 ∧
      ((List.range 64).map Nat.toUInt8).length = (lustreMsgSizeV2 2 twoBufferLens).toNat ∧
      ∃ msg' mem', lustreInitMsgV2 wrappedMsg ((List.range 64).map Nat.toUInt8) 2 twoBufferLens none =
          some (msg', mem') ∧ ∃ offset, lustreMsgBufV2 msg' 1 0 = some offset ∧ offset.toNat = 56) ∧
    (Fits twoBufferMsg ((List.range 64).map Nat.toUInt8) ∧ 0 < twoBufferMsg.lmBufcount ∧
      1 ≤ twoBufferMsg.lmBuflens 0 ∧
      ∃ size mem', lustreShrinkMsgV2 twoBufferMsg ((List.range 64).map Nat.toUInt8) 0 1 true =
          some (size, setBuflen twoBufferMsg 0 1, mem') ∧ size.toNatClampNeg = 56 ∧
        lustreMsgBufContents (setBuflen twoBufferMsg 0 1) mem' 1 =
          lustreMsgBufContents twoBufferMsg ((List.range 64).map Nat.toUInt8) 1) := by
  have sized : ((List.range 64).map Nat.toUInt8).length = (lustreMsgSizeV2 2 twoBufferLens).toNat := by
    rw [List.length_map, List.length_range]
    decide
  have fits : Fits twoBufferMsg ((List.range 64).map Nat.toUInt8) :=
    ⟨by decide, by rw [List.length_map, List.length_range]; decide⟩
  obtain ⟨msg', mem', laidOut, layout⟩ := lustreMsgV2_layout_and_shrink.1 wrappedMsg ((List.range 64).map Nat.toUInt8)
    2 twoBufferLens none (by decide) (by decide) sized (fun _ given => nomatch given)
  obtain ⟨offset, located, offsetNat, -⟩ := layout 1 (by decide)
  obtain ⟨size, shrunk, shrunkTo, -, -, sizeNat, -, -, later⟩ :=
    lustreMsgV2_layout_and_shrink.2 twoBufferMsg _ 0 1 fits (by decide) (by decide)
  refine ⟨⟨by decide, by decide, sized, msg', mem', laidOut, offset, located, by rw [offsetNat]; decide⟩,
    fits, by decide, by decide, size, shrunk, shrunkTo, by rw [sizeNat]; decide, later 1 (by decide) (by decide)⟩

/-- `lustre_msg_size_v2(1, {0xFFFFFFF8})` wraps to 32, less than its own
40-byte header: `lustre_init_msg_v2` lays the message out in 32 bytes, and
buffer 0 starts at offset 40, past the end. -/
theorem lustreInitMsgV2_buffer_past_wrapped_size :
    (lustreMsgSizeV2 1 fun _ => 0xFFFFFFF8).toNat = 32 ∧
      ∃ msg', lustreInitMsgV2 wrappedMsg (List.replicate 32 0) 1 (fun _ => 0xFFFFFFF8) none =
          some (msg', List.replicate 32 0) ∧
        lustreMsgBufV2 msg' 0 0 = some 40 ∧ 32 < 40 + (msg'.lmBuflens 0).toNat := by
  exact ⟨by decide, _, rfl, by decide, by decide⟩

end PackGeneric
end Lustre
