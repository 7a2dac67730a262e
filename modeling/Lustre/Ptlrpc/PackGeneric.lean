import Mathlib.Data.List.Basic
import Mathlib.Algebra.BigOperators.Group.List.Basic
import Lustre.Library.Word

/-!
# Validation of received RPC messages

A PtlRPC message (`struct lustre_msg_v2`) is a fixed header of eight 32-bit
words, an array `lm_buflens` of `lm_bufcount` buffer lengths, and then the
buffers themselves, each padded to a multiple of eight bytes.  Every field
arrives from the network.  `__lustre_unpack_msg` is the only check made before
the accessors `lustre_msg_buf_v2` and `lustre_msg_string` trust the lengths.

The validator adds the header size and the rounded buffer lengths into an
`int` and compares the sum with the received length.  This module embeds the
validator with the source's machine integers: the header size is a `__u32`
computed from a 64-bit `size_t`, every rounded length is a `size_t`, and the
accumulator is an `int` into which each `size_t` sum is converted back.  The
main results say exactly what the validator computes: the true length of the
message reduced modulo `2^32` into the range of `int`.  So it is exact below
`2^31`, and it accepts messages whose true length exceeds the received bytes
when that length wraps.
-/

namespace Lustre
namespace PackGeneric

/-! ## Constants and byte-level helpers -/

/-- `LUSTRE_MSG_MAGIC_V2`. -/
def lustreMsgMagicV2 : UInt32 := 0x0BD00BD3

/-- `LUSTRE_MSG_MAGIC_V2_SWABBED`: the magic as seen by a peer of the other
byte order. -/
def lustreMsgMagicV2Swabbed : UInt32 := 0xD30BD00B

/-- `EINVAL`. -/
def einval : Int32 := 22

/-- `__swab32` (`bswap_32`): reverse the four bytes of a word. -/
def swab32 (x : UInt32) : UInt32 :=
  ((x &&& (0xFF : UInt32)) <<< (24 : UInt32)) |||
    ((x &&& (0xFF00 : UInt32)) <<< (8 : UInt32)) |||
    ((x >>> (8 : UInt32)) &&& (0xFF00 : UInt32)) ||| (x >>> (24 : UInt32))

/-- `cfs_size_round`: round a `size_t` up to a multiple of eight. -/
def cfsSizeRound (val : UInt64) : UInt64 :=
  (val + 7) &&& ~~~7

/-- Rounding up to a multiple of eight in unbounded arithmetic. -/
def sizeRound (val : Nat) : Nat :=
  (val + 7) / 8 * 8

theorem cfsSizeRound_toNat (val : UInt64) (small : val.toNat + 7 < 2 ^ 64) :
    (cfsSizeRound val).toNat = sizeRound val.toNat := by
  have sumToNat : (val + 7).toNat = val.toNat + 7 := by
    rw [UInt64.toNat_add]
    exact Nat.mod_eq_of_lt small
  have maskIsLowBits : (~~~7 : UInt64) = ~~~(2 ^ 3 - 1 : Nat).toUInt64 := rfl
  rw [cfsSizeRound, maskIsLowBits, UInt64.toNat_and_not_two_pow_sub_one _ (by decide),
    sumToNat, sizeRound]
  rfl

/-! ## The message -/

/--
The words of a received `struct lustre_msg_v2`.  The buffer lengths are a
function on indices: the validator reads as many entries as the untrusted
`lm_bufcount` announces, wherever they lie.
-/
structure LustreMsgV2 where
  /-- `lm_bufcount`. -/
  lmBufcount : UInt32
  /-- `lm_secflvr`. -/
  lmSecflvr : UInt32
  /-- `lm_magic`. -/
  lmMagic : UInt32
  /-- `lm_repsize`. -/
  lmRepsize : UInt32
  /-- `lm_cksum`. -/
  lmCksum : UInt32
  /-- `lm_flags`. -/
  lmFlags : UInt32
  /-- `lm_padding_2`. -/
  lmPadding2 : UInt32
  /-- `lm_padding_3`. -/
  lmPadding3 : UInt32
  /-- `lm_buflens[i]`. -/
  lmBuflens : Nat → UInt32

/-- `lustre_msg_hdr_size_v2`: `offsetof(struct lustre_msg_v2,
lm_buflens[count])`, a `size_t`, rounded and returned as a `__u32`. -/
def lustreMsgHdrSizeV2 (count : UInt32) : UInt32 :=
  (cfsSizeRound (32 + 4 * count.toUInt64)).toUInt32

/-- The header size in unbounded arithmetic. -/
def msgHdrSize (count : Nat) : Nat :=
  sizeRound (32 + 4 * count)

/-- The sum of the rounded lengths of the first `count` buffers, in
unbounded arithmetic. -/
def roundedSum (count : Nat) (buflens : Nat → UInt32) : Nat :=
  ((List.range count).map fun i => sizeRound (buflens i).toNat).sum

/-- The number of bytes the header and the buffers of a message occupy,
computed in unbounded arithmetic. -/
def LustreMsgV2.requiredLength (m : LustreMsgV2) : Nat :=
  msgHdrSize m.lmBufcount.toNat + roundedSum m.lmBufcount.toNat m.lmBuflens

theorem roundedSum_succ (count : Nat) (buflens : Nat → UInt32) :
    roundedSum (count + 1) buflens =
      roundedSum count buflens + sizeRound (buflens count).toNat := by
  simp [roundedSum, List.range_succ]

theorem roundedSum_congr {count : Nat} {first second : Nat → UInt32}
    (agree : ∀ i < count, first i = second i) :
    roundedSum count first = roundedSum count second := by
  unfold roundedSum
  congr 1
  apply List.map_congr_left
  intro i member
  rw [agree i (List.mem_range.mp member)]

/-! ## The validator -/

/-- The `__swab32s` calls on the fixed fields when the magic shows the other
byte order (the padding words are left alone). -/
def LustreMsgV2.swabHeader (m : LustreMsgV2) : LustreMsgV2 :=
  { m with
    lmMagic := swab32 m.lmMagic
    lmBufcount := swab32 m.lmBufcount
    lmSecflvr := swab32 m.lmSecflvr
    lmRepsize := swab32 m.lmRepsize
    lmCksum := swab32 m.lmCksum
    lmFlags := swab32 m.lmFlags }

/-- `required_len += cfs_size_round(buflen)` on an `int`: the `int` is
converted to `size_t`, the sum is taken there, and the result is converted
back to `int`, which keeps its value modulo `2^32`. -/
def addRounded (requiredLen : Int32) (buflen : UInt32) : Int32 :=
  Int32.ofInt (requiredLen.toInt + (cfsSizeRound buflen.toUInt64).toNat)

/-- One iteration of the buffer-length loop of `lustre_unpack_msg_v2`:
swab entry `i` in place when needed, then add its rounded length. -/
def unpackBuflenStep (swabbed : Bool) (state : (Nat → UInt32) × Int32) (i : Nat) :
    (Nat → UInt32) × Int32 :=
  let buflens := if swabbed then Function.update state.1 i (swab32 (state.1 i))
    else state.1
  (buflens, addRounded state.2 (buflens i))

/-- `for (i = 0; i < m->lm_bufcount; i++)`: the buffer lengths after the loop
and the accumulated `required_len`. -/
def unpackBuflens (swabbed : Bool) (count : Nat) (buflens : Nat → UInt32)
    (requiredLen : Int32) : (Nat → UInt32) × Int32 :=
  (List.range count).foldl (unpackBuflenStep swabbed) (buflens, requiredLen)

/-- `lustre_unpack_msg_v2`: the message as it stands after the in-place swabs,
and the return code (`-EINVAL`, or whether the message was swabbed). -/
def lustreUnpackMsgV2 (m : LustreMsgV2) (len : Int32) : LustreMsgV2 × Int32 :=
  if len < (lustreMsgHdrSizeV2 0).toInt32 then (m, -einval)
  else
    let swabbed := m.lmMagic == lustreMsgMagicV2Swabbed
    let m := if swabbed then m.swabHeader else m
    let requiredLen := (lustreMsgHdrSizeV2 m.lmBufcount).toInt32
    if len < requiredLen then (m, -einval)
    else
      let loop := unpackBuflens swabbed m.lmBufcount.toNat m.lmBuflens requiredLen
      let m := { m with lmBuflens := loop.1 }
      if len < loop.2 then (m, -einval)
      else (m, if swabbed then 1 else 0)

/-- `__lustre_unpack_msg`: check that the magic word was received, then
validate the version 2 layout. -/
def lustreUnpackMsg (m : LustreMsgV2) (len : Int32) : LustreMsgV2 × Int32 :=
  -- `offsetof(struct lustre_msg, lm_magic) + sizeof(m->lm_magic)`
  if len < 12 then (m, -einval)
  else lustreUnpackMsgV2 m len

/-- `lustre_msg_buf_v2`: the byte offset of buffer `n` from the start of the
message, or `none` (`NULL`) when the buffer is absent or too small.  The
offset is a `__u32` into which each rounded `size_t` length is added. -/
def lustreMsgBufV2 (m : LustreMsgV2) (n minSize : UInt32) : Option UInt32 :=
  if m.lmBufcount ≤ n then none
  else if m.lmBuflens n.toNat < minSize then none
  else some ((List.range n.toNat).foldl
    (fun offset i => (offset.toUInt64 + cfsSizeRound (m.lmBuflens i).toUInt64).toUInt32)
    (lustreMsgHdrSizeV2 m.lmBufcount))

/-! ## What the validator computes -/

/-- The buffer lengths the loop leaves behind: the first `count` entries
swabbed when the peer has the other byte order. -/
def swabbedBuflens (swabbed : Bool) (count : Nat) (buflens : Nat → UInt32) :
    Nat → UInt32 :=
  fun i => if swabbed = true ∧ i < count then swab32 (buflens i) else buflens i

theorem addRounded_toInt (requiredLen : Int32) (buflen : UInt32) :
    (addRounded requiredLen buflen).toInt =
      (requiredLen.toInt + sizeRound buflen.toNat).bmod (2 ^ 32) := by
  have small : buflen.toUInt64.toNat + 7 < 2 ^ 64 := by
    rw [UInt32.toNat_toUInt64]
    have := buflen.toNat_lt
    omega
  rw [addRounded, Int32.toInt_ofInt, cfsSizeRound_toNat _ small, UInt32.toNat_toUInt64]
  rfl

theorem unpackBuflens_succ (swabbed : Bool) (count : Nat) (buflens : Nat → UInt32)
    (requiredLen : Int32) :
    unpackBuflens swabbed (count + 1) buflens requiredLen =
      unpackBuflenStep swabbed (unpackBuflens swabbed count buflens requiredLen) count := by
  simp [unpackBuflens, List.range_succ]

/-- The loop swabs exactly the entries it visits and accumulates their rounded
lengths modulo `2^32`. -/
theorem unpackBuflens_eq (swabbed : Bool) (count : Nat) (buflens : Nat → UInt32)
    (requiredLen : Int32) :
    (unpackBuflens swabbed count buflens requiredLen).1 =
        swabbedBuflens swabbed count buflens ∧
      (unpackBuflens swabbed count buflens requiredLen).2.toInt =
        (requiredLen.toInt +
          roundedSum count (swabbedBuflens swabbed count buflens)).bmod (2 ^ 32) := by
  induction count with
  | zero =>
      refine ⟨?_, ?_⟩
      · funext i
        simp [unpackBuflens, swabbedBuflens]
      · simp [unpackBuflens, roundedSum]
  | succ count inductionHypothesis =>
      obtain ⟨visited, accumulated⟩ := inductionHypothesis
      -- the entries below `count` already have their final value
      have earlier : ∀ i < count, swabbedBuflens swabbed count buflens i =
          swabbedBuflens swabbed (count + 1) buflens i := by
        intro i below
        simp [swabbedBuflens, below, show i < count + 1 by omega]
      have swabbedNext : (if swabbed then Function.update
            (swabbedBuflens swabbed count buflens) count
            (swab32 (swabbedBuflens swabbed count buflens count))
          else swabbedBuflens swabbed count buflens) =
          swabbedBuflens swabbed (count + 1) buflens := by
        funext i
        by_cases atCount : i = count
        · subst atCount
          cases swabbed <;> simp [swabbedBuflens]
        · have sameSide : i < count + 1 ↔ i < count := by omega
          cases swabbed <;>
            simp only [swabbedBuflens, Function.update_apply, atCount, sameSide, if_false,
              if_true, Bool.false_eq_true, false_and, true_and]
      rw [unpackBuflens_succ, unpackBuflenStep, visited]
      refine ⟨swabbedNext, ?_⟩
      simp only
      rw [swabbedNext, addRounded_toInt, accumulated, Int.bmod_add_bmod, roundedSum_succ,
        roundedSum_congr earlier]
      push_cast
      rw [Int.add_assoc]

/-- The header size as a `__u32` is the true header size modulo `2^32`. -/
theorem lustreMsgHdrSizeV2_toNat (count : UInt32) :
    (lustreMsgHdrSizeV2 count).toNat = msgHdrSize count.toNat % 2 ^ 32 := by
  have countBound := count.toNat_lt
  have offsetToNat : (32 + 4 * count.toUInt64).toNat = 32 + 4 * count.toNat := by
    rw [UInt64.toNat_add, UInt64.toNat_mul, UInt32.toNat_toUInt64]
    have fourTimes : (4 : UInt64).toNat * count.toNat % 2 ^ 64 = 4 * count.toNat :=
      Nat.mod_eq_of_lt (by simp; omega)
    rw [fourTimes]
    exact Nat.mod_eq_of_lt (by simp; omega)
  rw [lustreMsgHdrSizeV2, UInt64.toNat_toUInt32,
    cfsSizeRound_toNat _ (by rw [offsetToNat]; omega), offsetToNat, msgHdrSize]

/-- The header size, read as an `int`, is the true header size modulo
`2^32`. -/
theorem lustreMsgHdrSizeV2_toInt32 (count : UInt32) :
    (lustreMsgHdrSizeV2 count).toInt32.toInt =
      (msgHdrSize count.toNat : Int).bmod (2 ^ 32) := by
  rw [UInt32.toInt_toInt32, lustreMsgHdrSizeV2_toNat, Int.natCast_emod, Int.emod_bmod]

/-- When `lustre_unpack_msg_v2` accepts, the message it leaves is the
swabbed header with the loop's buffer lengths, and the loop's accumulator
passed the final comparison. -/
theorem lustreUnpackMsgV2_of_accepted {m : LustreMsgV2} {len : Int32}
    (accepted : 0 ≤ (lustreUnpackMsgV2 m len).2) :
    let swabbed := m.lmMagic == lustreMsgMagicV2Swabbed
    let header := if swabbed then m.swabHeader else m
    let loop := unpackBuflens swabbed header.lmBufcount.toNat header.lmBuflens
      (lustreMsgHdrSizeV2 header.lmBufcount).toInt32
    (lustreUnpackMsgV2 m len).1 = { header with lmBuflens := loop.1 } ∧ loop.2 ≤ len := by
  have rejected : ¬ (0 : Int32) ≤ -einval := by decide
  unfold lustreUnpackMsgV2 at accepted ⊢
  dsimp only at accepted ⊢
  by_cases headerShort : len < (lustreMsgHdrSizeV2 0).toInt32
  · rw [if_pos headerShort] at accepted
    exact absurd accepted rejected
  rw [if_neg headerShort] at accepted ⊢
  generalize (if (m.lmMagic == lustreMsgMagicV2Swabbed) = true then m.swabHeader
    else m) = header at accepted ⊢
  by_cases bufcountShort : len < (lustreMsgHdrSizeV2 header.lmBufcount).toInt32
  · rw [if_pos bufcountShort] at accepted
    exact absurd accepted rejected
  rw [if_neg bufcountShort] at accepted ⊢
  by_cases total : len < (unpackBuflens (m.lmMagic == lustreMsgMagicV2Swabbed)
      header.lmBufcount.toNat header.lmBuflens
      (lustreMsgHdrSizeV2 header.lmBufcount).toInt32).2
  · rw [if_pos total] at accepted
    exact absurd accepted rejected
  rw [if_neg total]
  exact ⟨rfl, Int32.not_lt.mp total⟩

/-- Whatever message it accepts, the validator has compared the true length
of that message, reduced modulo `2^32` into the range of `int`, with the
received length. -/
theorem lustreUnpackMsg_requiredLength_bmod_le (m : LustreMsgV2) (len : Int32)
    (accepted : 0 ≤ (lustreUnpackMsg m len).2) :
    ((lustreUnpackMsg m len).1.requiredLength : Int).bmod (2 ^ 32) ≤ len.toInt := by
  have rejected : ¬ (0 : Int32) ≤ -einval := by decide
  unfold lustreUnpackMsg at accepted ⊢
  split_ifs at accepted ⊢ with short
  · exact absurd accepted rejected
  obtain ⟨result, compared⟩ := lustreUnpackMsgV2_of_accepted accepted
  generalize (if (m.lmMagic == lustreMsgMagicV2Swabbed) = true then m.swabHeader
    else m) = header at result compared
  obtain ⟨visited, accumulated⟩ := unpackBuflens_eq (m.lmMagic == lustreMsgMagicV2Swabbed)
    header.lmBufcount.toNat header.lmBuflens (lustreMsgHdrSizeV2 header.lmBufcount).toInt32
  rw [result, LustreMsgV2.requiredLength, visited]
  rw [lustreMsgHdrSizeV2_toInt32, Int.bmod_add_bmod] at accumulated
  dsimp only
  rw [Int.natCast_add, ← accumulated]
  exact Int32.le_iff_toInt_le.mp compared

/-- Below `2^31` the validator is exact: an accepted message whose true
length has not wrapped fits in the received bytes. -/
theorem lustreUnpackMsg_requiredLength_le (m : LustreMsgV2) (len : Int32)
    (accepted : 0 ≤ (lustreUnpackMsg m len).2)
    (noWrap : (lustreUnpackMsg m len).1.requiredLength < 2 ^ 31) :
    ((lustreUnpackMsg m len).1.requiredLength : Int) ≤ len.toInt := by
  have compared := lustreUnpackMsg_requiredLength_bmod_le m len accepted
  rw [Int.bmod_eq_of_le (by omega) (by omega)] at compared
  exact compared

/-! ## Where the accessors look -/

theorem roundedSum_mono {first second : Nat} (le : first ≤ second)
    (buflens : Nat → UInt32) :
    roundedSum first buflens ≤ roundedSum second buflens := by
  induction second with
  | zero =>
      rw [Nat.le_zero.mp le]
  | succ second inductionHypothesis =>
      rcases Nat.lt_or_eq_of_le le with below | equal
      · rw [roundedSum_succ]
        exact Nat.le_add_right_of_le (inductionHypothesis (by omega))
      · rw [equal]

theorem le_sizeRound (val : Nat) : val ≤ sizeRound val := by
  unfold sizeRound
  omega

/-- The offset loop of `lustre_msg_buf_v2`, while its `__u32` does not wrap,
adds the rounded lengths of the earlier buffers to the starting offset. -/
theorem bufOffset_toNat (buflens : Nat → UInt32) (start : UInt32) (n : Nat)
    (small : start.toNat + roundedSum n buflens < 2 ^ 32) :
    ((List.range n).foldl
        (fun offset i => (offset.toUInt64 + cfsSizeRound (buflens i).toUInt64).toUInt32)
        start).toNat = start.toNat + roundedSum n buflens := by
  induction n with
  | zero => simp [roundedSum]
  | succ n inductionHypothesis =>
      rw [roundedSum_succ] at small
      have roundBound : (buflens n).toUInt64.toNat + 7 < 2 ^ 64 := by
        rw [UInt32.toNat_toUInt64]
        have := (buflens n).toNat_lt
        omega
      rw [List.range_succ, List.foldl_append, List.foldl_cons, List.foldl_nil,
        UInt64.toNat_toUInt32, UInt64.toNat_add, UInt32.toNat_toUInt64,
        inductionHypothesis (by omega), cfsSizeRound_toNat _ roundBound,
        UInt32.toNat_toUInt64, roundedSum_succ]
      have sumBound : start.toNat + roundedSum n buflens +
          sizeRound (buflens n).toNat < 2 ^ 64 := by omega
      rw [Nat.mod_eq_of_lt sumBound, Nat.mod_eq_of_lt (by omega)]
      omega

/-- In a message whose true length is below `2^32`, buffer `n` starts after
the header and the earlier buffers and ends inside the message. -/
theorem lustreMsgBufV2_inside (m : LustreMsgV2) (n : UInt32)
    (present : n < m.lmBufcount) (small : m.requiredLength < 2 ^ 32) :
    ∃ offset, lustreMsgBufV2 m n 0 = some offset ∧
      offset.toNat + (m.lmBuflens n.toNat).toNat ≤ m.requiredLength := by
  have presentNat : n.toNat < m.lmBufcount.toNat := UInt32.lt_iff_toNat_lt.mp present
  have prefixLe := roundedSum_mono (show n.toNat + 1 ≤ m.lmBufcount.toNat by omega)
    m.lmBuflens
  rw [roundedSum_succ] at prefixLe
  have lengthLe := le_sizeRound (m.lmBuflens n.toNat).toNat
  have headerToNat : (lustreMsgHdrSizeV2 m.lmBufcount).toNat =
      msgHdrSize m.lmBufcount.toNat := by
    rw [lustreMsgHdrSizeV2_toNat]
    exact Nat.mod_eq_of_lt (by unfold LustreMsgV2.requiredLength at small; omega)
  refine ⟨(List.range n.toNat).foldl
    (fun offset i => (offset.toUInt64 + cfsSizeRound (m.lmBuflens i).toUInt64).toUInt32)
    (lustreMsgHdrSizeV2 m.lmBufcount), ?_, ?_⟩
  · rw [lustreMsgBufV2, if_neg (by simpa using present), if_neg (by simp)]
  · unfold LustreMsgV2.requiredLength at small ⊢
    rw [bufOffset_toNat _ _ _ (by omega), headerToNat]
    omega

/-- A 48-byte message: the header, one buffer length 8, four bytes of padding
and the buffer. -/
def oneBufferMsg : LustreMsgV2 where
  lmBufcount := 1
  lmSecflvr := 0
  lmMagic := lustreMsgMagicV2
  lmRepsize := 0
  lmCksum := 0
  lmFlags := 0
  lmPadding2 := 0
  lmPadding3 := 0
  lmBuflens := fun _ => 8

/-- Where the validator is exact it protects the accessor: every buffer of
an accepted message whose true length is below `2^31` lies inside the
received bytes. -/
theorem lustreUnpackMsg_buffer_inside (m : LustreMsgV2) (len : Int32)
    (accepted : 0 ≤ (lustreUnpackMsg m len).2)
    (noWrap : (lustreUnpackMsg m len).1.requiredLength < 2 ^ 31)
    (n : UInt32) (present : n < (lustreUnpackMsg m len).1.lmBufcount) :
    ∃ offset, lustreMsgBufV2 (lustreUnpackMsg m len).1 n 0 = some offset ∧
      ((offset.toNat + ((lustreUnpackMsg m len).1.lmBuflens n.toNat).toNat : Nat) : Int) ≤
        len.toInt := by
  have fits := lustreUnpackMsg_requiredLength_le m len accepted noWrap
  obtain ⟨offset, located, inside⟩ :=
    lustreMsgBufV2_inside _ n present (by omega)
  exact ⟨offset, located, by omega⟩

theorem lustreUnpackMsg_buffer_inside_oneBufferMsg :
    ∃ offset, lustreMsgBufV2 (lustreUnpackMsg oneBufferMsg 48).1 0 0 = some offset ∧
      ((offset.toNat + ((lustreUnpackMsg oneBufferMsg 48).1.lmBuflens (0 : UInt32).toNat).toNat : Nat) :
        Int) ≤ (48 : Int32).toInt :=
  lustreUnpackMsg_buffer_inside oneBufferMsg 48 (by decide) (by decide) 0 (by decide)

/-! ## A message the validator wrongly accepts -/

/-- A 40-byte message: the header, one buffer length `0xFFFFFFF8` and four
bytes of padding. -/
def wrappedMsg : LustreMsgV2 where
  lmBufcount := 1
  lmSecflvr := 0
  lmMagic := lustreMsgMagicV2
  lmRepsize := 0
  lmCksum := 0
  lmFlags := 0
  lmPadding2 := 0
  lmPadding3 := 0
  lmBuflens := fun _ => 0xFFFFFFF8

/-- `__lustre_unpack_msg(wrappedMsg, 40)` returns 0: the `int` accumulator
wraps from `40 + 0xFFFFFFF8` to 32.  The message announces 4294967328 bytes,
and `lustre_msg_buf_v2` hands out buffer 0 at offset 40 with that length. -/
theorem lustreUnpackMsg_accepts_wrappedMsg :
    (lustreUnpackMsg wrappedMsg 40).2 = 0 ∧
      (lustreUnpackMsg wrappedMsg 40).1.requiredLength = 4294967328 ∧
      lustreMsgBufV2 (lustreUnpackMsg wrappedMsg 40).1 0 0 = some 40 := by
  decide

end PackGeneric
end Lustre
