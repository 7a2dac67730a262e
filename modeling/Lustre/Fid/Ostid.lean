import Lustre.Mdd.MddDir
import Lustre.Library.Bytes
import Lustre.Library.Word

/-!
# OST object ids and FIDs (lustre_idl.h)

An OST object is named on the wire either by a legacy pair `(oi_id, oi_seq)` of
64-bit words or by a FID `(f_seq, f_oid, f_ver)`, and `struct ost_id` holds
either over the same sixteen bytes.  Which one it holds is read off the bytes:
`oi_seq = 0` is a legacy object of MDT0, `oi_seq` all ones is the LOV default,
and otherwise the bytes are a FID.  Legacy objects are mapped into the IDIF
sequences, which pack a 48-bit id and a 16-bit OST index into `f_seq`, `f_oid`
and `f_ver`.

The model keeps the FID's fields and reads the words through them, as the
little-endian bytes do (`OstId.readLe_bytes`).  A legacy id goes to an IDIF
FID with its OST index and back, and a FID of a regular sequence passes
through both conversions unchanged.  Setting a sequence and then an id reads
them back, except at the bounds: `ostid_set_id` lets the id `OBIF_MAX_OID`
through for a regular sequence and stores it as `f_oid = 0`.
-/

namespace Lustre
namespace Fid

open Mdd Bytes

/-- `FID_SEQ_NORMAL`. -/
def fidSeqNormal : UInt64 := 0x200000400

/-- `FID_SEQ_LOV_DEFAULT`. -/
def fidSeqLovDefault : UInt64 := 0xffffffffffffffff

/-- `LUSTRE_FID_INIT_OID`. -/
def lustreFidInitOid : UInt32 := 1

/-- `OBIF_MAX_OID`, `1 << 32`. -/
def obifMaxOid : UInt64 := 0x100000000

/-- `IDIF_MAX_OID`, `1 << 48`. -/
def idifMaxOid : UInt64 := 0x1000000000000

/-- `IDIF_OID_MASK`. -/
def idifOidMask : UInt64 := 0xffffffffffff

/-- `EBADF`. -/
def ebadf : Int32 := 9

/-- `fid_seq_is_mdt0`. -/
def fidSeqIsMdt0 (seq : UInt64) : Bool := seq == fidSeqOstMdt0

theorem fidSeqIsMdt0_eq (seq : UInt64) : fidSeqIsMdt0 seq = (seq == 0) := rfl

/-- `fid_seq_is_default`. -/
def fidSeqIsDefault (seq : UInt64) : Bool := seq == fidSeqLovDefault

theorem fidSeqIsDefault_eq (seq : UInt64) : fidSeqIsDefault seq = (seq == fidSeqLovDefault) := rfl

/-- `fid_is_idif`. -/
def fidIsIdif (fid : LuFid) : Bool := fidSeqIsIdif fid.fSeq

theorem fidIsIdif_eq (fid : LuFid) :
    fidIsIdif fid = (fid.fSeq ≥ fidSeqIdif && fid.fSeq ≤ fidSeqIdifMax) := rfl

/-- `fid_idif_seq`: the IDIF sequence of an object id on an OST; the shift of
the `__u32` index is done in 32 bits. -/
def fidIdifSeq (id : UInt64) (ostIdx : UInt32) : UInt64 :=
  fidSeqIdif ||| (ostIdx <<< 16).toUInt64 ||| ((id >>> 32) &&& 0xffff)

/-- `fid_idif_id`: the object id packed in an IDIF FID. -/
def fidIdifId (seq : UInt64) (oid ver : UInt32) : UInt64 :=
  ver.toUInt64 <<< 48 ||| (seq &&& 0xffff) <<< 32 ||| oid.toUInt64

/-- `idif_ost_idx`. -/
def idifOstIdx (seq : UInt64) : UInt32 := ((seq >>> 16) &&& 0xffff).toUInt32

/-- `fid_idif_ost_idx`. -/
def fidIdifOstIdx (fid : LuFid) : UInt32 := idifOstIdx fid.fSeq

/-- `struct ost_id`: the words `oi.oi_id`, `oi.oi_seq` and the FID `oi_fid`
over the same sixteen bytes, kept as the FID's fields. -/
structure OstId where
  /-- `oi_fid`. -/
  oiFid : LuFid
  deriving DecidableEq, Repr

namespace OstId

/-- `oi.oi_id`: the first eight bytes, which are `f_seq`. -/
def oiId (oi : OstId) : UInt64 := oi.oiFid.fSeq

/-- `oi.oi_seq`: the last eight bytes, `f_oid` then `f_ver`, least significant
first. -/
def oiSeq (oi : OstId) : UInt64 := oi.oiFid.fOid.toUInt64 ||| oi.oiFid.fVer.toUInt64 <<< 32

/-- A store to `oi.oi_id`. -/
def setOiId (oi : OstId) (id : UInt64) : OstId := ⟨{ oi.oiFid with fSeq := id }⟩

/-- A store to `oi.oi_seq`. -/
def setOiSeq (oi : OstId) (seq : UInt64) : OstId :=
  ⟨{ oi.oiFid with fOid := seq.toUInt32, fVer := (seq >>> 32).toUInt32 }⟩

/-- The sixteen bytes, little-endian. -/
def bytes (oi : OstId) : List UInt8 :=
  encodeLe 8 oi.oiFid.fSeq.toNat ++ (encodeLe 4 oi.oiFid.fOid.toNat ++ encodeLe 4 oi.oiFid.fVer.toNat)

end OstId

/-- `ostid_seq`: the sequence of an object id. -/
def ostidSeq (ostid : OstId) : UInt64 :=
  if fidSeqIsMdt0 ostid.oiSeq then fidSeqOstMdt0
  else if fidSeqIsDefault ostid.oiSeq then fidSeqLovDefault
  else if fidIsIdif ostid.oiFid then fidSeqOstMdt0
  else ostid.oiFid.fSeq

/-- `ostid_id`: the object id within its sequence. -/
def ostidId (ostid : OstId) : UInt64 :=
  if fidSeqIsMdt0 ostid.oiSeq then ostid.oiId &&& idifOidMask
  else if fidSeqIsDefault ostid.oiSeq then ostid.oiId
  else if fidIsIdif ostid.oiFid then fidIdifId ostid.oiFid.fSeq ostid.oiFid.fOid 0
  else ostid.oiFid.fOid.toUInt64

/-- `ostid_set_seq`. -/
def ostidSetSeq (oi : OstId) (seq : UInt64) : OstId :=
  if fidSeqIsMdt0 seq || fidSeqIsDefault seq then oi.setOiSeq seq
  else
    let oi : OstId := ⟨{ oi.oiFid with fSeq := seq }⟩
    -- `f_oid` and `f_ver` both zero would read back as the legacy `oi_seq = 0`
    if oi.oiFid.fOid = 0 ∧ oi.oiFid.fVer = 0 then ⟨{ oi.oiFid with fOid := lustreFidInitOid }⟩ else oi

/-- `ostid_set_seq_mdt0`. -/
def ostidSetSeqMdt0 (oi : OstId) : OstId := ostidSetSeq oi fidSeqOstMdt0

/-- `ostid_set_id`; an id out of range is reported and leaves `oi` as it is. -/
def ostidSetId (oi : OstId) (oid : UInt64) : OstId :=
  if fidSeqIsMdt0 oi.oiSeq then
    if oid ≥ idifMaxOid then oi else oi.setOiId oid
  else if fidIsIdif oi.oiFid then
    if oid ≥ idifMaxOid then oi
    else ⟨{ fSeq := fidIdifSeq oid (fidIdifOstIdx oi.oiFid), fOid := oid.toUInt32, fVer := (oid >>> 48).toUInt32 }⟩
  else if oid > obifMaxOid then oi
  else ⟨{ oi.oiFid with fOid := oid.toUInt32 }⟩

/-- `ostid_to_fid`: the result and what is left in `*fid`, which is written
only on success. -/
def ostidToFid (fid : LuFid) (ostid : OstId) (ostIdx : UInt32) : Int32 × LuFid :=
  let seq := ostidSeq ostid
  if ostIdx > 0xffff then (-ebadf, fid)
  else if fidSeqIsMdt0 seq then
    let oid := ostidId ostid
    if oid ≥ idifMaxOid then (-ebadf, fid)
    else (0, ⟨fidIdifSeq oid ostIdx, oid.toUInt32, (oid >>> 48).toUInt32⟩)
  else if !fidSeqIsDefault seq then
    if ostid.oiFid.fVer ≠ 0 then (-ebadf, fid) else (0, ostid.oiFid)
  else (0, fid)

/-- `fid_to_ostid`: the result and what is left in `*ostid`. -/
def fidToOstid (fid : LuFid) (ostid : OstId) : Int32 × OstId :=
  if fidSeqIsIgif fid.fSeq then (-ebadf, ostid)
  else if fidIsIdif fid then
    (0, ostidSetId (ostidSetSeqMdt0 ostid) (fidIdifId fid.fSeq fid.fOid fid.fVer))
  else (0, ⟨fid⟩)

/-! ## The words of the union -/

namespace OstId

@[simp] theorem oiId_setOiId (oi : OstId) (id : UInt64) : (oi.setOiId id).oiId = id := rfl

@[simp] theorem oiSeq_setOiId (oi : OstId) (id : UInt64) : (oi.setOiId id).oiSeq = oi.oiSeq := rfl

/-- `oi.oi_seq` is `f_oid` below `f_ver`. -/
theorem toNat_oiSeq (oi : OstId) : oi.oiSeq.toNat = oi.oiFid.fOid.toNat + 2 ^ 32 * oi.oiFid.fVer.toNat := by
  have low := oi.oiFid.fOid.toNat_lt
  have high : oi.oiFid.fVer.toNat <<< 32 < 2 ^ 64 := by
    rw [Nat.shiftLeft_eq]
    have := oi.oiFid.fVer.toNat_lt
    omega
  rw [oiSeq, UInt64.toNat_or, UInt64.toNat_shiftLeft, UInt32.toNat_toUInt64, UInt32.toNat_toUInt64,
    show (32 : UInt64).toNat % 64 = 32 from rfl, Nat.mod_eq_of_lt high, Nat.or_comm,
    ← Nat.shiftLeft_add_eq_or_of_lt low, Nat.shiftLeft_eq]
  omega

@[simp] theorem oiSeq_setOiSeq (oi : OstId) (seq : UInt64) : (oi.setOiSeq seq).oiSeq = seq := by
  apply UInt64.toNat_inj.1
  rw [toNat_oiSeq]
  simp only [setOiSeq, UInt64.toNat_toUInt32, UInt64.toNat_shiftRight]
  have := seq.toNat_lt
  simp only [UInt64.reduceToNat, Nat.reduceMod, Nat.shiftRight_eq_div_pow]
  omega

/-- The words `oi.oi_id`, `oi.oi_seq` and the FID fields are read from the
same little-endian bytes. -/
theorem readLe_bytes (oi : OstId) :
    readLe oi.bytes 0 8 = some oi.oiId.toNat ∧ readLe oi.bytes 8 8 = some oi.oiSeq.toNat ∧
      readLe oi.bytes 8 4 = some oi.oiFid.fOid.toNat ∧ readLe oi.bytes 12 4 = some oi.oiFid.fVer.toNat := by
  have oidLt := oi.oiFid.fOid.toNat_lt
  have verLt := oi.oiFid.fVer.toNat_lt
  have seqBytes : readLe (encodeLe 4 oi.oiFid.fOid.toNat ++ encodeLe 4 oi.oiFid.fVer.toNat) 0 8 =
      some oi.oiSeq.toNat := by
    have whole := slice_front (encodeLe 4 oi.oiFid.fOid.toNat ++ encodeLe 4 oi.oiFid.fVer.toNat) []
    rw [List.append_nil, List.length_append, length_encodeLe, length_encodeLe] at whole
    rw [readLe_eq, whole, Option.map_some, decodeLe_append, decodeLe_encodeLe, decodeLe_encodeLe, length_encodeLe,
      toNat_oiSeq]
    congr 1
    omega
  refine ⟨?_, ?_, ?_, ?_⟩
  · have seqLt := oi.oiFid.fSeq.toNat_lt
    rw [bytes, readLe_front, oiId]
    congr 1
    omega
  · rw [bytes, readLe_append_of_le (by simp)]
    exact seqBytes
  · rw [bytes, readLe_append_of_le (by simp), length_encodeLe, readLe_front]
    congr 1
    omega
  · rw [bytes, readLe_append_of_le (by simp), length_encodeLe, readLe_append_of_le (by simp), length_encodeLe]
    have back := readLe_front 4 oi.oiFid.fVer.toNat []
    rw [List.append_nil] at back
    rw [back]
    congr 1
    omega

/-- `oi.oi_seq` is zero exactly when `f_oid` and `f_ver` are. -/
theorem oiSeq_eq_zero_iff (oi : OstId) : oi.oiSeq = 0 ↔ oi.oiFid.fOid = 0 ∧ oi.oiFid.fVer = 0 := by
  rw [← UInt64.toNat_inj, toNat_oiSeq, ← UInt32.toNat_inj, ← UInt32.toNat_inj]
  simp only [UInt64.toNat_zero, UInt32.toNat_zero]
  omega

/-- `oi.oi_seq` is all ones exactly when `f_oid` and `f_ver` are. -/
theorem oiSeq_eq_lovDefault_iff (oi : OstId) :
    oi.oiSeq = fidSeqLovDefault ↔ oi.oiFid.fOid = 0xffffffff ∧ oi.oiFid.fVer = 0xffffffff := by
  have low := oi.oiFid.fOid.toNat_lt
  have high := oi.oiFid.fVer.toNat_lt
  rw [← UInt64.toNat_inj, toNat_oiSeq, ← UInt32.toNat_inj, ← UInt32.toNat_inj]
  simp only [fidSeqLovDefault, UInt64.reduceToNat, UInt32.reduceToNat]
  omega

end OstId

/-! ## The IDIF packing -/

theorem toNat_fidIdifSeq (id : UInt64) {ostIdx : UInt32} (small : ostIdx.toNat ≤ 0xffff) :
    (fidIdifSeq id ostIdx).toNat = 2 ^ 32 + ostIdx.toNat * 2 ^ 16 + id.toNat / 2 ^ 32 % 2 ^ 16 := by
  have index : (ostIdx <<< 16).toUInt64.toNat = ostIdx.toNat * 2 ^ 16 := by
    rw [UInt32.toNat_toUInt64, UInt32.toNat_shiftLeft, show (16 : UInt32).toNat % 32 = 16 from rfl,
      Nat.shiftLeft_eq, Nat.mod_eq_of_lt (by omega)]
  have low : ((id >>> 32) &&& 0xffff).toNat = id.toNat / 2 ^ 32 % 2 ^ 16 := by
    rw [UInt64.toNat_and, UInt64.toNat_shiftRight, show (32 : UInt64).toNat % 64 = 32 from rfl,
      Nat.shiftRight_eq_div_pow, show (0xffff : UInt64).toNat = 2 ^ 16 - 1 from rfl, Nat.and_two_pow_sub_one_eq_mod]
  have top : (2 ^ 32 ||| ostIdx.toNat * 2 ^ 16) = 2 ^ 32 + ostIdx.toNat * 2 ^ 16 := by
    rw [← Nat.one_mul (2 ^ 32), Nat.mul_two_pow_or_eq_add (by omega), Nat.one_mul]
  have high : 2 ^ 32 + ostIdx.toNat * 2 ^ 16 = (2 ^ 16 + ostIdx.toNat) * 2 ^ 16 := by omega
  rw [fidIdifSeq, UInt64.toNat_or, UInt64.toNat_or, index, low, show fidSeqIdif.toNat = 2 ^ 32 from rfl, top, high,
    Nat.mul_two_pow_or_eq_add (Nat.mod_lt _ (by decide)), ← high]

theorem toNat_idifOstIdx (seq : UInt64) : (idifOstIdx seq).toNat = seq.toNat / 2 ^ 16 % 2 ^ 16 := by
  rw [idifOstIdx, UInt64.toNat_toUInt32, UInt64.toNat_and, UInt64.toNat_shiftRight,
    show (16 : UInt64).toNat % 64 = 16 from rfl, Nat.shiftRight_eq_div_pow,
    show (0xffff : UInt64).toNat = 2 ^ 16 - 1 from rfl, Nat.and_two_pow_sub_one_eq_mod]
  omega

theorem toNat_fidIdifId (seq : UInt64) (oid : UInt32) {ver : UInt32} (small : ver.toNat < 2 ^ 16) :
    (fidIdifId seq oid ver).toNat = ver.toNat * 2 ^ 48 + seq.toNat % 2 ^ 16 * 2 ^ 32 + oid.toNat := by
  have version : (ver.toUInt64 <<< 48).toNat = ver.toNat * 2 ^ 48 := by
    rw [UInt64.toNat_shiftLeft, UInt32.toNat_toUInt64, show (48 : UInt64).toNat % 64 = 48 from rfl,
      Nat.shiftLeft_eq, Nat.mod_eq_of_lt (by omega)]
  have upper : ((seq &&& 0xffff) <<< 32).toNat = seq.toNat % 2 ^ 16 * 2 ^ 32 := by
    rw [UInt64.toNat_shiftLeft, UInt64.toNat_and, show (32 : UInt64).toNat % 64 = 32 from rfl,
      show (0xffff : UInt64).toNat = 2 ^ 16 - 1 from rfl, Nat.and_two_pow_sub_one_eq_mod, Nat.shiftLeft_eq,
      Nat.mod_eq_of_lt (by have := Nat.mod_lt seq.toNat (show 0 < 2 ^ 16 by decide); omega)]
  have split : ver.toNat * 2 ^ 48 ||| seq.toNat % 2 ^ 16 * 2 ^ 32 =
      (ver.toNat * 2 ^ 16 + seq.toNat % 2 ^ 16) * 2 ^ 32 := by
    rw [Nat.mul_two_pow_or_eq_add (by have := Nat.mod_lt seq.toNat (show 0 < 2 ^ 16 by decide); omega)]
    omega
  rw [fidIdifId, UInt64.toNat_or, UInt64.toNat_or, version, upper, UInt32.toNat_toUInt64, split,
    Nat.mul_two_pow_or_eq_add oid.toNat_lt]
  omega

/-! ## Legacy ids -/

theorem toNat_and_idifOidMask (v : UInt64) : (v &&& idifOidMask).toNat = v.toNat % 2 ^ 48 := by
  rw [UInt64.toNat_and, show idifOidMask.toNat = 2 ^ 48 - 1 from rfl, Nat.and_two_pow_sub_one_eq_mod]

theorem ostidSetSeqMdt0_oiSeq (oi : OstId) : (ostidSetSeqMdt0 oi).oiSeq = 0 := by
  simp [ostidSetSeqMdt0, ostidSetSeq, fidSeqIsMdt0_eq, fidSeqOstMdt0_eq]

section Legacy

variable {oi : OstId} (legacy : oi.oiSeq = 0)
include legacy

theorem ostidSeq_of_legacy : ostidSeq oi = fidSeqOstMdt0 := by
  simp [ostidSeq, fidSeqIsMdt0_eq, fidSeqOstMdt0_eq, legacy]

theorem ostidId_of_legacy : ostidId oi = oi.oiId &&& idifOidMask := by
  simp [ostidId, fidSeqIsMdt0_eq, legacy]

/-- `ostid_set_id` of an id below `IDIF_MAX_OID` on a legacy `ost_id` stores
it in `oi_id`. -/
theorem ostidSetId_of_legacy {oid : UInt64} (small : oid.toNat < 2 ^ 48) : ostidSetId oi oid = oi.setOiId oid := by
  have fits : ¬oid ≥ idifMaxOid := by
    rw [ge_iff_le, UInt64.le_iff_toNat_le, show idifMaxOid.toNat = 2 ^ 48 from rfl]
    omega
  simp [ostidSetId, fidSeqIsMdt0_eq, legacy, fits]

/-- `ostid_to_fid` maps a legacy id below `IDIF_MAX_OID` to its IDIF FID. -/
theorem ostidToFid_of_legacy (fid : LuFid) {ostIdx : UInt32} (idxSmall : ostIdx.toNat ≤ 0xffff)
    (idSmall : oi.oiId.toNat < 2 ^ 48) :
    ostidToFid fid oi ostIdx = (0, ⟨fidIdifSeq oi.oiId ostIdx, oi.oiId.toUInt32, 0⟩) := by
  have masked : oi.oiId &&& idifOidMask = oi.oiId := by
    rw [← UInt64.toNat_inj, toNat_and_idifOidMask, Nat.mod_eq_of_lt idSmall]
  have fits : ¬oi.oiId ≥ idifMaxOid := by
    rw [ge_iff_le, UInt64.le_iff_toNat_le, show idifMaxOid.toNat = 2 ^ 48 from rfl]
    omega
  have noVersion : (oi.oiId >>> 48).toUInt32 = 0 := by
    rw [← UInt32.toNat_inj, UInt64.toNat_toUInt32, UInt64.toNat_shiftRight,
      show (48 : UInt64).toNat % 64 = 48 from rfl, Nat.shiftRight_eq_div_pow]
    simp only [UInt32.toNat_zero]
    omega
  have idxFits : ¬ostIdx > 0xffff := by
    rw [gt_iff_lt, UInt32.lt_iff_toNat_lt]
    simpa using idxSmall
  simp only [ostidToFid, ostidSeq_of_legacy legacy, ostidId_of_legacy legacy, masked, idxFits, fits,
    noVersion, fidSeqIsMdt0_eq, fidSeqOstMdt0_eq, beq_self_eq_true, if_true, if_false]

end Legacy

/-- An id below `IDIF_MAX_OID` set after `ostid_set_seq_mdt0` reads back with
sequence `FID_SEQ_OST_MDT0`. -/
theorem ostidSetId_ostidSetSeqMdt0 (oi : OstId) {id : UInt64} (small : id.toNat < 2 ^ 48) :
    ostidSetId (ostidSetSeqMdt0 oi) id = (ostidSetSeqMdt0 oi).setOiId id ∧
      ostidSeq ((ostidSetSeqMdt0 oi).setOiId id) = fidSeqOstMdt0 ∧
      ostidId ((ostidSetSeqMdt0 oi).setOiId id) = id := by
  have legacy : ((ostidSetSeqMdt0 oi).setOiId id).oiSeq = 0 := by
    rw [OstId.oiSeq_setOiId, ostidSetSeqMdt0_oiSeq]
  refine ⟨ostidSetId_of_legacy (ostidSetSeqMdt0_oiSeq oi) small, ostidSeq_of_legacy legacy, ?_⟩
  rw [ostidId_of_legacy legacy, ← UInt64.toNat_inj, toNat_and_idifOidMask, OstId.oiId_setOiId,
    Nat.mod_eq_of_lt small]

/-! ## IDIF FIDs -/

/-- The FID of a legacy id on an OST is an IDIF FID, and it names the OST. -/
theorem fidIsIdif_fidIdifSeq (id : UInt64) {ostIdx : UInt32} (idxSmall : ostIdx.toNat ≤ 0xffff) (oid ver : UInt32) :
    fidIsIdif ⟨fidIdifSeq id ostIdx, oid, ver⟩ = true ∧ fidIdifOstIdx ⟨fidIdifSeq id ostIdx, oid, ver⟩ = ostIdx := by
  have value := toNat_fidIdifSeq id idxSmall
  have low := Nat.mod_lt (id.toNat / 2 ^ 32) (show 0 < 2 ^ 16 by decide)
  constructor
  · simp only [fidIsIdif_eq, Bool.and_eq_true, decide_eq_true_eq, ge_iff_le, UInt64.le_iff_toNat_le,
      value, show fidSeqIdif.toNat = 2 ^ 32 from rfl, show fidSeqIdifMax.toNat = 2 ^ 33 - 1 from rfl]
    omega
  · rw [fidIdifOstIdx, ← UInt32.toNat_inj, toNat_idifOstIdx, value]
    omega

/-- `fid_to_ostid` of an IDIF FID sets the legacy id it packs. -/
theorem fidToOstid_of_idif {fid : LuFid} (idif : fidIsIdif fid = true) (oi : OstId) :
    fidToOstid fid oi = (0, ostidSetId (ostidSetSeqMdt0 oi) (fidIdifId fid.fSeq fid.fOid fid.fVer)) := by
  have notIgif : fidSeqIsIgif fid.fSeq = false := by
    simp only [fidIsIdif_eq, Bool.and_eq_true, decide_eq_true_eq, ge_iff_le] at idif
    simp only [fidSeqIsIgif, Bool.and_eq_false_iff, decide_eq_false_iff_not, ge_iff_le, UInt64.le_iff_toNat_le]
    rw [UInt64.le_iff_toNat_le] at idif
    right
    simp only [show fidSeqIgifMax.toNat = 2 ^ 32 - 1 from rfl]
    have := idif.1
    simp only [show fidSeqIdif.toNat = 2 ^ 32 from rfl] at this
    omega
  simp [fidToOstid, notIgif, idif]

/-- A legacy id below `IDIF_MAX_OID` with an OST index up to `0xffff` goes to
an IDIF FID that names the OST, and back to the same legacy id. -/
theorem legacy_ostidToFid_fidToOstid (oi oi2 : OstId) (fid : LuFid) {id : UInt64} {ostIdx : UInt32}
    (idSmall : id.toNat < 2 ^ 48) (idxSmall : ostIdx.toNat ≤ 0xffff) :
    ∃ idif oi3, ostidToFid fid (ostidSetId (ostidSetSeqMdt0 oi) id) ostIdx = (0, idif) ∧
      fidIsIdif idif = true ∧ fidIdifOstIdx idif = ostIdx ∧
      fidToOstid idif oi2 = (0, oi3) ∧ ostidSeq oi3 = fidSeqOstMdt0 ∧ ostidId oi3 = id := by
  obtain ⟨set, -, -⟩ := ostidSetId_ostidSetSeqMdt0 oi idSmall
  have legacy : ((ostidSetSeqMdt0 oi).setOiId id).oiSeq = 0 := by
    rw [OstId.oiSeq_setOiId, ostidSetSeqMdt0_oiSeq]
  obtain ⟨idif, named⟩ := fidIsIdif_fidIdifSeq id idxSmall id.toUInt32 0
  -- the packed id of the IDIF FID is the legacy id again
  have packed : fidIdifId (fidIdifSeq id ostIdx) id.toUInt32 0 = id := by
    rw [← UInt64.toNat_inj, toNat_fidIdifId _ _ (by decide), toNat_fidIdifSeq id idxSmall, UInt64.toNat_toUInt32]
    simp only [UInt32.toNat_zero]
    omega
  obtain ⟨set2, seq2, id2⟩ := ostidSetId_ostidSetSeqMdt0 oi2 idSmall
  refine ⟨_, _, ?_, idif, named, fidToOstid_of_idif idif oi2, ?_, ?_⟩
  · rw [set, ostidToFid_of_legacy legacy fid idxSmall idSmall, OstId.oiId_setOiId]
  · rw [packed, set2]
    exact seq2
  · rw [packed, set2]
    exact id2

theorem legacy_ostidToFid_fidToOstid_object_1000 :
    ∃ idif oi3, ostidToFid ⟨0, 0, 0⟩ (ostidSetId (ostidSetSeqMdt0 ⟨⟨0, 0, 0⟩⟩) 1000) 3 = (0, idif) ∧
      fidIsIdif idif = true ∧ fidIdifOstIdx idif = 3 ∧
      fidToOstid idif ⟨⟨0, 0, 0⟩⟩ = (0, oi3) ∧ ostidSeq oi3 = fidSeqOstMdt0 ∧ ostidId oi3 = 1000 :=
  legacy_ostidToFid_fidToOstid ⟨⟨0, 0, 0⟩⟩ ⟨⟨0, 0, 0⟩⟩ ⟨0, 0, 0⟩ (by decide) (by decide)

/-! ## Regular FIDs -/

section Regular

variable {seq : UInt64} (normal : fidSeqNormal ≤ seq)
include normal

theorem fidSeqIsMdt0_of_normal : fidSeqIsMdt0 seq = false := by
  rw [UInt64.le_iff_toNat_le, show fidSeqNormal.toNat = 0x200000400 from rfl] at normal
  simp only [fidSeqIsMdt0_eq, beq_eq_false_iff_ne, ne_eq, ← UInt64.toNat_inj, UInt64.toNat_zero]
  omega

theorem fidSeqIsIgif_of_normal : fidSeqIsIgif seq = false := by
  rw [UInt64.le_iff_toNat_le, show fidSeqNormal.toNat = 0x200000400 from rfl] at normal
  simp only [fidSeqIsIgif, Bool.and_eq_false_iff, decide_eq_false_iff_not, ge_iff_le, UInt64.le_iff_toNat_le,
    show fidSeqIgifMax.toNat = 0x0ffffffff from rfl]
  omega

theorem fidSeqIsIdif_of_normal : fidSeqIsIdif seq = false := by
  rw [UInt64.le_iff_toNat_le, show fidSeqNormal.toNat = 0x200000400 from rfl] at normal
  simp only [fidSeqIsIdif, Bool.and_eq_false_iff, decide_eq_false_iff_not, ge_iff_le, UInt64.le_iff_toNat_le,
    show fidSeqIdifMax.toNat = 0x1ffffffff from rfl]
  omega

/-- `ostid_seq` and `ostid_id` of an `ost_id` holding a FID of a regular
sequence, when `oi_seq` is neither zero nor all ones. -/
theorem ostidSeq_ostidId_of_regular {oi : OstId} (fSeqEq : oi.oiFid.fSeq = seq) (notLegacy : oi.oiSeq ≠ 0)
    (notDefault : oi.oiSeq ≠ fidSeqLovDefault) :
    ostidSeq oi = seq ∧ ostidId oi = oi.oiFid.fOid.toUInt64 := by
  have notIdif : fidIsIdif oi.oiFid = false := by
    rw [fidIsIdif_eq, fSeqEq]
    exact fidSeqIsIdif_of_normal normal
  constructor
  · simp [ostidSeq, fidSeqIsMdt0_eq, fidSeqIsDefault_eq, notLegacy, notDefault, notIdif, fSeqEq]
  · simp [ostidId, fidSeqIsMdt0_eq, fidSeqIsDefault_eq, notLegacy, notDefault, notIdif]

/-- `fid_to_ostid` stores a FID of a regular sequence as it is. -/
theorem fidToOstid_of_normal (fid : LuFid) (fSeqEq : fid.fSeq = seq) (oi : OstId) : fidToOstid fid oi = (0, ⟨fid⟩) := by
  have notIgif : fidSeqIsIgif fid.fSeq = false := fSeqEq ▸ fidSeqIsIgif_of_normal normal
  have notIdif : fidIsIdif fid = false := by
    rw [fidIsIdif_eq, fSeqEq]
    exact fidSeqIsIdif_of_normal normal
  simp [fidToOstid, notIgif, notIdif]

/-- A FID of a regular sequence other than `FID_SEQ_LOV_DEFAULT`, with version
0 and a nonzero `f_oid`, passes through `fid_to_ostid` and `ostid_to_fid`
unchanged. -/
theorem regular_fidToOstid_ostidToFid (f fid : LuFid) (oi : OstId) {ostIdx : UInt32} (fSeqEq : f.fSeq = seq)
    (notDefault : seq ≠ fidSeqLovDefault) (versionZero : f.fVer = 0) (oidNonzero : f.fOid ≠ 0)
    (idxSmall : ostIdx.toNat ≤ 0xffff) :
    fidToOstid f oi = (0, ⟨f⟩) ∧ ostidToFid fid ⟨f⟩ ostIdx = (0, f) := by
  have notLegacy : (⟨f⟩ : OstId).oiSeq ≠ 0 := fun legacy => oidNonzero ((OstId.oiSeq_eq_zero_iff _).1 legacy).1
  have notAllOnes : (⟨f⟩ : OstId).oiSeq ≠ fidSeqLovDefault := fun allOnes => by
    have := ((OstId.oiSeq_eq_lovDefault_iff _).1 allOnes).2
    rw [versionZero] at this
    exact absurd this (by decide)
  obtain ⟨seqEq, -⟩ := ostidSeq_ostidId_of_regular normal fSeqEq notLegacy notAllOnes
  have idxFits : ¬ostIdx > 0xffff := by
    rw [gt_iff_lt, UInt32.lt_iff_toNat_lt]
    simpa using idxSmall
  refine ⟨fidToOstid_of_normal normal f fSeqEq oi, ?_⟩
  simp [ostidToFid, seqEq, idxFits, fidSeqIsMdt0_of_normal normal, fidSeqIsDefault_eq, notDefault, versionZero]

omit normal in
theorem regular_fidToOstid_ostidToFid_first_object :
    fidToOstid ⟨fidSeqNormal, 1, 0⟩ ⟨⟨0, 0, 0⟩⟩ = (0, ⟨⟨fidSeqNormal, 1, 0⟩⟩) ∧
      ostidToFid ⟨0, 0, 0⟩ ⟨⟨fidSeqNormal, 1, 0⟩⟩ 3 = (0, ⟨fidSeqNormal, 1, 0⟩) :=
  regular_fidToOstid_ostidToFid (by decide) ⟨fidSeqNormal, 1, 0⟩ ⟨0, 0, 0⟩ ⟨⟨0, 0, 0⟩⟩ rfl
    (by decide) rfl (by decide) (by decide)

/-- `ostid_set_seq` of a regular sequence stores it in `f_seq`, and makes
`f_oid` nonzero when `f_oid` and `f_ver` were both zero. -/
theorem ostidSetSeq_of_normal (oi : OstId) (notDefault : seq ≠ fidSeqLovDefault) :
    (ostidSetSeq oi seq).oiFid.fSeq = seq ∧ (ostidSetSeq oi seq).oiFid.fVer = oi.oiFid.fVer ∧
      (ostidSetSeq oi seq).oiSeq ≠ 0 := by
  have stored : ostidSetSeq oi seq = if oi.oiFid.fOid = 0 ∧ oi.oiFid.fVer = 0 then
      ⟨{ oi.oiFid with fSeq := seq, fOid := lustreFidInitOid }⟩ else ⟨{ oi.oiFid with fSeq := seq }⟩ := by
    simp [ostidSetSeq, fidSeqIsMdt0_of_normal normal, fidSeqIsDefault_eq, notDefault]
  rw [stored]
  by_cases blank : oi.oiFid.fOid = 0 ∧ oi.oiFid.fVer = 0
  · rw [if_pos blank]
    have initNonzero : lustreFidInitOid ≠ 0 := by decide
    exact ⟨rfl, rfl, fun legacy => initNonzero ((OstId.oiSeq_eq_zero_iff _).1 legacy).1⟩
  · rw [if_neg blank]
    exact ⟨rfl, rfl, fun legacy => blank ((OstId.oiSeq_eq_zero_iff _).1 legacy)⟩

/-- After `ostid_set_seq` of a regular sequence, `ostid_set_id` either rejects
the id or stores it so that both read back, for every id but `OBIF_MAX_OID`
and, when `f_ver` was all ones, `0xffffffff`. -/
theorem ostidSetId_ostidSetSeq_of_normal (oi : OstId) {oid : UInt64} (notDefault : seq ≠ fidSeqLovDefault)
    (oidNonzero : oid ≠ 0) (notObifMax : oid ≠ obifMaxOid) (notAllOnes : oid ≠ 0xffffffff ∨ oi.oiFid.fVer ≠ 0xffffffff) :
    ostidSetId (ostidSetSeq oi seq) oid = ostidSetSeq oi seq ∨
      (ostidSeq (ostidSetId (ostidSetSeq oi seq) oid) = seq ∧ ostidId (ostidSetId (ostidSetSeq oi seq) oid) = oid) := by
  obtain ⟨seqStored, versionKept, notLegacy⟩ := ostidSetSeq_of_normal normal oi notDefault
  have notIdif : fidIsIdif (ostidSetSeq oi seq).oiFid = false := by
    rw [fidIsIdif_eq, seqStored]
    exact fidSeqIsIdif_of_normal normal
  have legacyFalse : fidSeqIsMdt0 (ostidSetSeq oi seq).oiSeq = false := by
    simpa [fidSeqIsMdt0_eq, fidSeqOstMdt0_eq] using notLegacy
  by_cases tooLarge : oid > obifMaxOid
  · left
    simp [ostidSetId, legacyFalse, notIdif, tooLarge]
  · right
    -- the id fits in `f_oid`
    have small : oid.toNat < 2 ^ 32 := by
      rw [gt_iff_lt, UInt64.lt_iff_toNat_lt, show obifMaxOid.toNat = 2 ^ 32 from rfl] at tooLarge
      have : oid.toNat ≠ 2 ^ 32 := fun eq => notObifMax (UInt64.toNat_inj.1 (by rw [eq]; rfl))
      omega
    have oidNat : oid.toUInt32.toNat = oid.toNat := by
      rw [UInt64.toNat_toUInt32, Nat.mod_eq_of_lt small]
    have set : ostidSetId (ostidSetSeq oi seq) oid = ⟨{ (ostidSetSeq oi seq).oiFid with fOid := oid.toUInt32 }⟩ := by
      simp [ostidSetId, legacyFalse, notIdif, tooLarge]
    have positive : oid.toNat ≠ 0 := fun zero => oidNonzero (UInt64.toNat_inj.1 (by rw [zero]; rfl))
    rw [set]
    have stillRegular : ostidSeq ⟨{ (ostidSetSeq oi seq).oiFid with fOid := oid.toUInt32 }⟩ = seq ∧
        ostidId ⟨{ (ostidSetSeq oi seq).oiFid with fOid := oid.toUInt32 }⟩ = oid.toUInt32.toUInt64 :=
      ostidSeq_ostidId_of_regular normal seqStored
      (fun legacy => by
        have := ((OstId.oiSeq_eq_zero_iff _).1 legacy).1
        rw [← UInt32.toNat_inj, oidNat] at this
        exact positive this)
      (fun allOnes => by
        obtain ⟨oidOnes, verOnes⟩ := (OstId.oiSeq_eq_lovDefault_iff _).1 allOnes
        rw [← UInt32.toNat_inj, oidNat] at oidOnes
        have verOnes' : oi.oiFid.fVer = 0xffffffff := versionKept ▸ verOnes
        rcases notAllOnes with other | other
        · exact other (UInt64.toNat_inj.1 (by rw [oidOnes]; rfl))
        · exact other verOnes')
    refine ⟨stillRegular.1, ?_⟩
    rw [stillRegular.2, ← UInt64.toNat_inj, UInt32.toNat_toUInt64, oidNat]

end Regular

/-- `ostid_set_id` after `ostid_set_seq` of a regular sequence lets the id
`OBIF_MAX_OID` through: it stores `f_oid = 0`, and the `ost_id` then reads as
the legacy MDT0 object `FID_SEQ_NORMAL` (`oi_seq` is zero).  After a FID whose
`f_ver` is all ones, the id `0xffffffff` makes `oi_seq` all ones, read as
`FID_SEQ_LOV_DEFAULT`.  And `fid_to_ostid` followed by `ostid_to_fid` leaves
`*fid` unwritten for the regular sequence `FID_SEQ_LOV_DEFAULT`. -/
theorem ostidSetId_stores_obifMaxOid_truncated :
    ostidSetId (ostidSetSeq ⟨LuFid.zero⟩ fidSeqNormal) obifMaxOid ≠ ostidSetSeq ⟨LuFid.zero⟩ fidSeqNormal ∧
      (ostidSetId (ostidSetSeq ⟨LuFid.zero⟩ fidSeqNormal) obifMaxOid).oiFid.fOid = 0 ∧
      ostidSeq (ostidSetId (ostidSetSeq ⟨LuFid.zero⟩ fidSeqNormal) obifMaxOid) = fidSeqOstMdt0 ∧
      ostidId (ostidSetId (ostidSetSeq ⟨LuFid.zero⟩ fidSeqNormal) obifMaxOid) = fidSeqNormal ∧
      ostidSeq (ostidSetId (ostidSetSeq ⟨⟨0, 0, 0xffffffff⟩⟩ fidSeqNormal) 0xffffffff) = fidSeqLovDefault ∧
      fidToOstid ⟨fidSeqLovDefault, 1, 0⟩ ⟨LuFid.zero⟩ = (0, ⟨⟨fidSeqLovDefault, 1, 0⟩⟩) ∧
      ostidToFid LuFid.zero ⟨⟨fidSeqLovDefault, 1, 0⟩⟩ 0 = (0, LuFid.zero) := by
  decide

end Fid
end Lustre
