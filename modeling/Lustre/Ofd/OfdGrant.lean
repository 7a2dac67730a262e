import Mathlib.Data.UInt
import Lustre.Library.Ledger
import Lustre.Library.Run

/-!
# Grant accounting of the object storage device

An OST promises space to clients in advance ("grant") so that they can cache
dirty pages and write them back without `ENOSPC`.  The device keeps totals,
`ofd_tot_granted`, `ofd_tot_pending` and `ofd_tot_dirty` (`u64`), and every
export keeps its share in `filter_export_data`: `fed_grant`, `fed_pending`
and `fed_dirty` (`long`).  `ofd_grant_sanity_check` states what must hold:
each total is the sum of the shares, added up in `u64` as the check does, and
no share is negative.

The model embeds the grant functions with the source's machine integers and
its implicit conversions between `long`, `int` and `u64`.  Clients choose the
`obdo` fields they send, and the OSD chooses the `statfs` numbers.  Every
operation moves the same amount into a total and into the shares, so the sums
of the check are kept over every run.  The shares are not kept non-negative:
`ofd_grant_shrink` takes the client's `o_grant` as it comes.
-/

namespace Lustre
namespace OfdGrant

/-! ## Requests from clients -/

/-- `OBD_MD_FLBLOCKS`. -/
def obdMdFlblocks : UInt64 := 0x00000020

/-- `OBD_MD_FLFLAGS`. -/
def obdMdFlflags : UInt64 := 0x00000800

/-- `OBD_MD_FLGRANT`. -/
def obdMdFlgrant : UInt64 := 0x08000000

/-- `OBD_FL_SHRINK_GRANT`. -/
def obdFlShrinkGrant : UInt32 := 0x00020000

/-- `OBD_FL_RECOV_RESEND`. -/
def obdFlRecovResend : UInt32 := 0x00080000

/-- `OBD_BRW_FROM_GRANT`. -/
def obdBrwFromGrant : UInt32 := 0x20

/-- `OBD_BRW_GRANTED`. -/
def obdBrwGranted : UInt32 := 0x40

/-- `COMPAT_BSIZE_SHIFT`. -/
def compatBsizeShift : Int32 := 12

/-- `OST_MAX_PRECREATE`. -/
def ostMaxPrecreate : Int32 := 20000

/-- `ENOSPC`. -/
def enospc : Int64 := 28

/-- The grant fields of `struct obdo`, as the client sent them. -/
structure Obdo where
  /-- `o_valid`. -/
  oValid : UInt64
  /-- `o_grant`. -/
  oGrant : UInt64
  /-- `o_dirty` (`o_blocks`). -/
  oDirty : UInt64
  /-- `o_dropped` (`o_misc`). -/
  oDropped : UInt32
  /-- `o_undirty` (`o_mode`). -/
  oUndirty : UInt32
  /-- `o_grant_used` (`o_data_version`). -/
  oGrantUsed : UInt64
  /-- `o_flags`. -/
  oFlags : UInt32
  deriving DecidableEq, Repr

/-- `struct niobuf_remote`. -/
structure NiobufRemote where
  /-- `rnb_offset`. -/
  rnbOffset : UInt64
  /-- `rnb_len`. -/
  rnbLen : UInt32
  /-- `rnb_flags`. -/
  rnbFlags : UInt32
  deriving DecidableEq, Repr

/-- The grant fields of `struct obd_connect_data`. -/
structure ObdConnectData where
  /-- `OBD_CONNECT_RDONLY`. -/
  rdonly : Bool
  /-- `OBD_CONNECT_GRANT`. -/
  grant : Bool
  /-- `OBD_CONNECT_GRANT_PARAM`. -/
  grantParam : Bool
  /-- `ocd_grant`. -/
  ocdGrant : UInt32
  deriving DecidableEq, Repr

/-- The `statfs` numbers the OSD returns. -/
structure ObdStatfs where
  /-- `os_blocks`. -/
  osBlocks : UInt64
  /-- `os_bavail`. -/
  osBavail : UInt64
  deriving DecidableEq, Repr

/-! ## The device and its exports -/

/-- `struct filter_export_data`. -/
structure FilterExportData where
  /-- `fed_grant`. -/
  fedGrant : Int64
  /-- `fed_pending`. -/
  fedPending : Int64
  /-- `fed_dirty`. -/
  fedDirty : Int64
  deriving DecidableEq, Repr

/-- The fields of `struct obd_export` the grant code reads. -/
structure ObdExport where
  /-- `exp_filter_data`. -/
  fed : FilterExportData
  /-- `OBD_CONNECT_GRANT_PARAM` in `exp_connect_flags`. -/
  grantParam : Bool
  /-- `exp_max_brw_size(exp)`. -/
  maxBrwSize : Int32
  /-- `obd_self_export == exp`. -/
  isSelf : Bool
  /-- `exp_failed`. -/
  failed : Bool
  deriving DecidableEq, Repr

/-- The fields of `struct ofd_device` the grant code reads and writes. -/
structure OfdDevice where
  /-- `ofd_tot_granted`. -/
  ofdTotGranted : UInt64
  /-- `ofd_tot_pending`. -/
  ofdTotPending : UInt64
  /-- `ofd_tot_dirty`. -/
  ofdTotDirty : UInt64
  /-- `ofd_tot_granted_clients`. -/
  ofdTotGrantedClients : Int32
  /-- `ofd_blockbits`. -/
  ofdBlockbits : Int32
  /-- `ofd_dt_conf.ddp_max_extent_blks`. -/
  ddpMaxExtentBlks : UInt32
  /-- `ofd_dt_conf.ddp_extent_tax`. -/
  ddpExtentTax : UInt32
  /-- `ofd_dt_conf.ddp_inodespace`. -/
  ddpInodespace : Int16
  /-- `ofd_grant_compat_disable`. -/
  ofdGrantCompatDisable : Bool
  /-- `obd_recovering`. -/
  obdRecovering : Bool
  deriving DecidableEq, Repr

/-- An `int` where C converts it to `u64` (sign extension). -/
def intToU64 (x : Int32) : UInt64 := x.toInt64.toUInt64

/-- A `u64` stored into an `int` (truncation). -/
def u64ToInt (x : UInt64) : Int32 := x.toUInt32.toInt32

/-! ## Helpers -/

/-- `ofd_grant_param_supp`. -/
def ofdGrantParamSupp (exp : ObdExport) : Bool := exp.grantParam

/-- `ofd_grant_prohibit`. -/
def ofdGrantProhibit (exp : ObdExport) (ofd : OfdDevice) : Bool :=
  !exp.isSelf && !ofdGrantParamSupp exp && ofd.ofdGrantCompatDisable

/-- `ofd_grant_inflate`. -/
def ofdGrantInflate (ofd : OfdDevice) (val : UInt64) : UInt64 :=
  if ofd.ofdBlockbits > compatBsizeShift then
    val <<< intToU64 (ofd.ofdBlockbits - compatBsizeShift)
  else val <<< 1

/-- `ofd_grant_deflate`. -/
def ofdGrantDeflate (ofd : OfdDevice) (val : UInt64) : UInt64 :=
  if ofd.ofdBlockbits > compatBsizeShift then
    val >>> intToU64 (ofd.ofdBlockbits - compatBsizeShift)
  else val >>> 1

/-- `OST_MAX_PRECREATE * ofd->ofd_dt_conf.ddp_inodespace / 2`, in `int`. -/
def precreateSpace (ofd : OfdDevice) : Int32 :=
  ostMaxPrecreate * ofd.ddpInodespace.toInt32 / 2

/-- `ofd_grant_chunk(exp, ofd, data)`; `connectParam` is
`OCD_HAS_FLAG(data, GRANT_PARAM)` when `data` is given. -/
def ofdGrantChunk (exp : ObdExport) (ofd : OfdDevice) (connectParam : Option Bool) : UInt64 :=
  let chunk := intToU64 exp.maxBrwSize
  if exp.isSelf then intToU64 (precreateSpace ofd)
  else if (connectParam.isNone && !ofdGrantParamSupp exp) || connectParam = some false then
    ofdGrantInflate ofd chunk
  else
    -- two full-size RPCs with their extent tax
    let tax := (1 <<< intToU64 ofd.ofdBlockbits) * ofd.ddpMaxExtentBlks.toUInt64
    let tax := (chunk + tax - 1) / tax
    let tax := tax * ofd.ddpExtentTax.toUInt64
    (chunk + tax) * 2

/-- `ofd_grant_space_left`: the available space of the last `statfs`, less
what is granted, aligned down to a block. -/
def ofdGrantSpaceLeft (ofd : OfdDevice) (osfs : ObdStatfs) : UInt64 :=
  let left := osfs.osBavail <<< intToU64 ofd.ofdBlockbits
  if left < ofd.ofdTotGranted then 0
  else (left - ofd.ofdTotGranted) &&& ~~~((1 <<< intToU64 ofd.ofdBlockbits) - 1)

/-- `OFD_GRANT_SHRINK_LIMIT(exp)`. -/
def ofdGrantShrinkLimit (exp : ObdExport) : UInt64 :=
  2 * 8 * intToU64 exp.maxBrwSize

/-- `ofd_grant_rnb_size(exp, ofd, rnb)`; `exp` is `none` for the server's own
estimate. -/
def ofdGrantRnbSize (exp : Option ObdExport) (ofd : OfdDevice) (rnb : NiobufRemote) : UInt64 :=
  let compat := match exp with
    | some exp => !ofdGrantParamSupp exp
    | none => false
  let blksize : UInt64 :=
    if compat && ofd.ofdBlockbits > compatBsizeShift then 1 <<< intToU64 compatBsizeShift
    else 1 <<< intToU64 ofd.ofdBlockbits
  -- align the buffer on block boundaries
  let bytes := (rnb.rnbOffset &&& (blksize - 1)) + rnb.rnbLen.toUInt64
  let tail := bytes &&& (blksize - 1)
  let bytes := if tail ≠ 0 then bytes + (blksize - tail) else bytes
  if !compat then
    -- per-extent insertion cost
    let maxExt := blksize * ofd.ddpMaxExtentBlks.toUInt64
    let nrExt := u64ToInt ((bytes + maxExt - 1) / maxExt)
    -- `nr_ext * ddp_extent_tax` is an `unsigned int` product
    bytes + (nrExt.toUInt32 * ofd.ddpExtentTax).toUInt64
  else ofdGrantInflate ofd bytes

/-! ## Incoming announcements and shrinking -/

/-- The incoming `obdo` once `ofd_grant_incoming` has clamped a negative
`o_dirty` and inflated the counters of a client without the grant
parameters. -/
def incomingObdo (ofd : OfdDevice) (exp : ObdExport) (oa : Obdo) : Obdo :=
  let oa := if oa.oDirty.toInt64 < 0 then { oa with oDirty := 0 } else oa
  if !ofdGrantParamSupp exp then
    { oa with
      oGrant := ofdGrantInflate ofd oa.oGrant
      oDirty := ofdGrantInflate ofd oa.oDirty
      oDropped := (ofdGrantInflate ofd oa.oDropped.toUInt64).toUInt32
      oUndirty := (ofdGrantInflate ofd oa.oUndirty.toUInt64).toUInt32 }
  else oa

/-- The dirty space `ofd_grant_incoming` accepts: at most the grant plus four
chunks. -/
def acceptedDirty (fed : FilterExportData) (oa : Obdo) (chunk : Int64) : Int64 :=
  let dirty := oa.oDirty.toInt64
  if dirty > fed.fedGrant + 4 * chunk then fed.fedGrant + 4 * chunk else dirty

/-- The dropped grant `ofd_grant_incoming` accepts: none if it exceeds the
export's grant or the total. -/
def acceptedDropped (ofd : OfdDevice) (fed : FilterExportData) (oa : Obdo) : Int64 :=
  let dropped : Int64 := oa.oDropped.toUInt64.toInt64
  let dropped := if fed.fedGrant < dropped then 0 else dropped
  if ofd.ofdTotGranted < dropped.toUInt64 then 0 else dropped

/-- A share is negative: the condition of the `LBUG`s of the grant code. -/
def FilterExportData.hasNegative (fed : FilterExportData) : Bool :=
  fed.fedDirty < 0 || fed.fedGrant < 0 || fed.fedPending < 0

/-- `ofd_grant_incoming`: the client's announcements of dirty and dropped
grant; `none` is the `LBUG` on a negative share. -/
def ofdGrantIncoming (ofd : OfdDevice) (exp : ObdExport) (oa : Obdo) (chunk : Int64) :
    Option (OfdDevice × ObdExport × Obdo) :=
  if oa.oValid &&& (obdMdFlblocks ||| obdMdFlgrant) ≠ obdMdFlblocks ||| obdMdFlgrant then
    some (ofd, exp, { oa with oValid := oa.oValid &&& ~~~obdMdFlgrant })
  else
    let fed := exp.fed
    let oa := incomingObdo ofd exp oa
    let dirty := acceptedDirty fed oa chunk
    let dropped := acceptedDropped ofd fed oa
    let fed' := { fed with fedGrant := fed.fedGrant - dropped, fedDirty := dirty }
    if fed'.hasNegative then none
    else
      some ({ ofd with
          ofdTotDirty := ofd.ofdTotDirty + (dirty - fed.fedDirty).toUInt64
          ofdTotGranted := ofd.ofdTotGranted - dropped.toUInt64 },
        { exp with fed := fed' }, oa)

/-- `ofd_grant_shrink`: when ungranted space runs short, take back the
`o_grant` the client offers. -/
def ofdGrantShrink (ofd : OfdDevice) (exp : ObdExport) (oa : Obdo) (leftSpace : UInt64) :
    OfdDevice × ObdExport × Obdo :=
  if leftSpace ≥ intToU64 ofd.ofdTotGrantedClients * ofdGrantShrinkLimit exp then (ofd, exp, oa)
  else
    let grantShrink : Int64 := oa.oGrant.toInt64
    ({ ofd with ofdTotGranted := ofd.ofdTotGranted - grantShrink.toUInt64 },
      { exp with fed := { exp.fed with fedGrant := exp.fed.fedGrant - grantShrink } },
      -- client has just released some grant, don't grant any space back
      { oa with oGrant := 0 })

/-! ## Checking and allocating grant for a write -/

/-- The loop of `ofd_grant_check` over the network buffers, threading
`granted`, `ungranted` and `*left`.  A buffer written from the client's
grant is charged to it; any other is charged to the ungranted space if there
is room, and loses `OBD_BRW_GRANTED` otherwise. -/
def grantCheckLoop (ofd : OfdDevice) (exp : ObdExport) (skip : Bool) :
    List NiobufRemote → UInt64 → UInt64 → UInt64 →
      List NiobufRemote × UInt64 × UInt64 × UInt64
  | [], granted, ungranted, left => ([], granted, ungranted, left)
  | rnb :: rest, granted, ungranted, left =>
    let fromGrant := rnb.rnbFlags &&& obdBrwFromGrant ≠ 0
    let markGranted := { rnb with rnbFlags := rnb.rnbFlags ||| obdBrwGranted }
    let continueWith (rnb : NiobufRemote) (granted ungranted left : UInt64) :=
      let (rest, granted, ungranted, left) :=
        grantCheckLoop ofd exp skip rest granted ungranted left
      (rnb :: rest, granted, ungranted, left)
    if fromGrant ∧ skip then continueWith markGranted granted ungranted left
    else
      let bytes := u64ToInt (ofdGrantRnbSize (some exp) ofd rnb)
      if fromGrant ∧ exp.fed.fedGrant.toUInt64 ≥ granted + intToU64 bytes then
        continueWith markGranted (granted + intToU64 bytes) ungranted left
      else
        -- the server's own estimate, not inflated
        let bytes := u64ToInt (ofdGrantRnbSize none ofd rnb)
        if left > intToU64 bytes then
          continueWith markGranted granted (ungranted + intToU64 bytes) (left - intToU64 bytes)
        else
          continueWith { rnb with rnbFlags := rnb.rnbFlags &&& ~~~obdBrwGranted }
            granted ungranted left

/-- The start of `ofd_grant_check`: whether the loop may skip the accounting
of buffers written from grant, and the starting `granted`, `ungranted` and
`*left`.  Replayed writes and recoverable resends skip it, and so does a
client with the grant parameters that says how much grant it used. -/
def grantCheckPrelude (ofd : OfdDevice) (exp : ObdExport) (oa : Obdo) (left : UInt64) :
    Bool × UInt64 × UInt64 × UInt64 :=
  let fed := exp.fed
  if ofd.obdRecovering then (true, 0, 0, left)
  else if oa.oValid &&& obdMdFlflags ≠ 0 ∧ oa.oFlags &&& obdFlRecovResend ≠ 0 then
    (true, 0, 0, left)
  else if ofdGrantParamSupp exp ∧ oa.oGrantUsed > 0 then
    if fed.fedGrant.toUInt64 ≥ oa.oGrantUsed then (true, oa.oGrantUsed, 0, left)
    -- the client used more grant than it owns: fill the gap from unallocated space
    else if left > oa.oGrantUsed - fed.fedGrant.toUInt64 then
      (true, fed.fedGrant.toUInt64, oa.oGrantUsed - fed.fedGrant.toUInt64,
        left - (oa.oGrantUsed - fed.fedGrant.toUInt64))
    else (false, 0, 0, left)
  else (false, 0, 0, left)

/-- `ofd_grant_check`: the buffers with their flags, the new `*left`, and
`o_grant_used`, the space reserved for the I/O that `ofd_grant_commit`
releases; `none` is the `LBUG` on a negative share. -/
def ofdGrantCheck (ofd : OfdDevice) (exp : ObdExport) (oa : Obdo) (rnbs : List NiobufRemote)
    (left : UInt64) : Option (OfdDevice × ObdExport × Obdo × List NiobufRemote × UInt64) :=
  let fed := exp.fed
  let (skip, granted, ungranted, left) := grantCheckPrelude ofd exp oa left
  let (rnbs, granted, ungranted, left) := grantCheckLoop ofd exp skip rnbs granted ungranted left
  let used := granted + ungranted
  let oa := { oa with oGrantUsed := used }
  let fed := { fed with
    fedGrant := fed.fedGrant - granted.toInt64
    fedPending := fed.fedPending + used.toInt64 }
  let ofd := { ofd with
    ofdTotGranted := ofd.ofdTotGranted + ungranted
    ofdTotPending := ofd.ofdTotPending + used }
  -- no dirty accounting during recovery or when grant information was discarded
  if ofd.obdRecovering ∨ oa.oValid &&& obdMdFlgrant = 0 then
    some (ofd, { exp with fed := fed }, oa, rnbs, left)
  else
    let granted := if fed.fedDirty.toUInt64 < granted then fed.fedDirty.toUInt64 else granted
    let fed := { fed with fedDirty := fed.fedDirty - granted.toInt64 }
    if fed.hasNegative then none
    else
      some ({ ofd with ofdTotDirty := ofd.ofdTotDirty - granted }, { exp with fed := fed }, oa,
        rnbs, left)

/-- `ofd_grant_alloc`: the grant given to the client (a `long`); `none` is
the `LBUG` on a negative share. -/
def ofdGrantAlloc (ofd : OfdDevice) (exp : ObdExport) (curgrant want left : UInt64)
    (chunk : Int64) (conservative : Bool) : Option (OfdDevice × ObdExport × Int64) :=
  let fed := exp.fed
  if ofdGrantProhibit exp ofd ∨ left = 0 ∨ exp.failed then some (ofd, exp, 0)
  else if want > 0x7fffffff then some (ofd, exp, 0)
  -- a large disparity between what the client thinks it has and what we think
  else if curgrant ≥ want ∨ curgrant ≥ (fed.fedGrant + chunk).toUInt64 then some (ofd, exp, 0)
  else
    let conservative := conservative && !ofd.obdRecovering
    let left := if conservative then left >>> 3 else left
    let grant := min (want - curgrant) left
    -- round up to the block size; `1 << ofd->ofd_blockbits` is an `int`
    let grant := (grant + intToU64 ((1 : Int32) <<< ofd.ofdBlockbits) - 1) &&&
      ~~~(((1 : UInt64) <<< intToU64 ofd.ofdBlockbits) - 1)
    if grant = 0 then some (ofd, exp, 0)
    else
      let grant := if grant > chunk.toUInt64 ∧ conservative then chunk.toUInt64 else grant
      let fed := { fed with fedGrant := fed.fedGrant + grant.toInt64 }
      if fed.fedGrant < 0 then none
      else some ({ ofd with ofdTotGranted := ofd.ofdTotGranted + grant },
        { exp with fed := fed }, grant.toInt64)

/-! ## The entry points -/

/-- `ofd_grant_connect`: initial grant on connection and resynchronisation
on reconnection.  `osfs` is the `statfs` of the last refresh. -/
def ofdGrantConnect (ofd : OfdDevice) (exp : ObdExport) (data : ObdConnectData)
    (newConn : Bool) (osfs : ObdStatfs) : Option (OfdDevice × ObdExport) :=
  -- don't grant space to a client with read-only access
  if data.rdonly ∨ (!data.grantParam ∧ ofd.ofdGrantCompatDisable) then some (ofd, exp)
  else
    let want :=
      if data.grantParam then data.ocdGrant.toUInt64
      else ofdGrantInflate ofd data.ocdGrant.toUInt64
    let chunk : Int64 := (ofdGrantChunk exp ofd (some data.grantParam)).toInt64
    let left := ofdGrantSpaceLeft ofd osfs
    (ofdGrantAlloc ofd exp exp.fed.fedGrant.toUInt64 want left chunk newConn).map
      fun (ofd, exp, _) =>
        -- reset dirty accounting
        ({ ofd with
            ofdTotDirty := ofd.ofdTotDirty - exp.fed.fedDirty.toUInt64
            ofdTotGrantedClients :=
              if newConn ∧ data.grant then ofd.ofdTotGrantedClients + 1
              else ofd.ofdTotGrantedClients },
          { exp with fed := { exp.fed with fedDirty := 0 } })

/-- `ofd_grant_discard`: release the grant and dirty space of an export
that goes away; its pending space is released at commit.  `none` is a failed
`LASSERTF`. -/
def ofdGrantDiscard (ofd : OfdDevice) (exp : ObdExport) : Option (OfdDevice × ObdExport) :=
  let fed := exp.fed
  if ofd.ofdTotGranted < fed.fedGrant.toUInt64 then none
  else if ofd.ofdTotPending < fed.fedPending.toUInt64 then none
  else if ofd.ofdTotDirty < fed.fedDirty.toUInt64 then none
  else
    some ({ ofd with
        ofdTotGranted := ofd.ofdTotGranted - fed.fedGrant.toUInt64
        ofdTotDirty := ofd.ofdTotDirty - fed.fedDirty.toUInt64 },
      { exp with fed := { fed with fedGrant := 0, fedDirty := 0 } })

/-- Whether the client asks to shrink its grant. -/
def Obdo.shrinkRequested (oa : Obdo) : Bool :=
  oa.oValid &&& obdMdFlflags ≠ 0 && oa.oFlags &&& obdFlShrinkGrant ≠ 0

/-- `ofd_grant_prepare_read`: grant announcements on a read, and a shrink
request if the client packed one. -/
def ofdGrantPrepareRead (ofd : OfdDevice) (exp : ObdExport) (oa : Obdo) (osfs : ObdStatfs) :
    Option (OfdDevice × ObdExport × Obdo) :=
  if oa.oValid &&& obdMdFlgrant = 0 then some (ofd, exp, oa)
  else
    let left := if oa.shrinkRequested then ofdGrantSpaceLeft ofd osfs else 0
    (ofdGrantIncoming ofd exp oa (ofdGrantChunk exp ofd none).toInt64).map
      fun (ofd, exp, oa) =>
        let (ofd, exp, oa) :=
          if oa.shrinkRequested then ofdGrantShrink ofd exp oa left
          else (ofd, exp, { oa with oGrant := 0 })
        (ofd, exp,
          if !ofdGrantParamSupp exp then { oa with oGrant := ofdGrantDeflate ofd oa.oGrant }
          else oa)

/-- `ofd_grant_prepare_write`: grant announcements, the check of every
buffer, and a shrink or more grant.  `o_grant_used` of the returned `obdo`
is what `ofd_grant_commit` must release. -/
def ofdGrantPrepareWrite (ofd : OfdDevice) (exp : ObdExport) (oa : Obdo)
    (rnbs : List NiobufRemote) (osfs : ObdStatfs) :
    Option (OfdDevice × ObdExport × Obdo × List NiobufRemote) :=
  let chunk : Int64 := (ofdGrantChunk exp ofd none).toInt64
  let left := ofdGrantSpaceLeft ofd osfs
  (ofdGrantIncoming ofd exp oa chunk).bind fun (ofd, exp, oa) =>
  (ofdGrantCheck ofd exp oa rnbs left).bind fun (ofd, exp, oa, rnbs, left) =>
    if oa.oValid &&& obdMdFlgrant = 0 then some (ofd, exp, oa, rnbs)
    else
      let replied : Option (OfdDevice × ObdExport × Obdo) :=
        if oa.shrinkRequested then some (ofdGrantShrink ofd exp oa left)
        else
          -- grant more space back to the client if possible
          (ofdGrantAlloc ofd exp oa.oGrant oa.oUndirty.toUInt64 left chunk true).map
            fun (ofd, exp, grant) => (ofd, exp, { oa with oGrant := grant.toUInt64 })
      replied.map fun (ofd, exp, oa) =>
        (ofd, exp,
          if !ofdGrantParamSupp exp then { oa with oGrant := ofdGrantDeflate ofd oa.oGrant }
          else oa,
          rnbs)

/-- The charge of `ofd_grant_create` for `wanted` bytes of precreation:
from the export's grant if it has enough, otherwise all of its grant and
the rest from the ungranted pool; the space becomes pending.  The result is
the device, the export's shares and the new `left`. -/
def createCharge (ofd : OfdDevice) (fed : FilterExportData) (left wanted : UInt64) :
    OfdDevice × FilterExportData × UInt64 :=
  let (ofd, fed, left) :=
    if wanted ≤ fed.fedGrant.toUInt64 then
      (ofd, { fed with fedGrant := fed.fedGrant - wanted.toInt64 }, left)
    else
      ({ ofd with ofdTotGranted := ofd.ofdTotGranted + (wanted - fed.fedGrant.toUInt64) },
        { fed with fedGrant := 0 }, left - (wanted - fed.fedGrant.toUInt64))
  ({ ofd with ofdTotPending := ofd.ofdTotPending + wanted },
    { fed with fedPending := fed.fedPending + wanted.toInt64 }, left)

/-- The end of `ofd_grant_create`: book enough grant for a large precreate
request if possible. -/
def createMore (ofd : OfdDevice) (exp : ObdExport) (left : UInt64) :
    Option (OfdDevice × ObdExport) :=
  let wanted := intToU64 (precreateSpace ofd)
  if wanted > exp.fed.fedGrant.toUInt64 then
    (ofdGrantAlloc ofd exp exp.fed.fedGrant.toUInt64 (wanted - exp.fed.fedGrant.toUInt64) left
      (ofdGrantChunk exp ofd none).toInt64 false).map fun (ofd, exp, _) => (ofd, exp)
  else some (ofd, exp)

/-- `ofd_grant_create`: grant space for precreating `nr` objects, taken
from the export's grant and then from ungranted space; the result is the
space granted (or `-ENOSPC`) and the new `*nr`.  `none` is a failed
`LASSERT`. -/
def ofdGrantCreate (ofd : OfdDevice) (exp : ObdExport) (nr : Int32) (osfs : ObdStatfs) :
    Option (OfdDevice × ObdExport × Int64 × Int32) :=
  if ofd.obdRecovering ∨ ofd.ddpInodespace = 0 then some (ofd, exp, 0, nr)
  else
    let fed := exp.fed
    let inodespace : Int32 := ofd.ddpInodespace.toInt32
    if osfs.osBavail - (fed.fedGrant >>> ofd.ofdBlockbits.toInt64).toUInt64 <
        osfs.osBlocks >>> 10 then
      some (ofd, exp, -enospc, nr)
    else
      let left := ofdGrantSpaceLeft ofd osfs
      let wanted := intToU64 (nr * inodespace)
      -- beyond what remains: precreate fewer objects
      let adjusted : Option (UInt64 × Int32) :=
        if wanted > fed.fedGrant.toUInt64 + left then
          let nr := u64ToInt ((fed.fedGrant.toUInt64 + left) / intToU64 inodespace)
          if nr = 0 then none else some (intToU64 (nr * inodespace), nr)
        else some (wanted, nr)
      match adjusted with
      | none => some (ofd, exp, -enospc, 0)
      | some (wanted, nr) =>
        if wanted > fed.fedGrant.toUInt64 + left then none
        else
          let (ofd, fed, left) := createCharge ofd fed left wanted
          (createMore ofd { exp with fed := fed } left).map fun (ofd, exp) =>
            (ofd, exp, wanted.toInt64, nr)

/-- `ofd_grant_commit`: release the `pending` space of a write once it is on
disk.  `none` is an `LBUG`. -/
def ofdGrantCommit (ofd : OfdDevice) (exp : ObdExport) (pending : UInt64) :
    Option (OfdDevice × ObdExport) :=
  if pending = 0 then some (ofd, exp)
  else if exp.fed.fedPending.toUInt64 < pending then none
  else if ofd.ofdTotGranted < pending then none
  else if ofd.ofdTotPending < pending then none
  else
    some ({ ofd with
        ofdTotGranted := ofd.ofdTotGranted - pending
        ofdTotPending := ofd.ofdTotPending - pending },
      { exp with fed := { exp.fed with fedPending := exp.fed.fedPending - pending.toInt64 } })

/-! ## Runs over all exports -/

/-- The device and every export it has known, connected or already
unlinked; `ι` names the exports. -/
structure GrantSystem (ι : Type) where
  /-- The device. -/
  ofd : OfdDevice
  /-- The exports. -/
  exports : ι → ObdExport

/-- The grant operations, each on one export, with what the client sent
and what `statfs` returned. -/
inductive GrantEvent (ι : Type)
  /-- `ofd_grant_connect`. -/
  | connect (i : ι) (data : ObdConnectData) (newConn : Bool) (osfs : ObdStatfs)
  /-- `ofd_grant_prepare_read`. -/
  | prepareRead (i : ι) (oa : Obdo) (osfs : ObdStatfs)
  /-- `ofd_grant_prepare_write`. -/
  | prepareWrite (i : ι) (oa : Obdo) (rnbs : List NiobufRemote) (osfs : ObdStatfs)
  /-- `ofd_grant_create`. -/
  | create (i : ι) (nr : Int32) (osfs : ObdStatfs)
  /-- `ofd_grant_commit`. -/
  | commit (i : ι) (pending : UInt64)
  /-- `ofd_grant_discard`. -/
  | discard (i : ι)

section Events

variable {ι : Type} [DecidableEq ι]

/-- Store the result of an operation on export `i`. -/
def GrantSystem.set (sys : GrantSystem ι) (i : ι) (ofd : OfdDevice) (exp : ObdExport) :
    GrantSystem ι :=
  { ofd := ofd, exports := Function.update sys.exports i exp }

/-- One operation; `none` is an `LBUG` or a failed assertion, and stays. -/
def GrantEvent.apply : Option (GrantSystem ι) → GrantEvent ι → Option (GrantSystem ι)
  | none, _ => none
  | some sys, .connect i data newConn osfs =>
    (ofdGrantConnect sys.ofd (sys.exports i) data newConn osfs).map
      fun (ofd, exp) => sys.set i ofd exp
  | some sys, .prepareRead i oa osfs =>
    (ofdGrantPrepareRead sys.ofd (sys.exports i) oa osfs).map
      fun (ofd, exp, _) => sys.set i ofd exp
  | some sys, .prepareWrite i oa rnbs osfs =>
    (ofdGrantPrepareWrite sys.ofd (sys.exports i) oa rnbs osfs).map
      fun (ofd, exp, _) => sys.set i ofd exp
  | some sys, .create i nr osfs =>
    (ofdGrantCreate sys.ofd (sys.exports i) nr osfs).map
      fun (ofd, exp, _) => sys.set i ofd exp
  | some sys, .commit i pending =>
    (ofdGrantCommit sys.ofd (sys.exports i) pending).map fun (ofd, exp) => sys.set i ofd exp
  | some sys, .discard i =>
    (ofdGrantDiscard sys.ofd (sys.exports i)).map fun (ofd, exp) => sys.set i ofd exp

end Events

/-- The sums of `ofd_grant_sanity_check`, added up in `u64` as it does. -/
def GrantSystem.SumsAgree {ι : Type} [Fintype ι] (sys : GrantSystem ι) : Prop :=
  sys.ofd.ofdTotGranted =
      ∑ i, ((sys.exports i).fed.fedGrant + (sys.exports i).fed.fedPending).toUInt64 ∧
    sys.ofd.ofdTotPending = ∑ i, (sys.exports i).fed.fedPending.toUInt64 ∧
    sys.ofd.ofdTotDirty = ∑ i, (sys.exports i).fed.fedDirty.toUInt64

/-- No share is negative, as `ofd_grant_sanity_check` requires. -/
def GrantSystem.SharesNonneg {ι : Type} (sys : GrantSystem ι) : Prop :=
  ∀ i, 0 ≤ (sys.exports i).fed.fedGrant ∧ 0 ≤ (sys.exports i).fed.fedPending ∧
    0 ≤ (sys.exports i).fed.fedDirty

/-! ## The sums are kept

Every operation moves one amount into a total and the same amount into the
shares of the export it works on.  `Balanced` says so for one operation;
balanced operations compose, and a balanced change of one export keeps the
sums of `ofd_grant_sanity_check`. -/

@[simp] theorem zero_toUInt64 : (0 : Int64).toUInt64 = 0 := rfl

@[simp] theorem one_toUInt64 : (1 : Int64).toUInt64 = 1 := rfl

/-- An operation moved the same amounts into the totals as into the shares
of the export it changed, in `u64`. -/
structure Balanced (ofd ofd' : OfdDevice) (fed fed' : FilterExportData) : Prop where
  granted : ofd'.ofdTotGranted - ofd.ofdTotGranted =
    (fed'.fedGrant + fed'.fedPending).toUInt64 - (fed.fedGrant + fed.fedPending).toUInt64
  pending : ofd'.ofdTotPending - ofd.ofdTotPending =
    fed'.fedPending.toUInt64 - fed.fedPending.toUInt64
  dirty : ofd'.ofdTotDirty - ofd.ofdTotDirty = fed'.fedDirty.toUInt64 - fed.fedDirty.toUInt64

theorem Balanced.refl (ofd : OfdDevice) (fed : FilterExportData) : Balanced ofd ofd fed fed :=
  ⟨by simp, by simp, by simp⟩

theorem Balanced.trans {ofd ofd' ofd'' : OfdDevice} {fed fed' fed'' : FilterExportData}
    (first : Balanced ofd ofd' fed fed') (second : Balanced ofd' ofd'' fed' fed'') :
    Balanced ofd ofd'' fed fed'' where
  granted := by
    have total := congrArg₂ (· + ·) first.granted second.granted
    rw [← sub_add_sub_cancel, add_comm, total, add_comm, sub_add_sub_cancel]
  pending := by
    have total := congrArg₂ (· + ·) first.pending second.pending
    rw [← sub_add_sub_cancel, add_comm, total, add_comm, sub_add_sub_cancel]
  dirty := by
    have total := congrArg₂ (· + ·) first.dirty second.dirty
    rw [← sub_add_sub_cancel, add_comm, total, add_comm, sub_add_sub_cancel]

theorem ofdGrantIncoming_balanced {ofd ofd' : OfdDevice} {exp exp' : ObdExport}
    {oa oa' : Obdo} {chunk : Int64}
    (done : ofdGrantIncoming ofd exp oa chunk = some (ofd', exp', oa')) :
    Balanced ofd ofd' exp.fed exp'.fed := by
  unfold ofdGrantIncoming at done
  dsimp only at done
  split_ifs at done
  · cases done
    exact Balanced.refl _ _
  · simp only [Option.some.injEq, Prod.mk.injEq] at done
    obtain ⟨rfl, rfl, -⟩ := done
    constructor <;> simp [Int64.toUInt64_add, Int64.toUInt64_sub]

theorem ofdGrantShrink_balanced (ofd : OfdDevice) (exp : ObdExport) (oa : Obdo)
    (leftSpace : UInt64) :
    Balanced ofd (ofdGrantShrink ofd exp oa leftSpace).1 exp.fed
      (ofdGrantShrink ofd exp oa leftSpace).2.1.fed := by
  unfold ofdGrantShrink
  split_ifs
  · exact Balanced.refl _ _
  · constructor <;> simp [Int64.toUInt64_add, Int64.toUInt64_sub]

theorem ofdGrantCheck_balanced {ofd ofd' : OfdDevice} {exp exp' : ObdExport} {oa oa' : Obdo}
    {rnbs rnbs' : List NiobufRemote} {left left' : UInt64}
    (done : ofdGrantCheck ofd exp oa rnbs left = some (ofd', exp', oa', rnbs', left')) :
    Balanced ofd ofd' exp.fed exp'.fed := by
  unfold ofdGrantCheck at done
  -- how much the loop charges does not matter, only that both sides get it
  generalize grantCheckPrelude ofd exp oa left = prelude at done
  obtain ⟨skip, granted, ungranted, left⟩ := prelude
  dsimp only at done
  generalize grantCheckLoop ofd exp skip rnbs granted ungranted left = loop at done
  obtain ⟨rnbs, granted, ungranted, left⟩ := loop
  dsimp only at done
  split_ifs at done <;> simp only [Option.some.injEq, Prod.mk.injEq] at done <;>
    obtain ⟨rfl, rfl, -⟩ := done <;>
    constructor <;> simp [Int64.toUInt64_add, Int64.toUInt64_sub] <;> grind

theorem ofdGrantAlloc_balanced {ofd ofd' : OfdDevice} {exp exp' : ObdExport}
    {curgrant want left : UInt64} {chunk grant : Int64} {conservative : Bool}
    (done : ofdGrantAlloc ofd exp curgrant want left chunk conservative = some (ofd', exp', grant)) :
    Balanced ofd ofd' exp.fed exp'.fed := by
  unfold ofdGrantAlloc at done
  dsimp only at done
  split_ifs at done <;> simp only [Option.some.injEq, Prod.mk.injEq] at done <;>
    obtain ⟨rfl, rfl, -⟩ := done
  all_goals first
    | exact Balanced.refl _ _
    | (constructor <;> simp [Int64.toUInt64_add, Int64.toUInt64_sub])

theorem ofdGrantConnect_balanced {ofd ofd' : OfdDevice} {exp exp' : ObdExport}
    {data : ObdConnectData} {newConn : Bool} {osfs : ObdStatfs}
    (done : ofdGrantConnect ofd exp data newConn osfs = some (ofd', exp')) :
    Balanced ofd ofd' exp.fed exp'.fed := by
  unfold ofdGrantConnect at done
  split at done
  · cases done
    exact Balanced.refl _ _
  · obtain ⟨⟨allocOfd, allocExp, grant⟩, allocated, reset⟩ := Option.map_eq_some_iff.mp done
    simp only [Prod.mk.injEq] at reset
    obtain ⟨rfl, rfl⟩ := reset
    -- the allocation, then the reset of the dirty accounting
    refine (ofdGrantAlloc_balanced allocated).trans ?_
    constructor <;> simp

theorem ofdGrantDiscard_balanced {ofd ofd' : OfdDevice} {exp exp' : ObdExport}
    (done : ofdGrantDiscard ofd exp = some (ofd', exp')) :
    Balanced ofd ofd' exp.fed exp'.fed := by
  unfold ofdGrantDiscard at done
  dsimp only at done
  split_ifs at done
  simp only [Option.some.injEq, Prod.mk.injEq] at done
  obtain ⟨rfl, rfl⟩ := done
  constructor <;> simp [Int64.toUInt64_add]

theorem ofdGrantCommit_balanced {ofd ofd' : OfdDevice} {exp exp' : ObdExport} {pending : UInt64}
    (done : ofdGrantCommit ofd exp pending = some (ofd', exp')) :
    Balanced ofd ofd' exp.fed exp'.fed := by
  unfold ofdGrantCommit at done
  split_ifs at done
  · cases done
    exact Balanced.refl _ _
  · simp only [Option.some.injEq, Prod.mk.injEq] at done
    obtain ⟨rfl, rfl⟩ := done
    constructor <;> simp [Int64.toUInt64_sub]

theorem ofdGrantPrepareRead_balanced {ofd ofd' : OfdDevice} {exp exp' : ObdExport}
    {oa oa' : Obdo} {osfs : ObdStatfs}
    (done : ofdGrantPrepareRead ofd exp oa osfs = some (ofd', exp', oa')) :
    Balanced ofd ofd' exp.fed exp'.fed := by
  unfold ofdGrantPrepareRead at done
  split at done
  · cases done
    exact Balanced.refl _ _
  · obtain ⟨⟨inOfd, inExp, inOa⟩, incoming, replied⟩ := Option.map_eq_some_iff.mp done
    refine (ofdGrantIncoming_balanced incoming).trans ?_
    -- a shrink, or nothing but the reply
    by_cases shrink : inOa.shrinkRequested = true
    · simp only [shrink, if_true, Prod.mk.injEq] at replied
      obtain ⟨rfl, rfl, -⟩ := replied
      exact ofdGrantShrink_balanced _ _ _ _
    · simp only [shrink, Bool.false_eq_true, if_false, Prod.mk.injEq] at replied
      obtain ⟨rfl, rfl, -⟩ := replied
      exact Balanced.refl _ _

theorem ofdGrantPrepareWrite_balanced {ofd ofd' : OfdDevice} {exp exp' : ObdExport}
    {oa oa' : Obdo} {rnbs rnbs' : List NiobufRemote} {osfs : ObdStatfs}
    (done : ofdGrantPrepareWrite ofd exp oa rnbs osfs = some (ofd', exp', oa', rnbs')) :
    Balanced ofd ofd' exp.fed exp'.fed := by
  unfold ofdGrantPrepareWrite at done
  obtain ⟨⟨inOfd, inExp, inOa⟩, incoming, checkedDone⟩ := Option.bind_eq_some_iff.mp done
  obtain ⟨⟨ckOfd, ckExp, ckOa, ckRnbs, ckLeft⟩, checked, replied⟩ :=
    Option.bind_eq_some_iff.mp checkedDone
  refine (ofdGrantIncoming_balanced incoming).trans ((ofdGrantCheck_balanced checked).trans ?_)
  dsimp only at replied
  split at replied
  · simp only [Option.some.injEq, Prod.mk.injEq] at replied
    obtain ⟨rfl, rfl, -⟩ := replied
    exact Balanced.refl _ _
  -- a shrink, or more grant
  by_cases shrink : ckOa.shrinkRequested = true
  · simp only [shrink, ↓reduceIte] at replied
    obtain ⟨_, shrunk, reply⟩ := Option.map_eq_some_iff.mp replied
    simp only [Option.some.injEq] at shrunk
    subst shrunk
    simp only [Prod.mk.injEq] at reply
    obtain ⟨rfl, rfl, -⟩ := reply
    exact ofdGrantShrink_balanced _ _ _ _
  · simp only [shrink, Bool.false_eq_true, ↓reduceIte] at replied
    obtain ⟨⟨alOfd, alExp, alOa⟩, allocated, reply⟩ := Option.map_eq_some_iff.mp replied
    obtain ⟨⟨grOfd, grExp, grant⟩, granted, answered⟩ := Option.map_eq_some_iff.mp allocated
    simp only [Prod.mk.injEq] at reply answered
    obtain ⟨rfl, rfl, -⟩ := answered
    obtain ⟨rfl, rfl, -⟩ := reply
    exact ofdGrantAlloc_balanced granted

theorem createCharge_balanced (ofd : OfdDevice) (fed : FilterExportData)
    (left wanted : UInt64) :
    Balanced ofd (createCharge ofd fed left wanted).1 fed
      (createCharge ofd fed left wanted).2.1 := by
  unfold createCharge
  split_ifs <;> constructor <;> simp [Int64.toUInt64_add, Int64.toUInt64_sub]
  grind

theorem createMore_balanced {ofd ofd' : OfdDevice} {exp exp' : ObdExport} {left : UInt64}
    (done : createMore ofd exp left = some (ofd', exp')) :
    Balanced ofd ofd' exp.fed exp'.fed := by
  unfold createMore at done
  dsimp only at done
  split at done
  · obtain ⟨⟨alOfd, alExp, grant⟩, allocated, answered⟩ := Option.map_eq_some_iff.mp done
    simp only [Prod.mk.injEq] at answered
    obtain ⟨rfl, rfl⟩ := answered
    exact ofdGrantAlloc_balanced allocated
  · cases done
    exact Balanced.refl _ _

theorem ofdGrantCreate_balanced {ofd ofd' : OfdDevice} {exp exp' : ObdExport}
    {nr nr' : Int32} {osfs : ObdStatfs} {granted : Int64}
    (done : ofdGrantCreate ofd exp nr osfs = some (ofd', exp', granted, nr')) :
    Balanced ofd ofd' exp.fed exp'.fed := by
  unfold ofdGrantCreate at done
  split at done
  · cases done
    exact Balanced.refl _ _
  dsimp only at done
  split at done
  · cases done
    exact Balanced.refl _ _
  split at done
  · cases done
    exact Balanced.refl _ _
  split at done
  · cases done
  -- the charge, then more grant for the next precreation
  obtain ⟨⟨moreOfd, moreExp⟩, more, answered⟩ := Option.map_eq_some_iff.mp done
  simp only [Prod.mk.injEq] at answered
  obtain ⟨rfl, rfl, -⟩ := answered
  exact (createCharge_balanced _ _ _ _).trans (createMore_balanced more)

section Sums

variable {ι : Type} [Fintype ι] [DecidableEq ι]

/-- A balanced change of one export keeps the sums. -/
theorem GrantSystem.SumsAgree.set {sys : GrantSystem ι} {i : ι} {ofd : OfdDevice}
    {exp : ObdExport} (agree : sys.SumsAgree)
    (balanced : Balanced sys.ofd ofd (sys.exports i).fed exp.fed) :
    (sys.set i ofd exp).SumsAgree := by
  obtain ⟨granted, pending, dirty⟩ := agree
  exact ⟨Ledger.total_eq_sum_update (fun (e : ObdExport) => (e.fed.fedGrant + e.fed.fedPending).toUInt64)
      granted balanced.granted,
    Ledger.total_eq_sum_update (fun (e : ObdExport) => e.fed.fedPending.toUInt64) pending balanced.pending,
    Ledger.total_eq_sum_update (fun (e : ObdExport) => e.fed.fedDirty.toUInt64) dirty balanced.dirty⟩

/-- The sums agree, or an assertion has stopped the server. -/
def GrantSumsAgree : Option (GrantSystem ι) → Prop
  | none => True
  | some sys => sys.SumsAgree

/-- Every operation keeps the sums. -/
theorem GrantSumsAgree.apply {state : Option (GrantSystem ι)} (agree : GrantSumsAgree state)
    (event : GrantEvent ι) : GrantSumsAgree (event.apply state) := by
  match state, event with
  | none, _ => trivial
  | some sys, .connect i data newConn osfs =>
      show GrantSumsAgree ((ofdGrantConnect sys.ofd (sys.exports i) data newConn osfs).map _)
      cases done : ofdGrantConnect sys.ofd (sys.exports i) data newConn osfs with
      | none => trivial
      | some result => exact agree.set (ofdGrantConnect_balanced done)
  | some sys, .prepareRead i oa osfs =>
      show GrantSumsAgree ((ofdGrantPrepareRead sys.ofd (sys.exports i) oa osfs).map _)
      cases done : ofdGrantPrepareRead sys.ofd (sys.exports i) oa osfs with
      | none => trivial
      | some result => exact agree.set (ofdGrantPrepareRead_balanced done)
  | some sys, .prepareWrite i oa rnbs osfs =>
      show GrantSumsAgree ((ofdGrantPrepareWrite sys.ofd (sys.exports i) oa rnbs osfs).map _)
      cases done : ofdGrantPrepareWrite sys.ofd (sys.exports i) oa rnbs osfs with
      | none => trivial
      | some result => exact agree.set (ofdGrantPrepareWrite_balanced done)
  | some sys, .create i nr osfs =>
      show GrantSumsAgree ((ofdGrantCreate sys.ofd (sys.exports i) nr osfs).map _)
      cases done : ofdGrantCreate sys.ofd (sys.exports i) nr osfs with
      | none => trivial
      | some result => exact agree.set (ofdGrantCreate_balanced done)
  | some sys, .commit i pending =>
      show GrantSumsAgree ((ofdGrantCommit sys.ofd (sys.exports i) pending).map _)
      cases done : ofdGrantCommit sys.ofd (sys.exports i) pending with
      | none => trivial
      | some result => exact agree.set (ofdGrantCommit_balanced done)
  | some sys, .discard i =>
      show GrantSumsAgree ((ofdGrantDiscard sys.ofd (sys.exports i)).map _)
      cases done : ofdGrantDiscard sys.ofd (sys.exports i) with
      | none => trivial
      | some result => exact agree.set (ofdGrantDiscard_balanced done)

/-- All grant counters are zero. -/
def GrantSystem.AllZero (sys : GrantSystem ι) : Prop :=
  sys.ofd.ofdTotGranted = 0 ∧ sys.ofd.ofdTotPending = 0 ∧ sys.ofd.ofdTotDirty = 0 ∧
    ∀ i, (sys.exports i).fed = { fedGrant := 0, fedPending := 0, fedDirty := 0 }

/-- An OST with 4 KiB blocks. -/
def smallOst : OfdDevice where
  ofdTotGranted := 0
  ofdTotPending := 0
  ofdTotDirty := 0
  ofdTotGrantedClients := 0
  ofdBlockbits := 12
  ddpMaxExtentBlks := 256
  ddpExtentTax := 4096
  ddpInodespace := 512
  ofdGrantCompatDisable := false
  obdRecovering := false

/-- A client export with the grant parameters and 1 MiB RPCs. -/
def clientExport : ObdExport where
  fed := { fedGrant := 0, fedPending := 0, fedDirty := 0 }
  grantParam := true
  maxBrwSize := 1048576
  isSelf := false
  failed := false

/-- The device with one client. -/
def oneClient : GrantSystem (Fin 1) := { ofd := smallOst, exports := fun _ => clientExport }

/-- From all-zero counters, whatever the clients send and `statfs` returns,
the totals stay the sums that `ofd_grant_sanity_check` computes. -/
theorem sumsAgree_of_run {start : GrantSystem ι} (zero : start.AllZero)
    (events : List (GrantEvent ι)) :
    GrantSumsAgree (Machine.run GrantEvent.apply (some start) events) := by
  obtain ⟨granted, pending, dirty, shares⟩ := zero
  have startAgrees : GrantSumsAgree (some start) := by
    refine ⟨?_, ?_, ?_⟩ <;> simp [granted, pending, dirty, shares]
  exact Machine.Reachable.invariant GrantSumsAgree startAgrees
    (fun _ event agree _ => agree.apply event) (Machine.Reachable.start.run events)

/-- A client connects to a fresh OST and reads. -/
theorem sumsAgree_of_run_connect_read :
    GrantSumsAgree (Machine.run GrantEvent.apply (some oneClient)
      [.connect 0 { rdonly := false, grant := true, grantParam := true, ocdGrant := 2097152 } true
          { osBlocks := 1048576, osBavail := 1048576 },
        .prepareRead 0
          { oValid := obdMdFlblocks ||| obdMdFlgrant, oGrant := 0, oDirty := 0, oDropped := 0,
            oUndirty := 0, oGrantUsed := 0, oFlags := 0 }
          { osBlocks := 1048576, osBavail := 1048576 }]) :=
  sumsAgree_of_run ⟨rfl, rfl, rfl, fun _ => rfl⟩ _

end Sums

/-! ## A shrink larger than the grant

A client connects and receives 2 MiB of grant.  When ungranted space runs
short it sends a grant shrink request with `o_grant` = 3 MiB, more than it
holds; `ofd_grant_shrink` subtracts it from `fed_grant` as it is. -/

/-- Connect asking for 2 MiB, then shrink by 3 MiB when 1000 blocks are free. -/
def overShrinkEvents : List (GrantEvent (Fin 1)) :=
  [.connect 0 { rdonly := false, grant := true, grantParam := true, ocdGrant := 2097152 } true
      { osBlocks := 1048576, osBavail := 1048576 },
    .prepareRead 0
      { oValid := obdMdFlblocks ||| obdMdFlgrant ||| obdMdFlflags, oGrant := 3145728,
        oDirty := 0, oDropped := 0, oUndirty := 0, oGrantUsed := 0, oFlags := obdFlShrinkGrant }
      { osBlocks := 1048576, osBavail := 1000 }]

theorem ofdGrantShrink_makes_grant_negative :
    ∃ sys, Machine.run GrantEvent.apply (some oneClient) overShrinkEvents = some sys ∧
      (sys.exports 0).fed.fedGrant = -1048576 ∧ ¬ sys.SharesNonneg := by
  refine ⟨_, rfl, by decide, fun nonneg => ?_⟩
  have grantNonneg := (nonneg 0).1
  revert grantNonneg
  decide

end OfdGrant
end Lustre
