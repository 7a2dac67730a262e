import Mathlib.Data.Nat.Basic
import Mathlib.Logic.Function.Basic
import Lustre.Library.Run
import Lustre.Library.TailInsert

/-!
# XIDs of a client import and the known-replied XID

Every request a client sends gets an XID from one counter of the node,
`ptlrpc_last_xid`, and goes on the import's `imp_unreplied_list`, which
`ptlrpc_add_unreplied` keeps sorted by XID.  When a request is sent,
`ptlrpc_known_replied_xid` tells the server, as `last_xid`, that every XID
below the first unreplied one has its reply, and keeps the highest value it
ever told in `imp_known_replied_xid`.  `ptl_send_rpc` checks that the request
it sends is still unreplied and above that value, and calls `LBUG` otherwise.

Requests leave the list when they complete and come back with their old XID
for replay: all at once in `ptlrpc_prepare_replay`, which also resets the
known-replied XID, and one at a time in `ptlrpc_replay_next` when a replay
is resent after a reconnect.  The second path does not look at the
known-replied XID.  A request that the import lets through during recovery
(`rq_allow_replay`) and that is sent between the reconnect and
`ptlrpc_replay_next` raises it past the XID of the replay request that timed
out, and the resent replay then hits the `LBUG`.

The model keeps the requests by number and the list as request numbers.
`LBUG` and `LASSERT` failures are `none`.  The module proves that the list
stays sorted over every run, and that every unreplied request stays above
the known-replied XID, so that `ptlrpc_send_new_req` never reaches the
`LBUG`, in every run in which `ptlrpc_replay_next` puts back no request at
or below it; then it gives a run in which it does.
-/

namespace Lustre
namespace Xid

/-! ## Requests and imports -/

/-- `enum lustre_imp_state`. -/
inductive LustreImpState
  | closed
  | new
  | discon
  | connecting
  | replay
  | replayLocks
  | replayWait
  | recover
  | full
  | evicted
  deriving DecidableEq, Repr

/-- `PTLRPC_BULK_OPS_COUNT`. -/
def ptlrpcBulkOpsCount : Nat := 4

/-- `ptlrpc_next_xid`: the new value of `ptlrpc_last_xid`. -/
def ptlrpcNextXid (last : Nat) : Nat := last + ptlrpcBulkOpsCount

/-- The fields of `struct ptlrpc_request` that XID handling reads and writes. -/
structure PtlrpcRequest where
  /-- `rq_xid`. -/
  rqXid : Nat
  /-- `rq_nr_resend`: resends for `-EINPROGRESS`. -/
  rqNrResend : Nat
  /-- `rq_send_state`: the import state the request waits for. -/
  rqSendState : LustreImpState
  /-- `rq_allow_replay`: may be sent while the import recovers. -/
  rqAllowReplay : Bool
  /-- `ptlrpc_req_is_connect(req) || ptlrpc_req_is_disconnect(req)`. -/
  rqConnect : Bool
  /-- The `pb_last_xid` that `lustre_msg_set_last_xid` wrote into the
  request's message. -/
  rqLastXid : Nat
  deriving DecidableEq, Repr

/-- A request number not yet handed out. -/
def PtlrpcRequest.unset : PtlrpcRequest where
  rqXid := 0
  rqNrResend := 0
  rqSendState := .full
  rqAllowReplay := false
  rqConnect := false
  rqLastXid := 0

/-- The fields of `struct obd_import` that XID handling uses. -/
structure ObdImport where
  /-- `imp_state`. -/
  impState : LustreImpState
  /-- `imp_resend_replay`. -/
  impResendReplay : Bool
  /-- `imp_known_replied_xid`. -/
  impKnownRepliedXid : Nat
  /-- `imp_unreplied_list`, from head to tail, by request number. -/
  impUnrepliedList : List Nat
  /-- The requests on `imp_committed_list` and `imp_replay_list`. -/
  impReplayList : List Nat
  deriving DecidableEq, Repr

/-- The client: the node's XID counter, one import and its requests. -/
structure XidState where
  /-- `ptlrpc_last_xid`. -/
  ptlrpcLastXid : Nat
  /-- The import. -/
  imp : ObdImport
  /-- The requests by number. -/
  requests : Nat → PtlrpcRequest

/-- A new import, before its first connect, with the counter at `start`. -/
def XidState.init (start : Nat) : XidState where
  ptlrpcLastXid := start
  imp :=
    { impState := .new, impResendReplay := false, impKnownRepliedXid := 0,
      impUnrepliedList := [], impReplayList := [] }
  requests := fun _ => PtlrpcRequest.unset

/-- Replace request `r`. -/
def XidState.setRequest (s : XidState) (r : Nat) (req : PtlrpcRequest) : XidState :=
  { s with requests := Function.update s.requests r req }

/-- `lustre_msg_set_last_xid` on the message of request `r`. -/
def XidState.setLastXid (s : XidState) (r minXid : Nat) : XidState :=
  s.setRequest r { s.requests r with rqLastXid := minXid }

/-- `list_del_init(&req->rq_unreplied_list)`. -/
def XidState.unlinkUnreplied (s : XidState) (r : Nat) : XidState :=
  { s with imp := { s.imp with impUnrepliedList := s.imp.impUnrepliedList.erase r } }

/-! ## XIDs and the unreplied list -/

/-- `ptlrpc_add_unreplied`: the walk of `imp_unreplied_list` from its tail,
which links the request after the first one with a lower XID and asserts
that none has its XID; it also asserts that the request is not on the list
already. -/
def ptlrpcAddUnreplied (requests : Nat → PtlrpcRequest) (req : Nat) (list : List Nat) :
    Option (List Nat) :=
  if req ∈ list then none
  else TailInsert.link (fun r => (requests r).rqXid) req list

/-- `ptlrpc_assign_next_xid_nolock`. -/
def ptlrpcAssignNextXidNolock (s : XidState) (r : Nat) : Option XidState :=
  let xid := ptlrpcNextXid s.ptlrpcLastXid
  let s := { s.setRequest r { s.requests r with rqXid := xid } with ptlrpcLastXid := xid }
  (ptlrpcAddUnreplied s.requests r s.imp.impUnrepliedList).map fun list =>
    { s with imp := { s.imp with impUnrepliedList := list } }

/-- `ptlrpc_known_replied_xid`: the XID below the first unreplied request,
or 0; it also raises `imp_known_replied_xid` to it. -/
def ptlrpcKnownRepliedXid (requests : Nat → PtlrpcRequest) (imp : ObdImport) :
    Option (ObdImport × Nat) :=
  match imp.impUnrepliedList with
  | [] => some (imp, 0)
  | first :: _ =>
    let xid := (requests first).rqXid
    if xid < 1 then none
    else
      some ({ imp with
        impKnownRepliedXid :=
          if imp.impKnownRepliedXid < xid - 1 then xid - 1 else imp.impKnownRepliedXid },
        xid - 1)

/-- The first resend for `-EINPROGRESS` in `ptl_send_rpc`: a new XID, so
that the server does not reconstruct the old reply, and `last_xid` for it. -/
def resendNewXid (s : XidState) (r : Nat) : Option XidState :=
  (ptlrpcAssignNextXidNolock s r).bind fun s =>
    (ptlrpcKnownRepliedXid s.requests s.imp).map fun (imp, minXid) =>
      { s with imp := imp }.setLastXid r minXid

/-- `ptl_send_rpc`, up to its sanity check on the XID. -/
def ptlSendRpc (s : XidState) (r : Nat) : Option XidState :=
  let resent :=
    if (s.requests r).rqNrResend ≠ 0 ∧ r ∉ s.imp.impUnrepliedList then resendNewXid s r
    else some s
  resent.bind fun s =>
    if r ∉ s.imp.impUnrepliedList ∨ (s.requests r).rqXid ≤ s.imp.impKnownRepliedXid then none
    else some s

/-- What `ptlrpc_import_delay_req` decides. -/
inductive DelayResult
  /-- Send now. -/
  | send
  /-- Wait on `imp_delayed_list` until the import recovers. -/
  | delay
  /-- Fail with the status it sets. -/
  | fail
  deriving DecidableEq, Repr

/-- `ptlrpc_import_delay_req`. -/
def ptlrpcImportDelayReq (imp : ObdImport) (req : PtlrpcRequest) : DelayResult :=
  if imp.impState = .new then .fail
  else if imp.impState = .closed then .fail
  -- allow CONNECT even if the import is invalid
  else if req.rqSendState = .connecting ∧ imp.impState = .connecting then .send
  else if req.rqSendState ≠ imp.impState then
    if req.rqAllowReplay = true ∧ (imp.impState = .replay ∨ imp.impState = .replayLocks ∨
        imp.impState = .replayWait ∨ imp.impState = .recover) then .send
    else .delay
  else .send

/-- `ptlrpc_send_new_req`, on to `ptl_send_rpc`. -/
def ptlrpcSendNewReq (s : XidState) (r : Nat) : Option XidState :=
  let req := s.requests r
  if req.rqXid = 0 ∨ r ∉ s.imp.impUnrepliedList then none
  else
    match ptlrpcImportDelayReq s.imp req with
    | .delay => some s
    | .fail => some s
    | .send =>
      -- CONNECT and DISCONNECT carry `last_xid` 0
      if req.rqConnect = true then ptlSendRpc (s.setLastXid r 0) r
      else (ptlrpcKnownRepliedXid s.requests s.imp).bind fun (imp, minXid) =>
        ptlSendRpc ({ s with imp := imp }.setLastXid r minXid) r

/-- The send in `ptlrpc_check_set` of a request that waited for recovery or
is resent. -/
def ptlrpcCheckSetResend (s : XidState) (r : Nat) : Option XidState :=
  match ptlrpcImportDelayReq s.imp (s.requests r) with
  | .send => ptlSendRpc s r
  | .delay => some s
  | .fail => some s

/-- `after_reply` on `-EINPROGRESS`: the request is resent with a new XID. -/
def afterReplyEinprogress (s : XidState) (r : Nat) : XidState :=
  (s.setRequest r { s.requests r with rqNrResend := (s.requests r).rqNrResend + 1 }).unlinkUnreplied r

/-- `after_reply` keeps the request for replay. -/
def retainReplayable (s : XidState) (r : Nat) : XidState :=
  { s with imp := { s.imp with
      impReplayList := if r ∈ s.imp.impReplayList then s.imp.impReplayList
        else s.imp.impReplayList ++ [r] } }

/-! ## Connecting and replaying -/

/-- `ptlrpc_set_import_discon`: a connected import loses its connection. -/
def ptlrpcSetImportDiscon (s : XidState) : XidState :=
  if s.imp.impState = .full then { s with imp := { s.imp with impState := .discon } } else s

/-- `ptlrpc_connect_import`, up to sending the CONNECT request. -/
def ptlrpcConnectImport (s : XidState) : XidState :=
  if s.imp.impState = .closed ∨ s.imp.impState = .full ∨ s.imp.impState = .connecting then s
  else { s with imp := { s.imp with impState := .connecting, impResendReplay := false } }

/-- The walks of `ptlrpc_prepare_replay` over the replay lists: each request
not on `imp_unreplied_list` goes back on it. -/
def addReplayRequests (requests : Nat → PtlrpcRequest) : List Nat → List Nat → Option (List Nat)
  | [], list => some list
  | r :: rest, list =>
    if r ∈ list then addReplayRequests requests rest list
    else (ptlrpcAddUnreplied requests r list).bind (addReplayRequests requests rest)

/-- `ptlrpc_prepare_replay`. -/
def ptlrpcPrepareReplay (s : XidState) : Option XidState :=
  if s.imp.impState ≠ .replay ∨ s.imp.impResendReplay = true then some s
  else
    (addReplayRequests s.requests s.imp.impReplayList s.imp.impUnrepliedList).bind fun list =>
      (ptlrpcKnownRepliedXid s.requests { s.imp with impUnrepliedList := list }).map
        fun (imp, known) => { s with imp := { imp with impKnownRepliedXid := known } }

/-- What the server's reply to CONNECT tells `ptlrpc_connect_interpret`. -/
inductive ConnectReply
  /-- No recovery for this client: the import is connected. -/
  | full
  /-- A new server instance in recovery: replay starts. -/
  | recovering
  /-- The same server instance, still in recovery: reconnected during
  replay. -/
  | reconnectedDuringReplay
  deriving DecidableEq, Repr

/-- `ptlrpc_connect_interpret`: the new import state, then
`ptlrpc_prepare_replay`. -/
def ptlrpcConnectInterpret (s : XidState) (reply : ConnectReply) : Option XidState :=
  if s.imp.impState ≠ .connecting then some s
  else
    let imp := match reply with
      | .full => { s.imp with impState := .full }
      | .recovering => { s.imp with impState := .replay }
      | .reconnectedDuringReplay => { s.imp with impResendReplay := true, impState := .replay }
    ptlrpcPrepareReplay { s with imp := imp }

/-- `ptlrpc_replay_next`, with the request its walk over the replay lists
selects, and `ptlrpc_replay_req` on it. -/
def ptlrpcReplayNext (s : XidState) (sel : Option Nat) : Option XidState :=
  match sel with
  | none => some { s with imp := { s.imp with impResendReplay := false } }
  | some r =>
    if s.imp.impState ≠ .replay ∨ r ∉ s.imp.impReplayList then some s
    else
      -- the resend replay request may have been removed from the unreplied list
      let added :=
        if s.imp.impResendReplay = true ∧ r ∉ s.imp.impUnrepliedList then
          ptlrpcAddUnreplied s.requests r s.imp.impUnrepliedList
        else some s.imp.impUnrepliedList
      added.bind fun list =>
        let imp := { s.imp with impUnrepliedList := list, impResendReplay := false }
        if r ∉ list then none
        else some ({ s with imp := imp }.setRequest r { s.requests r with rqSendState := .replay })

/-- The recovery state machine of the import reaches FULL. -/
def recoveryDone (s : XidState) : XidState :=
  if s.imp.impState = .replay ∨ s.imp.impState = .replayLocks ∨ s.imp.impState = .replayWait ∨
      s.imp.impState = .recover then
    { s with imp := { s.imp with impState := .full } }
  else s

/-! ## Runs -/

/-- What happens to the client next. -/
inductive XidEvent
  /-- A new request, packed by `ptlrpc_request_bufs_pack`, which gives it an
  XID. -/
  | create (req : Nat) (sendState : LustreImpState) (allowReplay connect : Bool)
  /-- `ptlrpc_send_new_req` of the request. -/
  | sendNewReq (req : Nat)
  /-- `ptlrpc_check_set` sends the request again. -/
  | checkSetResend (req : Nat)
  /-- The request completes and leaves the unreplied list. -/
  | complete (req : Nat)
  /-- The reply is `-EINPROGRESS`. -/
  | einprogress (req : Nat)
  /-- The reply makes `after_reply` keep the request for replay. -/
  | retain (req : Nat)
  /-- The connection to the server is lost. -/
  | disconnect
  /-- `ptlrpc_connect_import`. -/
  | connectImport
  /-- The reply to CONNECT. -/
  | connectInterpret (reply : ConnectReply)
  /-- `ptlrpc_replay_next`, with the request it selects. -/
  | replayNext (req : Option Nat)
  /-- The import finishes recovery. -/
  | recovered
  deriving DecidableEq, Repr

/-- One event. -/
def XidState.step (s : XidState) : XidEvent → Option XidState
  | .create r sendState allowReplay connect =>
    -- request numbers are not reused
    if (s.requests r).rqXid ≠ 0 then some s
    else ptlrpcAssignNextXidNolock (s.setRequest r
      { rqXid := 0, rqNrResend := 0, rqSendState := sendState, rqAllowReplay := allowReplay,
        rqConnect := connect, rqLastXid := 0 }) r
  | .sendNewReq r => ptlrpcSendNewReq s r
  | .checkSetResend r => ptlrpcCheckSetResend s r
  | .complete r => some (s.unlinkUnreplied r)
  | .einprogress r => some (afterReplyEinprogress s r)
  | .retain r => some (retainReplayable s r)
  | .disconnect => some (ptlrpcSetImportDiscon s)
  | .connectImport => some (ptlrpcConnectImport s)
  | .connectInterpret reply => ptlrpcConnectInterpret s reply
  | .replayNext sel => ptlrpcReplayNext s sel
  | .recovered => some (recoveryDone s)

/-- One event, after an `LBUG` or failed `LASSERT` nothing more. -/
def XidEvent.apply : Option XidState → XidEvent → Option XidState
  | none, _ => none
  | some s, event => s.step event

/-! ## What a step keeps -/

/-- `imp_unreplied_list` is sorted strictly by XID. -/
def Ascending (requests : Nat → PtlrpcRequest) (list : List Nat) : Prop :=
  list.Pairwise fun a b => (requests a).rqXid < (requests b).rqXid

/-- What every client keeps: its unreplied list sorted, and no XID, handed
out or known replied, above the counter. -/
structure XidState.Sound (s : XidState) : Prop where
  ascending : Ascending s.requests s.imp.impUnrepliedList
  belowCounter : ∀ r, (s.requests r).rqXid ≤ s.ptlrpcLastXid
  knownBelowCounter : s.imp.impKnownRepliedXid ≤ s.ptlrpcLastXid

/-- Every unreplied request lies above the known-replied XID. -/
def XidState.AboveKnown (s : XidState) : Prop :=
  ∀ r ∈ s.imp.impUnrepliedList, s.imp.impKnownRepliedXid < (s.requests r).rqXid

/-- The event is a `ptlrpc_replay_next` that puts a request back on the
unreplied list at or below the known-replied XID. -/
def XidState.ReaddsBelowKnown (s : XidState) : XidEvent → Prop
  | .replayNext (some r) =>
    s.imp.impState = .replay ∧ r ∈ s.imp.impReplayList ∧ s.imp.impResendReplay = true ∧
      r ∉ s.imp.impUnrepliedList ∧ (s.requests r).rqXid ≤ s.imp.impKnownRepliedXid
  | _ => False

/-- `s'` is sound, and keeps the unreplied requests above the known-replied
XID where `s` did. -/
def XidState.Keeps (s s' : XidState) : Prop :=
  s'.Sound ∧ (s.AboveKnown → s'.AboveKnown)

theorem XidState.Keeps.refl {s : XidState} (sound : s.Sound) : s.Keeps s :=
  ⟨sound, id⟩

theorem XidState.Keeps.trans {s t u : XidState} (first : s.Keeps t)
    (second : t.Sound → t.Keeps u) : s.Keeps u :=
  ⟨(second first.1).1, fun above => (second first.1).2 (first.2 above)⟩

/-- Two clients that agree on everything the invariants read. -/
structure XidState.SameXids (s s' : XidState) : Prop where
  counter : s'.ptlrpcLastXid = s.ptlrpcLastXid
  list : s'.imp.impUnrepliedList = s.imp.impUnrepliedList
  known : s'.imp.impKnownRepliedXid = s.imp.impKnownRepliedXid
  xid : ∀ r, (s'.requests r).rqXid = (s.requests r).rqXid

theorem Ascending.congr {requests requests' : Nat → PtlrpcRequest} {list : List Nat}
    (ascending : Ascending requests list)
    (agree : ∀ r ∈ list, (requests' r).rqXid = (requests r).rqXid) :
    Ascending requests' list :=
  ascending.imp_of_mem fun {a b} memA memB lower => by
    rw [agree a memA, agree b memB]
    exact lower

theorem XidState.SameXids.keeps {s s' : XidState} (sound : s.Sound) (same : s.SameXids s') :
    s.Keeps s' := by
  refine ⟨⟨?_, fun r => ?_, ?_⟩, fun above r onList => ?_⟩
  · rw [same.list]
    exact sound.ascending.congr fun r _ => same.xid r
  · rw [same.xid, same.counter]
    exact sound.belowCounter r
  · rw [same.known, same.counter]
    exact sound.knownBelowCounter
  · rw [same.known, same.xid]
    exact above r (same.list ▸ onList)

theorem XidState.setRequest_requests (s : XidState) (r x : Nat) (req : PtlrpcRequest) :
    (s.setRequest r req).requests x = if x = r then req else s.requests x := by
  simp only [XidState.setRequest, Function.update_apply]

/-- Changing a request but not its XID. -/
theorem XidState.sameXids_setRequest (s : XidState) {r : Nat} {req : PtlrpcRequest}
    (sameXid : req.rqXid = (s.requests r).rqXid) : s.SameXids (s.setRequest r req) := by
  refine ⟨rfl, rfl, rfl, fun x => ?_⟩
  rw [XidState.setRequest_requests]
  split
  · next atR => rw [atR, sameXid]
  · rfl

theorem XidState.sameXids_setLastXid (s : XidState) (r minXid : Nat) :
    s.SameXids (s.setLastXid r minXid) :=
  s.sameXids_setRequest rfl

/-- Changing the import but not its unreplied list or known-replied XID. -/
theorem XidState.sameXids_imp (s : XidState) {imp : ObdImport}
    (list : imp.impUnrepliedList = s.imp.impUnrepliedList)
    (known : imp.impKnownRepliedXid = s.imp.impKnownRepliedXid) :
    s.SameXids { s with imp := imp } :=
  ⟨rfl, list, known, fun _ => rfl⟩

/-- The import state changes, nothing else. -/
theorem XidState.sameXids_setImportDiscon (s : XidState) : s.SameXids (ptlrpcSetImportDiscon s) := by
  unfold ptlrpcSetImportDiscon
  split <;> exact ⟨rfl, rfl, rfl, fun _ => rfl⟩

theorem XidState.sameXids_connectImport (s : XidState) : s.SameXids (ptlrpcConnectImport s) := by
  unfold ptlrpcConnectImport
  split <;> exact ⟨rfl, rfl, rfl, fun _ => rfl⟩

theorem XidState.sameXids_recoveryDone (s : XidState) : s.SameXids (recoveryDone s) := by
  unfold recoveryDone
  split <;> exact ⟨rfl, rfl, rfl, fun _ => rfl⟩

theorem ptlrpcAddUnreplied_spec {requests : Nat → PtlrpcRequest} {r : Nat} {list list' : List Nat}
    (done : ptlrpcAddUnreplied requests r list = some list') :
    r ∉ list ∧ list'.Perm (r :: list) ∧ (Ascending requests list → Ascending requests list') := by
  unfold ptlrpcAddUnreplied at done
  split at done
  · cases done
  · next absent =>
    exact ⟨absent, TailInsert.link_perm done, fun ascending => TailInsert.link_sorted ascending done⟩

/-- A new XID lies above every XID handed out, so the list stays sorted and
the new request above the known-replied XID. -/
theorem XidState.Sound.assignNextXid {s s' : XidState} {r : Nat} (sound : s.Sound)
    (done : ptlrpcAssignNextXidNolock s r = some s') :
    s.Keeps s' ∧ r ∈ s'.imp.impUnrepliedList := by
  unfold ptlrpcAssignNextXidNolock at done
  obtain ⟨list, added, rfl⟩ := Option.map_eq_some_iff.mp done
  obtain ⟨absent, perm, staysAscending⟩ := ptlrpcAddUnreplied_spec added
  have fresh : s.ptlrpcLastXid < ptlrpcNextXid s.ptlrpcLastXid := by
    simp [ptlrpcNextXid, ptlrpcBulkOpsCount]
  -- only `r`, which is not on the list, changes its XID
  have others : ∀ x ∈ s.imp.impUnrepliedList,
      ((s.setRequest r { s.requests r with rqXid := ptlrpcNextXid s.ptlrpcLastXid }).requests x).rqXid =
        (s.requests x).rqXid := by
    intro x onList
    rw [XidState.setRequest_requests, if_neg (fun (atR : x = r) => absent (atR ▸ onList))]
  refine ⟨⟨⟨staysAscending (sound.ascending.congr others), fun x => ?_, ?_⟩, fun above x onList => ?_⟩,
    perm.mem_iff.mpr List.mem_cons_self⟩
  · rw [XidState.setRequest_requests]
    split
    · exact le_refl _
    · exact (sound.belowCounter x).trans fresh.le
  · exact sound.knownBelowCounter.trans fresh.le
  · rcases List.mem_cons.mp (perm.mem_iff.mp onList) with rfl | wasOn
    · show s.imp.impKnownRepliedXid < _
      rw [XidState.setRequest_requests, if_pos rfl]
      exact lt_of_le_of_lt sound.knownBelowCounter fresh
    · show s.imp.impKnownRepliedXid < _
      rw [others x wasOn]
      exact above x wasOn

theorem ptlrpcKnownRepliedXid_spec {requests : Nat → PtlrpcRequest} {imp imp' : ObdImport}
    {minXid : Nat} (done : ptlrpcKnownRepliedXid requests imp = some (imp', minXid)) :
    imp' = { imp with impKnownRepliedXid := max imp.impKnownRepliedXid minXid } ∧
      (Ascending requests imp.impUnrepliedList →
        ∀ r ∈ imp.impUnrepliedList, minXid < (requests r).rqXid) ∧
      ∀ bound, (∀ r, (requests r).rqXid ≤ bound) → minXid ≤ bound := by
  unfold ptlrpcKnownRepliedXid at done
  split at done
  · next empty =>
    rw [Option.some.injEq, Prod.mk.injEq] at done
    obtain ⟨rfl, rfl⟩ := done
    refine ⟨by rw [Nat.max_zero], fun _ r onList => ?_, fun _ _ => Nat.zero_le _⟩
    rw [empty] at onList
    cases onList
  · next first rest listIs =>
    dsimp only at done
    split at done
    · cases done
    · next positive =>
      rw [Option.some.injEq, Prod.mk.injEq] at done
      obtain ⟨rfl, rfl⟩ := done
      refine ⟨?_, fun ascending r onList => ?_, fun bound bounded => ?_⟩
      · congr 1
        split <;> omega
      · rw [Ascending, listIs, List.pairwise_cons] at ascending
        rw [listIs] at onList
        rcases List.mem_cons.mp onList with rfl | later
        · omega
        · have := ascending.1 r later
          omega
      · have := bounded first
        omega

/-- Raising the known-replied XID to the one below the first unreplied
request keeps every unreplied request above it. -/
theorem XidState.Sound.knownReplied {s : XidState} {imp : ObdImport} {minXid : Nat}
    (sound : s.Sound) (done : ptlrpcKnownRepliedXid s.requests s.imp = some (imp, minXid)) :
    s.Keeps { s with imp := imp } ∧ minXid ≤ s.ptlrpcLastXid := by
  obtain ⟨rfl, below, bounded⟩ := ptlrpcKnownRepliedXid_spec done
  refine ⟨⟨⟨sound.ascending, sound.belowCounter, ?_⟩, fun above r onList => ?_⟩,
    bounded _ sound.belowCounter⟩
  · exact max_le sound.knownBelowCounter (bounded _ sound.belowCounter)
  · exact max_lt (above r onList) (below sound.ascending r onList)

theorem XidState.Sound.ptlSendRpc {s s' : XidState} {r : Nat} (sound : s.Sound)
    (done : ptlSendRpc s r = some s') : s.Keeps s' := by
  unfold Lustre.Xid.ptlSendRpc at done
  obtain ⟨t, resent, checked⟩ := Option.bind_eq_some_iff.mp done
  have sent : t = s' := by
    split at checked
    · cases checked
    · exact Option.some.inj checked
  subst sent
  split at resent
  · -- the EINPROGRESS resend: a new XID, then the known-replied XID for it
    unfold resendNewXid at resent
    obtain ⟨u, assigned, mapped⟩ := Option.bind_eq_some_iff.mp resent
    obtain ⟨⟨imp, minXid⟩, known, rfl⟩ := Option.map_eq_some_iff.mp mapped
    refine (sound.assignNextXid assigned).1.trans fun soundU => ?_
    refine (soundU.knownReplied known).1.trans fun soundK => ?_
    exact (XidState.sameXids_setLastXid _ r minXid).keeps soundK
  · rw [← Option.some.inj resent]
    exact Keeps.refl sound

theorem XidState.Sound.sendNewReq {s s' : XidState} {r : Nat} (sound : s.Sound)
    (done : ptlrpcSendNewReq s r = some s') : s.Keeps s' := by
  unfold ptlrpcSendNewReq at done
  dsimp only at done
  split at done
  · cases done
  · split at done
    · rw [← Option.some.inj done]
      exact Keeps.refl sound
    · rw [← Option.some.inj done]
      exact Keeps.refl sound
    · split at done
      · -- CONNECT: `last_xid` 0
        exact ((s.sameXids_setLastXid r 0).keeps sound).trans fun soundL => soundL.ptlSendRpc done
      · obtain ⟨⟨imp, minXid⟩, known, sent⟩ := Option.bind_eq_some_iff.mp done
        refine (sound.knownReplied known).1.trans fun soundK => ?_
        exact ((XidState.sameXids_setLastXid _ r minXid).keeps soundK).trans
          fun soundL => soundL.ptlSendRpc sent

theorem XidState.Sound.checkSetResend {s s' : XidState} {r : Nat} (sound : s.Sound)
    (done : ptlrpcCheckSetResend s r = some s') : s.Keeps s' := by
  unfold ptlrpcCheckSetResend at done
  split at done
  · exact sound.ptlSendRpc done
  · rw [← Option.some.inj done]
    exact Keeps.refl sound
  · rw [← Option.some.inj done]
    exact Keeps.refl sound

/-- Leaving the unreplied list keeps it sorted. -/
theorem XidState.Sound.unlinkUnreplied {s : XidState} (sound : s.Sound) (r : Nat) :
    s.Keeps (s.unlinkUnreplied r) := by
  have kept : (s.imp.impUnrepliedList.erase r).Sublist s.imp.impUnrepliedList :=
    List.erase_sublist
  refine ⟨⟨sound.ascending.sublist kept, sound.belowCounter, sound.knownBelowCounter⟩,
    fun above x onList => above x (kept.subset onList)⟩

theorem addReplayRequests_ascending {requests : Nat → PtlrpcRequest} {replay list list' : List Nat}
    (ascending : Ascending requests list) (done : addReplayRequests requests replay list = some list') :
    Ascending requests list' := by
  induction replay generalizing list with
  | nil =>
    rw [addReplayRequests, Option.some.injEq] at done
    exact done ▸ ascending
  | cons r rest ih =>
    unfold addReplayRequests at done
    split at done
    · exact ih ascending done
    · obtain ⟨added, addDone, restDone⟩ := Option.bind_eq_some_iff.mp done
      exact ih ((ptlrpcAddUnreplied_spec addDone).2.2 ascending) restDone

/-- `ptlrpc_prepare_replay` puts the replay requests back and resets the
known-replied XID below all of them. -/
theorem XidState.Sound.prepareReplay {s s' : XidState} (sound : s.Sound)
    (done : ptlrpcPrepareReplay s = some s') : s.Keeps s' := by
  unfold ptlrpcPrepareReplay at done
  split at done
  · rw [← Option.some.inj done]
    exact Keeps.refl sound
  · obtain ⟨list, added, known⟩ := Option.bind_eq_some_iff.mp done
    obtain ⟨⟨imp, minXid⟩, replied, rfl⟩ := Option.map_eq_some_iff.mp known
    obtain ⟨rfl, below, bounded⟩ := ptlrpcKnownRepliedXid_spec replied
    have ascending := addReplayRequests_ascending sound.ascending added
    exact ⟨⟨ascending, sound.belowCounter, bounded _ sound.belowCounter⟩,
      fun _ r onList => below ascending r onList⟩

theorem XidState.Sound.connectInterpret {s s' : XidState} {reply : ConnectReply} (sound : s.Sound)
    (done : ptlrpcConnectInterpret s reply = some s') : s.Keeps s' := by
  unfold ptlrpcConnectInterpret at done
  split at done
  · rw [← Option.some.inj done]
    exact Keeps.refl sound
  · -- the new import state changes nothing the invariants read
    refine ((s.sameXids_imp ?_ ?_).keeps sound).trans fun soundI => soundI.prepareReplay done
    · cases reply <;> rfl
    · cases reply <;> rfl

/-- `ptlrpc_replay_next` keeps the unreplied requests above the
known-replied XID unless it puts one back at or below it. -/
theorem XidState.Sound.replayNext {s s' : XidState} {sel : Option Nat} (sound : s.Sound)
    (done : ptlrpcReplayNext s sel = some s') :
    s'.Sound ∧ (s.AboveKnown → ¬ s.ReaddsBelowKnown (.replayNext sel) → s'.AboveKnown) := by
  unfold ptlrpcReplayNext at done
  split at done
  · rw [← Option.some.inj done]
    have keeps := (show s.SameXids { s with imp := { s.imp with impResendReplay := false } } from
      s.sameXids_imp rfl rfl).keeps sound
    exact ⟨keeps.1, fun above _ => keeps.2 above⟩
  · next r =>
    split at done
    · rw [← Option.some.inj done]
      exact ⟨sound, fun above _ => above⟩
    · next selected =>
      obtain ⟨list, added, chosen⟩ := Option.bind_eq_some_iff.mp done
      dsimp only at chosen
      split at chosen
      · cases chosen
      · rw [← Option.some.inj chosen]
        -- the list after the re-add, if any, is sorted and above the known XID
        have listKeeps : Ascending s.requests list ∧ (s.AboveKnown →
            ¬ s.ReaddsBelowKnown (.replayNext (some r)) →
            ∀ x ∈ list, s.imp.impKnownRepliedXid < (s.requests x).rqXid) := by
          split at added
          · next resend =>
            obtain ⟨-, perm, staysAscending⟩ := ptlrpcAddUnreplied_spec added
            refine ⟨staysAscending sound.ascending, fun above notBelow x onList => ?_⟩
            rcases List.mem_cons.mp (perm.mem_iff.mp onList) with rfl | wasOn
            · simp only [not_or, not_not] at selected
              exact Nat.lt_of_not_le fun atOrBelow =>
                notBelow ⟨selected.1, selected.2, resend.1, resend.2, atOrBelow⟩
            · exact above x wasOn
          · rw [← Option.some.inj added]
            exact ⟨sound.ascending, fun above _ => above⟩
        refine ⟨⟨?_, ?_, sound.knownBelowCounter⟩, fun above notBelow x onList => ?_⟩
        · exact listKeeps.1.congr fun x _ => (XidState.sameXids_setRequest _ (by rfl)).xid x
        · intro x
          rw [(XidState.sameXids_setRequest _ (by rfl)).xid x]
          exact sound.belowCounter x
        · rw [(XidState.sameXids_setRequest _ (by rfl)).xid x]
          exact listKeeps.2 above notBelow x onList

/-- What one event keeps.  Every event keeps the client sound; every event
but a `ptlrpc_replay_next` that puts a request back at or below the
known-replied XID keeps the unreplied requests above it. -/
theorem XidState.Sound.step {s s' : XidState} {event : XidEvent} (sound : s.Sound)
    (done : s.step event = some s') :
    s'.Sound ∧ (s.AboveKnown → ¬ s.ReaddsBelowKnown event → s'.AboveKnown) := by
  have ofKeeps : s.Keeps s' →
      s'.Sound ∧ (s.AboveKnown → ¬ s.ReaddsBelowKnown event → s'.AboveKnown) :=
    fun keeps => ⟨keeps.1, fun above _ => keeps.2 above⟩
  have ofSame : s.SameXids s' →
      s'.Sound ∧ (s.AboveKnown → ¬ s.ReaddsBelowKnown event → s'.AboveKnown) :=
    fun same => ofKeeps (same.keeps sound)
  cases event with
  | create r sendState allowReplay connect =>
    simp only [XidState.step] at done
    split at done
    · exact ofSame (Option.some.inj done ▸ (s.sameXids_imp rfl rfl))
    · next unused =>
      -- the request number was unused, so its XID was 0 before as after
      have fresh : (s.requests r).rqXid = 0 := not_not.mp unused
      exact ofKeeps (((s.sameXids_setRequest fresh.symm).keeps sound).trans
        fun soundR => (soundR.assignNextXid done).1)
  | sendNewReq r => exact ofKeeps (sound.sendNewReq done)
  | checkSetResend r => exact ofKeeps (sound.checkSetResend done)
  | complete r =>
    obtain rfl : s.unlinkUnreplied r = s' := Option.some.inj done
    exact ofKeeps (sound.unlinkUnreplied r)
  | einprogress r =>
    obtain rfl : afterReplyEinprogress s r = s' := Option.some.inj done
    unfold afterReplyEinprogress
    exact ofKeeps (((s.sameXids_setRequest (by rfl)).keeps sound).trans
      fun soundR => soundR.unlinkUnreplied r)
  | retain r =>
    obtain rfl : retainReplayable s r = s' := Option.some.inj done
    exact ofSame (s.sameXids_imp rfl rfl)
  | disconnect =>
    obtain rfl : ptlrpcSetImportDiscon s = s' := Option.some.inj done
    exact ofSame s.sameXids_setImportDiscon
  | connectImport =>
    obtain rfl : ptlrpcConnectImport s = s' := Option.some.inj done
    exact ofSame s.sameXids_connectImport
  | connectInterpret reply => exact ofKeeps (sound.connectInterpret done)
  | replayNext sel => exact sound.replayNext done
  | recovered =>
    obtain rfl : recoveryDone s = s' := Option.some.inj done
    exact ofSame s.sameXids_recoveryDone

/-! ## Over every run -/

theorem XidState.init_sound (start : Nat) : (XidState.init start).Sound :=
  ⟨List.Pairwise.nil, fun _ => Nat.zero_le _, Nat.zero_le _⟩

/-- The client is sound, or an assertion has failed. -/
def SoundOrFailed : Option XidState → Prop
  | none => True
  | some s => s.Sound

theorem SoundOrFailed.apply {state : Option XidState} (sound : SoundOrFailed state)
    (event : XidEvent) : SoundOrFailed (event.apply state) := by
  match state with
  | none => trivial
  | some s =>
    show SoundOrFailed (s.step event)
    cases stepped : s.step event with
    | none => trivial
    | some s' => exact (XidState.Sound.step sound stepped).1

/-- Over every run, `imp_unreplied_list` stays sorted strictly by XID, with
no request on it twice. -/
theorem unrepliedList_ascending (start : Nat) (events : List XidEvent) :
    SoundOrFailed (Machine.run XidEvent.apply (some (XidState.init start)) events) :=
  Machine.Reachable.invariant SoundOrFailed
    (show SoundOrFailed (some (XidState.init start)) from XidState.init_sound start)
    (fun _ event sound _ => sound.apply event) (Machine.Reachable.start.run events)

/-- Events other than a `ptlrpc_replay_next` that puts a request back at or
below the known-replied XID. -/
def NoReaddBelowKnown : Option XidState → XidEvent → Prop
  | none, _ => True
  | some s, event => ¬ s.ReaddsBelowKnown event

/-- The client is sound and keeps its unreplied requests above the
known-replied XID, or an assertion has failed. -/
def AboveKnownOrFailed : Option XidState → Prop
  | none => True
  | some s => s.Sound ∧ s.AboveKnown

theorem AboveKnownOrFailed.apply {state : Option XidState} (holds : AboveKnownOrFailed state)
    {event : XidEvent} (allowed : NoReaddBelowKnown state event) :
    AboveKnownOrFailed (event.apply state) := by
  match state with
  | none => trivial
  | some s =>
    show AboveKnownOrFailed (s.step event)
    cases stepped : s.step event with
    | none => trivial
    | some s' =>
      obtain ⟨soundAfter, keepsAbove⟩ := XidState.Sound.step holds.1 stepped
      exact ⟨soundAfter, keepsAbove holds.2 allowed⟩

/-- A request on the unreplied list above the known-replied XID passes the
check of `ptl_send_rpc`. -/
theorem ptlSendRpc_of_above {s : XidState} {r : Nat} (onList : r ∈ s.imp.impUnrepliedList)
    (above : s.imp.impKnownRepliedXid < (s.requests r).rqXid) : ptlSendRpc s r = some s := by
  simp [ptlSendRpc, onList, Nat.not_le.mpr above]

/-- In a client that keeps its unreplied requests above the known-replied
XID, `ptlrpc_send_new_req` of an unreplied request does not reach the `LBUG`
of `ptl_send_rpc`, nor any `LASSERT`. -/
theorem ptlrpcSendNewReq_ne_none {s : XidState} {r : Nat} (sound : s.Sound) (above : s.AboveKnown)
    (onList : r ∈ s.imp.impUnrepliedList) : ptlrpcSendNewReq s r ≠ none := by
  have hasXid : (s.requests r).rqXid ≠ 0 := Nat.ne_zero_of_lt (above r onList)
  unfold ptlrpcSendNewReq
  rw [if_neg (by simp [hasXid, onList])]
  split
  · simp
  · simp
  · split
    · have above' : (s.setLastXid r 0).imp.impKnownRepliedXid < ((s.setLastXid r 0).requests r).rqXid := by
        rw [(s.sameXids_setLastXid r 0).xid r]
        exact above r onList
      rw [ptlSendRpc_of_above (show r ∈ (s.setLastXid r 0).imp.impUnrepliedList from onList) above']
      simp
    · -- the known-replied XID rises to just below the first unreplied request
      cases known : ptlrpcKnownRepliedXid s.requests s.imp with
      | none =>
        unfold ptlrpcKnownRepliedXid at known
        split at known
        · cases known
        · next first rest listIs =>
          have firstAbove := above first (listIs ▸ List.mem_cons_self)
          simp only [Nat.lt_one_iff] at known
          rw [if_neg (by omega)] at known
          cases known
      | some result =>
        obtain ⟨imp, minXid⟩ := result
        obtain ⟨keeps, -⟩ := sound.knownReplied known
        have raised := keeps.2 above
        obtain ⟨rfl, -, -⟩ := ptlrpcKnownRepliedXid_spec known
        set sent := XidState.setLastXid { s with imp := { s.imp with
          impKnownRepliedXid := max s.imp.impKnownRepliedXid minXid } } r minXid
        have above' : sent.imp.impKnownRepliedXid < (sent.requests r).rqXid := by
          rw [(XidState.sameXids_setLastXid _ r minXid).xid r]
          exact raised r onList
        rw [Option.bind_some]
        show ptlSendRpc sent r ≠ none
        rw [ptlSendRpc_of_above (show r ∈ sent.imp.impUnrepliedList from onList) above']
        simp

/-- In every run in which `ptlrpc_replay_next` puts no request back at or
below the known-replied XID, `ptlrpc_send_new_req` of an unreplied request
never reaches the `LBUG`. -/
theorem sendNewReq_avoids_lbug {start : Nat} {s : XidState}
    (reachable : Machine.Reachable XidEvent.apply NoReaddBelowKnown (some (XidState.init start))
      (some s))
    {r : Nat} (onList : r ∈ s.imp.impUnrepliedList) : ptlrpcSendNewReq s r ≠ none := by
  have holds : AboveKnownOrFailed (some s) :=
    Machine.Reachable.invariant AboveKnownOrFailed
      (show AboveKnownOrFailed (some (XidState.init start)) from
        ⟨XidState.init_sound start, fun _ onList => by cases onList⟩)
      (fun _ _ holds allowed => holds.apply allowed) reachable
  exact ptlrpcSendNewReq_ne_none holds.1 holds.2 onList

theorem sendNewReq_avoids_lbug_first_connect :
    ∃ s, XidEvent.apply (XidEvent.apply (some (XidState.init 0)) .connectImport)
        (.create 0 .connecting false true) = some s ∧ ptlrpcSendNewReq s 0 ≠ none :=
  ⟨_, rfl, sendNewReq_avoids_lbug
    ((Machine.Reachable.start.step XidEvent.connectImport not_false).step
      (XidEvent.create 0 .connecting false true) not_false) (by decide)⟩

/-! ## A resent replay at or below the known-replied XID

An open the server must replay is sent in the normal way and kept for
replay.  The server restarts; after the reconnect `ptlrpc_prepare_replay`
puts the open back, and `ptlrpc_replay_next` sends it.  The replay times
out: the request completes, leaves the unreplied list, and its interpret
callback reconnects.  The same server instance answers that it is still
recovering, so `imp_resend_replay` is set and `ptlrpc_prepare_replay` does
nothing.  Before the recovery state machine calls `ptlrpc_replay_next`,
another thread sends a request that may go out during recovery, as an FLD
lookup may; the unreplied list then starts above the open, and the
known-replied XID rises past the open's XID.  `ptlrpc_replay_next` puts the
open back with its old XID, and its send reaches the `LBUG`. -/

/-- The CONNECT request of the first connect. -/
def initialConnect : Nat := 0

/-- An open that the server must replay. -/
def openReq : Nat := 1

/-- The CONNECT request after the server restarted. -/
def recoveryConnect : Nat := 2

/-- The CONNECT request after the replay timed out. -/
def replayReconnect : Nat := 3

/-- A request that may be sent during recovery. -/
def fldLookup : Nat := 4

/-- The run, from a new import with the counter at 0. -/
def resentReplayEvents : List XidEvent :=
  [.connectImport, .create initialConnect .connecting false true, .sendNewReq initialConnect,
    .connectInterpret .full, .complete initialConnect,
    -- the open is sent and kept for replay
    .create openReq .full false false, .sendNewReq openReq, .retain openReq, .complete openReq,
    -- the server restarts; replay starts
    .disconnect, .connectImport, .create recoveryConnect .connecting false true,
    .sendNewReq recoveryConnect, .connectInterpret .recovering, .replayNext (some openReq),
    .complete recoveryConnect, .sendNewReq openReq,
    -- the replay times out, and its interpret callback reconnects
    .connectImport, .complete openReq,
    .create replayReconnect .connecting false true, .sendNewReq replayReconnect,
    .connectInterpret .reconnectedDuringReplay,
    -- another thread, before the recovery state machine goes on
    .create fldLookup .full true false, .sendNewReq fldLookup,
    .replayNext (some openReq), .complete replayReconnect]

theorem ptlSendRpc_lbug_on_resent_replay :
    ∃ s, Machine.run XidEvent.apply (some (XidState.init 0)) resentReplayEvents = some s ∧
      s.imp.impState = .replay ∧ openReq ∈ s.imp.impUnrepliedList ∧
      (s.requests openReq).rqXid ≤ s.imp.impKnownRepliedXid ∧
      (s.requests openReq).rqXid ≤ (s.requests fldLookup).rqLastXid ∧
      ptlrpcSendNewReq s openReq = none := by
  refine ⟨_, rfl, ?_, ?_, ?_, ?_, ?_⟩
  · decide
  · decide
  · decide
  · decide
  · rfl

end Xid
end Lustre
