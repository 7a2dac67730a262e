import Lustre.Library.Run
import Lustre.Ptlrpc.Xid

/-!
# The import state machine

A client reaches each server through an import, `struct obd_import`, whose
`imp_state` follows the recovery protocol of import.c and recover.c: a lost
connection makes it DISCON, `ptlrpc_connect_import` sends CONNECT and makes
it CONNECTING, and the reply, in `ptlrpc_connect_interpret`, makes it FULL,
or starts recovery at REPLAY, REPLAY_LOCKS or RECOVER, or marks it EVICTED.
`ptlrpc_import_recovery_state_machine` then walks REPLAY, REPLAY_LOCKS,
REPLAY_WAIT and RECOVER to FULL as the replayed requests, the replayed locks
and the "replay completed" ping come back, and hands an evicted import to an
invalidate thread.  Every state change goes through `IMPORT_SET_STATE`, which
leaves a CLOSED import alone and records in `imp_replay_state` where a
reconnect during replay resumes.

The model embeds each of these calls as one step over the import's fields,
with the replies and threads in flight as part of the state (`ImportSystem`)
and a call that blocks (the wait of `ptlrpc_invalidate_import`, the
DISCONNECT of `ptlrpc_disconnect_import`) cut in two at the wait.  What the
calls it does not embed return comes with each event (`Outcomes`).  A failed
`LASSERT` is `none`.

`OBD_ALLOC` leaves `imp_replay_state` zero, which is no `enum
lustre_imp_state` value, and a reconnect during replay sets `imp_state` to
it.  `Safe` shows that this never installs the zero: a CONNECT that is not
initial was sent with the remote handle set, and every path that sets the
handle also sets `imp_replay_state`.  The same invariant shows that the
`LASSERT(imp->imp_replayable)` of `ptlrpc_connect_interpret` holds when the
server answers as one replayable or non-replayable target, and that the
lock and ping assertions of the recovery walk hold (`safe_of_reachable`).
A CLOSED import stays CLOSED until `ptlrpc_init_import`
(`closed_of_reachable`).
-/

namespace Lustre
namespace Import

open Xid (LustreImpState)

/-! ## Constants -/

/-- `EINVAL`. -/
def einval : Int := 22

/-- `EALREADY`. -/
def ealready : Int := 114

/-- `ENOTCONN`. -/
def enotconn : Int := 107

/-- `EACCES`. -/
def eacces : Int := 13

/-- `EPROTO`. -/
def eproto : Int := 71

/-- `ENOMEM`. -/
def enomem : Int := 12

/-- `MSG_CONNECT_RECOVERING`: the server is in recovery. -/
def msgConnectRecovering : UInt32 := 0x1

/-- `MSG_CONNECT_RECONNECT`: the server knows this client. -/
def msgConnectReconnect : UInt32 := 0x2

/-- `MSG_CONNECT_REPLAYABLE`: the target keeps replies for replay. -/
def msgConnectReplayable : UInt32 := 0x4

/-! ## The import -/

/-- The fields of `struct obd_import` that the state changes read and write;
an `enum lustre_imp_state` field is `none` when it holds the zero that
`OBD_ALLOC` leaves. -/
structure ObdImport where
  /-- `imp_state`. -/
  impState : Option LustreImpState
  /-- `imp_replay_state`: where a reconnect during replay resumes. -/
  impReplayState : Option LustreImpState
  /-- `imp_invalid`: requests are refused. -/
  impInvalid : Bool
  /-- `imp_deactive`: deactivated by the administrator. -/
  impDeactive : Bool
  /-- `imp_replayable`. -/
  impReplayable : Bool
  /-- `imp_vbr_failed`. -/
  impVbrFailed : Bool
  /-- `imp_resend_replay`. -/
  impResendReplay : Bool
  /-- `imp_force_verify`: the pinger is to check the import. -/
  impForceVerify : Bool
  /-- `imp_conn_cnt`: the CONNECT requests sent. -/
  impConnCnt : UInt32
  /-- `imp_generation`. -/
  impGeneration : Nat
  /-- `imp_remote_handle.cookie`: `0` until a CONNECT reply sets it. -/
  impRemoteHandle : UInt64
  /-- `imp_replay_inflight`. -/
  impReplayInflight : Nat
  /-- `imp_inval_count`. -/
  impInvalCount : Nat
  /-- `imp_obd->obd_no_recov`. -/
  obdNoRecov : Bool
  deriving DecidableEq, Repr

/-- `class_new_import`: a zeroed import in state NEW. -/
def classNewImport : ObdImport :=
  ⟨some .new, none, false, false, false, false, false, false, 0, 0, 0, 0, 0, false⟩

/-- The `switch` of `__import_set_state`: the `imp_replay_state` after
setting `state`. -/
def replayStateAfter (current : Option LustreImpState) :
    Option LustreImpState → Option LustreImpState
  | some .closed | some .new | some .discon | some .connecting => current
  | some .replayWait => some .replayLocks
  | _ => some .replay

theorem replayStateAfter_eq (current state : Option LustreImpState) :
    replayStateAfter current state =
      if state = some .closed ∨ state = some .new ∨ state = some .discon ∨
          state = some .connecting then current
      else if state = some .replayWait then some .replayLocks
      else some .replay := by
  rcases state with _ | ⟨_ | _ | _ | _ | _ | _ | _ | _ | _ | _⟩ <;> rfl

/-- `IMPORT_SET_STATE_NOLOCK(imp, state)` and `__import_set_state`: a
CLOSED import stays so. -/
def importSetState (imp : ObdImport) (state : Option LustreImpState) : ObdImport :=
  if imp.impState = some .closed then imp
  else { imp with impState := state, impReplayState := replayStateAfter imp.impReplayState state }

theorem importSetState_eq (imp : ObdImport) (state : Option LustreImpState) :
    importSetState imp state =
      if imp.impState = some .closed then imp
      else { imp with impState := state, impReplayState := replayStateAfter imp.impReplayState state } :=
  rfl

@[simp] theorem importSetState_impRemoteHandle (imp : ObdImport) (state : Option LustreImpState) :
    (importSetState imp state).impRemoteHandle = imp.impRemoteHandle := by
  rw [importSetState_eq]; split <;> rfl

@[simp] theorem importSetState_impReplayInflight (imp : ObdImport) (state : Option LustreImpState) :
    (importSetState imp state).impReplayInflight = imp.impReplayInflight := by
  rw [importSetState_eq]; split <;> rfl

@[simp] theorem importSetState_impInvalCount (imp : ObdImport) (state : Option LustreImpState) :
    (importSetState imp state).impInvalCount = imp.impInvalCount := by
  rw [importSetState_eq]; split <;> rfl

@[simp] theorem importSetState_impReplayable (imp : ObdImport) (state : Option LustreImpState) :
    (importSetState imp state).impReplayable = imp.impReplayable := by
  rw [importSetState_eq]; split <;> rfl

@[simp] theorem importSetState_impInvalid (imp : ObdImport) (state : Option LustreImpState) :
    (importSetState imp state).impInvalid = imp.impInvalid := by
  rw [importSetState_eq]; split <;> rfl

@[simp] theorem importSetState_impVbrFailed (imp : ObdImport) (state : Option LustreImpState) :
    (importSetState imp state).impVbrFailed = imp.impVbrFailed := by
  rw [importSetState_eq]; split <;> rfl

/-- `ptlrpc_init_import`: the one call that may leave CLOSED. -/
def ptlrpcInitImport (imp : ObdImport) : ObdImport :=
  { imp with impGeneration := imp.impGeneration + 1, impState := some .new }

/-- `ptlrpc_deactivate_import`: requests are refused from now on. -/
def ptlrpcDeactivateImport (imp : ObdImport) : ObdImport :=
  { imp with impInvalid := true, impGeneration := imp.impGeneration + 1 }

/-- `ptlrpc_activate_import`: valid again, unless the administrator
deactivated it. -/
def ptlrpcActivateImport (imp : ObdImport) : ObdImport :=
  if imp.impDeactive then imp else { imp with impInvalid := false }

/-- `ptlrpc_pinger_force`, without the wake-up of the pinger. -/
def ptlrpcPingerForce (imp : ObdImport) : ObdImport :=
  { imp with impForceVerify := true }

/-- `ptlrpc_set_import_discon(imp, conn_cnt)`: a FULL import loses its
connection, unless a request of an older connection timed out.  The result
says whether it was FULL. -/
def ptlrpcSetImportDiscon (connCnt : UInt32) (imp : ObdImport) : Bool × ObdImport :=
  if imp.impState = some .full ∧ (connCnt = 0 ∨ connCnt = imp.impConnCnt) then
    (true, importSetState imp (some .discon))
  else (false, imp)

/-- `ptlrpc_fail_import(imp, conn_cnt)`: a non-replayable import is
deactivated when it loses its connection. -/
def ptlrpcFailImport (connCnt : UInt32) (imp : ObdImport) : ObdImport :=
  let discon := ptlrpcSetImportDiscon connCnt imp
  let imp := discon.2
  if discon.1 then
    ptlrpcPingerForce (if imp.impReplayable then imp else ptlrpcDeactivateImport imp)
  else imp

/-- `ptlrpc_cleanup_imp`. -/
def ptlrpcCleanupImp (imp : ObdImport) : ObdImport :=
  { importSetState imp (some .closed) with impGeneration := imp.impGeneration + 1 }

/-- `ptlrpc_import_enter_resend`. -/
def ptlrpcImportEnterResend (imp : ObdImport) : ObdImport :=
  importSetState imp (some .recover)

/-- `ptlrpc_import_in_recovery`. -/
def ptlrpcImportInRecovery (imp : ObdImport) : Bool :=
  !(imp.impState = some .full || imp.impState = some .closed || imp.impState = some .discon ||
    imp.obdNoRecov)

/-- The part of `ptlrpc_invalidate_import` before it waits for the requests
in flight; `none` is its `LASSERT(imp->imp_invalid)`. -/
def ptlrpcInvalidateImportBegin (imp : ObdImport) : Option ObdImport :=
  let imp := { imp with impInvalCount := imp.impInvalCount + 1 }
  let imp := if !imp.impInvalid || imp.obdNoRecov then ptlrpcDeactivateImport imp else imp
  if imp.impInvalid then some imp else none

/-- The part of `ptlrpc_invalidate_import` after the wait. -/
def ptlrpcInvalidateImportEnd (imp : ObdImport) : ObdImport :=
  { imp with impInvalCount := imp.impInvalCount - 1 }

/-- `ptlrpc_resend`, for its rc: the requests it resends are not modelled. -/
def ptlrpcResend (imp : ObdImport) : Int :=
  if imp.impState ≠ some .recover then -1 else 0

/-! ## The import with what is in flight -/

/-- An import with the requests and threads in flight that come back to it. -/
structure ImportSystem where
  /-- The import. -/
  imp : ObdImport
  /-- The CONNECT requests not yet interpreted, each with its
  `pcaa_initial_connect`. -/
  connects : List Bool
  /-- Requests replayed by `ptlrpc_replay_req` and not yet interpreted. -/
  replays : Nat
  /-- Locks replayed by `replay_one_lock` and not yet interpreted. -/
  lockReplays : Nat
  /-- "Replay completed" pings of `signal_completed_replay` in flight. -/
  pings : Nat
  /-- Invalidate threads started by `kthread_run` and not yet running. -/
  spawned : Nat
  /-- Invalidate threads waiting in `ptlrpc_invalidate_import`. -/
  threadsInvalidating : Nat
  /-- Other callers waiting in `ptlrpc_invalidate_import`. -/
  othersInvalidating : Nat
  /-- `ptlrpc_disconnect_import` calls waiting for their DISCONNECT, each
  with its `noclose`. -/
  disconnects : List Bool
  deriving DecidableEq, Repr

/-- A new import with nothing in flight. -/
def ImportSystem.init : ImportSystem :=
  ⟨classNewImport, [], 0, 0, 0, 0, 0, 0, []⟩

/-- `IMPORT_SET_STATE` on the import. -/
def ImportSystem.setState (s : ImportSystem) (state : Option LustreImpState) : ImportSystem :=
  { s with imp := importSetState s.imp state }

theorem ImportSystem.setState_eq (s : ImportSystem) (state : Option LustreImpState) :
    s.setState state = { s with imp := importSetState s.imp state } := rfl

/-- What the calls this model does not embed return during one event. -/
structure Outcomes where
  /-- The rc of the first of `import_select_connection`,
  `sptlrpc_import_sec_adapt`, `obd_reconnect` and the packing of the request
  that fails in `ptlrpc_connect_import`, `0` when none does. -/
  connectRc : Int
  /-- `*inflight` of `ptlrpc_replay_next`: a request was replayed. -/
  replaySent : Bool
  /-- The locks `ldlm_replay_locks` replays. -/
  locksSent : Nat
  /-- The rc of `ldlm_replay_locks`. -/
  locksRc : Int
  /-- The PING of `signal_completed_replay` is allocated. -/
  pingAllocated : Bool
  /-- `kthread_run` of the invalidate thread: `0` or its `PTR_ERR`. -/
  threadRc : Int
  deriving DecidableEq, Repr

/-- `ptlrpc_connect_import`: the rc and the import after it.  A CONNECT sent
goes in flight with `pcaa_initial_connect`, set when no server handle is
known yet. -/
def ptlrpcConnectImport (o : Outcomes) (s : ImportSystem) : Int × ImportSystem :=
  if s.imp.impState = some .closed then (-einval, s)
  else if s.imp.impState = some .full then (0, s)
  else if s.imp.impState = some .connecting then (-ealready, s)
  else
    let initial := s.imp.impRemoteHandle == 0
    let imp := { importSetState s.imp (some .connecting) with
      impConnCnt := s.imp.impConnCnt + 1, impResendReplay := false }
    if o.connectRc ≠ 0 then (o.connectRc, { s with imp := importSetState imp (some .discon) })
    else
      (0,
        { s with
          imp := if initial then { imp with impReplayable := true } else imp
          connects := s.connects ++ [initial] })

/-! ## The recovery state machine -/

/-- `ptlrpc_replay_next`, for what it does to the import: the request it
replays, if any, goes in flight. -/
def ptlrpcReplayNext (o : Outcomes) (s : ImportSystem) : ImportSystem :=
  let s := { s with imp := { s.imp with impResendReplay := false } }
  if o.replaySent then
    { s with
      replays := s.replays + 1
      imp := { s.imp with impReplayInflight := s.imp.impReplayInflight + 1 } }
  else s

/-- `ldlm_replay_locks`, for what it does to the import: the rc, and the
locks it replays in flight; `none` is its `LASSERT`. -/
def ldlmReplayLocks (o : Outcomes) (s : ImportSystem) : Option (Int × ImportSystem) :=
  if s.imp.impReplayInflight ≠ 0 then none
  else if s.imp.impVbrFailed then some (0, s)
  else
    some (o.locksRc,
      { s with
        lockReplays := s.lockReplays + o.locksSent
        imp := { s.imp with impReplayInflight := s.imp.impReplayInflight + o.locksSent } })

/-- `signal_completed_replay`: the PING in flight, or `-ENOMEM`; `none` is
its `LASSERT`. -/
def signalCompletedReplay (o : Outcomes) (s : ImportSystem) : Option (Int × ImportSystem) :=
  if s.imp.impReplayInflight ≠ 0 then none
  else if o.pingAllocated then
    some (0,
      { s with
        pings := s.pings + 1
        imp := { s.imp with impReplayInflight := s.imp.impReplayInflight + 1 } })
  else some (-enomem, s)

/-- Where `ptlrpc_import_recovery_state_machine` is: still walking, or gone
to `out` with an rc. -/
inductive Phase
  | running (s : ImportSystem)
  | out (rc : Int) (s : ImportSystem)

/-- The next part of the walk, once the one before fell through. -/
def Phase.andThen : Option Phase → (ImportSystem → Option Phase) → Option Phase
  | some (.running s), next => next s
  | done, _ => done

/-- The rc and the import the walk returns. -/
def Phase.result : Phase → Int × ImportSystem
  | .running s => (0, s)
  | .out rc s => (rc, s)

/-- After a call with `result`: on with `0`, `GOTO(out, rc)` otherwise. -/
def Phase.ofRc (result : Int × ImportSystem) : Phase :=
  if result.1 ≠ 0 then .out result.1 result.2 else .running result.2

/-- An evicted import: `imp_vbr_failed` is reset and an invalidate thread
started. -/
def evictedPhase (o : Outcomes) (s : ImportSystem) : Int × ImportSystem :=
  let s := { s with imp := { s.imp with impVbrFailed := false } }
  if o.threadRc = 0 then (0, { s with spawned := s.spawned + 1 }) else (o.threadRc, s)

/-- REPLAY: replay the next request; with none left and nothing in flight,
replay the locks. -/
def replayPhase (o : Outcomes) (s : ImportSystem) : Option Phase :=
  if s.imp.impState ≠ some .replay then some (.running s)
  else
    let s := ptlrpcReplayNext o s
    if !o.replaySent && s.imp.impReplayInflight = 0 then
      (ldlmReplayLocks o (s.setState (some .replayLocks))).map Phase.ofRc
    else some (.running s)

/-- REPLAY_LOCKS: with nothing in flight, tell the server that replay is
done. -/
def replayLocksPhase (o : Outcomes) (s : ImportSystem) : Option Phase :=
  if s.imp.impState = some .replayLocks ∧ s.imp.impReplayInflight = 0 then
    (signalCompletedReplay o (s.setState (some .replayWait))).map Phase.ofRc
  else some (.running s)

/-- REPLAY_WAIT: the PING came back. -/
def replayWaitPhase (s : ImportSystem) : ImportSystem :=
  if s.imp.impState = some .replayWait ∧ s.imp.impReplayInflight = 0 then
    s.setState (some .recover)
  else s

/-- RECOVER: resend, then FULL. -/
def recoverPhase (s : ImportSystem) : Phase :=
  if s.imp.impState = some .recover then
    let rc := ptlrpcResend s.imp
    if rc ≠ 0 then .out rc s
    else .running { s with imp := ptlrpcActivateImport (importSetState s.imp (some .full)) }
  else .running s

/-- `ptlrpc_import_recovery_state_machine`: the rc and the import after it. -/
def ptlrpcImportRecoveryStateMachine (o : Outcomes) (s : ImportSystem) :
    Option (Int × ImportSystem) :=
  if s.imp.impState = some .evicted then some (evictedPhase o s)
  else
    let replayed := Phase.andThen (replayPhase o s) (replayLocksPhase o)
    let waited := Phase.andThen replayed fun s => some (.running (replayWaitPhase s))
    (Phase.andThen waited fun s => some (recoverPhase s)).map Phase.result

/-! ## The CONNECT reply -/

/-- What `ptlrpc_connect_interpret` reads from a reply to CONNECT. -/
structure ConnectReply where
  /-- The `rc` the callback gets: the request's error, `0` for a reply. -/
  rc : Int
  /-- The checks of the reply before the state decision: `0`, or the rc
  they go to `out` with (no connect data, flags beyond those asked, an MDT of
  another version, no export, `ptlrpc_connect_set_flags`). -/
  checkRc : Int
  /-- `lustre_msg_get_op_flags(request->rq_repmsg)`. -/
  msgFlags : UInt32
  /-- `lustre_msg_get_handle(request->rq_repmsg)->cookie`. -/
  handle : UInt64
  /-- At `out` with `-EPROTO`: the reply holds connect data of another
  Lustre version. -/
  otherVersion : Bool
  deriving DecidableEq, Repr

/-- The `out` label of `ptlrpc_connect_interpret` with `rc`. -/
def connectOut (reply : ConnectReply) (rc : Int) (s : ImportSystem) : ImportSystem :=
  if rc = 0 then s
  else
    let s := s.setState (some .discon)
    let s := if rc = -eacces then
      { s with imp := ptlrpcDeactivateImport { s.imp with obdNoRecov := true } } else s
    if rc = -eproto ∧ reply.otherVersion then
      { s with imp := importSetState (ptlrpcDeactivateImport s.imp) (some .closed) }
    else s

/-- The `finish` label of `ptlrpc_connect_interpret`: the recovery state
machine, and a new CONNECT when it returns `-ENOTCONN`. -/
def connectFinish (o : Outcomes) (reply : ConnectReply) (s : ImportSystem) :
    Option ImportSystem :=
  (ptlrpcImportRecoveryStateMachine o s).map fun result =>
    if result.1 = -enotconn then (ptlrpcConnectImport o result.2).2
    else connectOut reply result.1 result.2

/-- The reply to the first CONNECT, with the server's handle and
`imp_replayable` recorded: REPLAY_LOCKS during recovery, FULL otherwise. -/
def connectInitial (o : Outcomes) (reply : ConnectReply) (s : ImportSystem) :
    Option ImportSystem :=
  connectFinish o reply
    (if reply.msgFlags &&& msgConnectRecovering ≠ 0 then s.setState (some .replayLocks)
     else { s with imp := ptlrpcActivateImport (importSetState s.imp (some .full)) })

/-- The reply to a reconnect (`MSG_CONNECT_RECONNECT`), with the server's
handle recorded and whether it `changed`. -/
def connectReconnected (o : Outcomes) (reply : ConnectReply) (changed : Bool)
    (s : ImportSystem) : Option ImportSystem :=
  -- a changed handle outside recovery: the server evicted this client
  if changed ∧ reply.msgFlags &&& msgConnectRecovering = 0 then
    connectFinish o reply (s.setState (some .evicted))
  else if s.imp.impInvalid then connectFinish o reply (s.setState (some .evicted))
  else if reply.msgFlags &&& msgConnectRecovering ≠ 0 then
    connectFinish o reply
      ({ s with imp := { s.imp with impResendReplay := true } }.setState s.imp.impReplayState)
  else connectFinish o reply (s.setState (some .recover))

/-- `ptlrpc_connect_interpret` of a CONNECT sent with `initial`; `none` is
its `LASSERT(imp->imp_replayable)`. -/
def ptlrpcConnectInterpret (o : Outcomes) (initial : Bool) (reply : ConnectReply)
    (s : ImportSystem) : Option ImportSystem :=
  if s.imp.impState = some .closed then some s
  else if reply.rc ≠ 0 then some (connectOut reply reply.rc s)
  else if reply.checkRc ≠ 0 then some (connectOut reply reply.checkRc s)
  else if initial then
    connectInitial o reply { s with imp := { s.imp with
      impReplayable := reply.msgFlags &&& msgConnectReplayable ≠ 0,
      impRemoteHandle := reply.handle } }
  else if reply.msgFlags &&& msgConnectReconnect ≠ 0 then
    if reply.handle = 0 then some (connectOut reply (-enotconn) s)
    else
      -- the handle is set when it changed; when it did not, setting it changes nothing
      connectReconnected o reply (s.imp.impRemoteHandle ≠ reply.handle)
        { s with imp := { s.imp with impRemoteHandle := reply.handle } }
  else if reply.msgFlags &&& msgConnectRecovering ≠ 0 ∧ ¬ s.imp.impInvalid then
    if ¬ s.imp.impReplayable then none
    else
      connectFinish o reply
        ({ s with imp := { s.imp with impRemoteHandle := reply.handle } }.setState (some .replay))
  else
    connectFinish o reply
      ({ s with imp := { s.imp with impRemoteHandle := reply.handle } }.setState (some .evicted))

/-! ## The other callbacks and calls -/

/-- What `ptlrpc_replay_interpret` reads from the reply to a replayed
request. -/
inductive ReplayReply
  /-- No reply, a timed-out bulk, or `-ENOTCONN` or `-ENODEV` from the
  server, with the rc. -/
  | failed (rc : Int)
  /-- A reply: whether the server reports `-EOVERFLOW` (version recovery
  failed), and the rc of the transno check after it. -/
  | replied (overflow : Bool) (rc : Int)
  deriving DecidableEq, Repr

/-- `ptlrpc_replay_interpret`, for what it does to the import. -/
def ptlrpcReplayInterpret (o : Outcomes) (reply : ReplayReply) (s : ImportSystem) :
    Option ImportSystem :=
  let s := { s with
    replays := s.replays - 1
    imp := { s.imp with impReplayInflight := s.imp.impReplayInflight - 1 } }
  match reply with
  | .failed _ => some (ptlrpcConnectImport o s).2
  | .replied overflow rc =>
    let s := if overflow then { s with imp := { s.imp with impVbrFailed := true } } else s
    if rc ≠ 0 then some (ptlrpcConnectImport o s).2
    else (ptlrpcImportRecoveryStateMachine o s).map fun result =>
      if result.1 ≠ 0 then (ptlrpcConnectImport o result.2).2 else result.2

/-- `replay_lock_interpret` with the rc of the lock's reply. -/
def replayLockInterpret (o : Outcomes) (rc : Int) (s : ImportSystem) : Option ImportSystem :=
  let s := { s with
    lockReplays := s.lockReplays - 1
    imp := { s.imp with impReplayInflight := s.imp.impReplayInflight - 1 } }
  if rc ≠ 0 then some (ptlrpcConnectImport o s).2
  else (ptlrpcImportRecoveryStateMachine o s).map Prod.snd

/-- `completed_replay_interpret` with whether the PING succeeded. -/
def completedReplayInterpret (o : Outcomes) (ok : Bool) (s : ImportSystem) :
    Option ImportSystem :=
  let s := { s with
    pings := s.pings - 1
    imp := { s.imp with impReplayInflight := s.imp.impReplayInflight - 1 } }
  if ok ∧ ¬ s.imp.impVbrFailed then (ptlrpcImportRecoveryStateMachine o s).map Prod.snd
  else some (ptlrpcConnectImport o s).2

/-- `ptlrpc_recover_import(imp, NULL, async)`: the rc and the import. -/
def ptlrpcRecoverImport (o : Outcomes) (s : ImportSystem) : Int × ImportSystem :=
  if s.imp.impState = some .new ∨ s.imp.impDeactive ∨ s.imp.impInvalCount ≠ 0 then
    (-einval, s)
  else
    let s := { s with imp := (ptlrpcSetImportDiscon 0 s.imp).2 }
    if s.imp.impState ≠ some .discon then
      (-ealready, { s with imp := { s.imp with impForceVerify := true } })
    else ptlrpcConnectImport o s

/-- `ptlrpc_request_handle_notconn` of a request sent on connection
`connCnt`. -/
def ptlrpcRequestHandleNotconn (o : Outcomes) (connCnt : UInt32) (s : ImportSystem) :
    ImportSystem :=
  let discon := ptlrpcSetImportDiscon connCnt s.imp
  let imp := discon.2
  if discon.1 then
    let s := { s with imp := if imp.impReplayable then imp else ptlrpcDeactivateImport imp }
    if s.imp.impDeactive then s else (ptlrpcConnectImport o s).2
  else s

/-- `ptlrpc_set_import_active(imp, active)`, up to the wait of the
invalidation when it deactivates. -/
def ptlrpcSetImportActive (o : Outcomes) (active : Bool) (s : ImportSystem) :
    Option ImportSystem :=
  if active then
    some (ptlrpcRecoverImport o { s with imp := { s.imp with impDeactive := false } }).2
  else
    (ptlrpcInvalidateImportBegin { s.imp with impDeactive := true }).map fun imp =>
      { s with imp := imp, othersInvalidating := s.othersInvalidating + 1 }

/-- The end of `ptlrpc_disconnect_import(imp, noclose)`: DISCON or CLOSED,
and no server handle. -/
def disconnectFinish (noclose : Bool) (s : ImportSystem) : ImportSystem :=
  let s := s.setState (if noclose then some .discon else some .closed)
  { s with imp := { s.imp with impRemoteHandle := 0 } }

/-- `ptlrpc_disconnect_import(imp, noclose)` after its wait for recovery:
`force` is `obd_force`, `known` whether `imp_connect_op` is a CONNECT it
knows, and `sent` whether the DISCONNECT request is allocated; a DISCONNECT
sent waits for its reply. -/
def ptlrpcDisconnectImport (noclose force known sent : Bool) (s : ImportSystem) :
    ImportSystem :=
  if force then disconnectFinish noclose s
  else if ¬ known then s
  else if s.imp.impState = some .full ∧ sent then
    { s.setState (some .connecting) with disconnects := s.disconnects ++ [noclose] }
  else disconnectFinish noclose s

/-! ## Runs -/

/-- What happens to an import next. -/
inductive ImportEvent
  /-- `ptlrpc_init_import`. -/
  | initImport
  /-- `ptlrpc_cleanup_imp`. -/
  | cleanupImp
  /-- `ptlrpc_import_enter_resend`. -/
  | enterResend
  /-- `ptlrpc_deactivate_import`. -/
  | deactivateImport
  /-- `ptlrpc_activate_import`. -/
  | activateImport
  /-- `ptlrpc_fail_import` for a request sent on connection `connCnt`. -/
  | failImport (connCnt : UInt32)
  /-- `ptlrpc_request_handle_notconn` for such a request. -/
  | handleNotconn (connCnt : UInt32)
  /-- `ptlrpc_connect_import`, or `ptlrpc_initiate_recovery`. -/
  | connectImport
  /-- The reply to the CONNECT at `index` of those in flight. -/
  | connectReply (index : Nat) (reply : ConnectReply)
  /-- The reply to a replayed request. -/
  | replayReply (reply : ReplayReply)
  /-- The reply to a replayed lock. -/
  | lockReplayReply (rc : Int)
  /-- The reply to the "replay completed" PING. -/
  | completedReplayReply (ok : Bool)
  /-- A caller enters `ptlrpc_invalidate_import`. -/
  | invalidateImport
  /-- The wait of such a caller, or of `ptlrpc_set_import_active(imp, 0)`,
  ends. -/
  | invalidateDone
  /-- An invalidate thread starts running. -/
  | threadStart
  /-- The wait of an invalidate thread ends: it sets RECOVER and runs the
  recovery state machine. -/
  | threadDone
  /-- `ptlrpc_set_import_active(imp, active)`. -/
  | setImportActive (active : Bool)
  /-- `ptlrpc_recover_import(imp, NULL, async)`. -/
  | recoverImport
  /-- `ptlrpc_disconnect_import(imp, noclose)`. -/
  | disconnectImport (noclose force known sent : Bool)
  /-- The reply to the DISCONNECT at `index` of those in flight. -/
  | disconnectDone (index : Nat)
  deriving DecidableEq, Repr

/-- One event, with what the calls the model does not embed return. -/
def ImportSystem.step (o : Outcomes) (s : ImportSystem) : ImportEvent → Option ImportSystem
  | .initImport => some { s with imp := ptlrpcInitImport s.imp }
  | .cleanupImp => some { s with imp := ptlrpcCleanupImp s.imp }
  | .enterResend => some { s with imp := ptlrpcImportEnterResend s.imp }
  | .deactivateImport => some { s with imp := ptlrpcDeactivateImport s.imp }
  | .activateImport => some { s with imp := ptlrpcActivateImport s.imp }
  | .failImport connCnt => some { s with imp := ptlrpcFailImport connCnt s.imp }
  | .handleNotconn connCnt => some (ptlrpcRequestHandleNotconn o connCnt s)
  | .connectImport => some (ptlrpcConnectImport o s).2
  | .connectReply index reply =>
    match s.connects[index]? with
    | some initial =>
      ptlrpcConnectInterpret o initial reply { s with connects := s.connects.eraseIdx index }
    | none => some s
  | .replayReply reply => ptlrpcReplayInterpret o reply s
  | .lockReplayReply rc => replayLockInterpret o rc s
  | .completedReplayReply ok => completedReplayInterpret o ok s
  | .invalidateImport =>
    (ptlrpcInvalidateImportBegin s.imp).map fun imp =>
      { s with imp := imp, othersInvalidating := s.othersInvalidating + 1 }
  | .invalidateDone =>
    some { s with
      imp := ptlrpcInvalidateImportEnd s.imp
      othersInvalidating := s.othersInvalidating - 1 }
  | .threadStart =>
    (ptlrpcInvalidateImportBegin s.imp).map fun imp =>
      { s with
        imp := imp
        spawned := s.spawned - 1
        threadsInvalidating := s.threadsInvalidating + 1 }
  | .threadDone =>
    let s := { s with
      imp := ptlrpcInvalidateImportEnd s.imp
      threadsInvalidating := s.threadsInvalidating - 1 }
    (ptlrpcImportRecoveryStateMachine o (s.setState (some .recover))).map Prod.snd
  | .setImportActive active => ptlrpcSetImportActive o active s
  | .recoverImport => some (ptlrpcRecoverImport o s).2
  | .disconnectImport noclose force known sent =>
    some (ptlrpcDisconnectImport noclose force known sent s)
  | .disconnectDone index =>
    match s.disconnects[index]? with
    | some noclose =>
      some (disconnectFinish noclose { s with disconnects := s.disconnects.eraseIdx index })
    | none => some s

/-- One event; after a failed `LASSERT` nothing more. -/
def ImportEvent.apply : Option ImportSystem → Outcomes × ImportEvent → Option ImportSystem
  | none, _ => none
  | some s, (o, event) => s.step o event

/-- A reply from a server that is replayable exactly when `server` holds,
and in recovery only if it is replayable. -/
def ServerReply (server : Bool) (reply : ConnectReply) : Prop :=
  (reply.msgFlags &&& msgConnectReplayable ≠ 0 ↔ server = true) ∧
    (reply.msgFlags &&& msgConnectRecovering ≠ 0 → server = true)

/-- The events the environment may offer: a reply or a thread only for one
in flight, and CONNECT replies from one server. -/
def ImportEvent.Allowed (server : Bool) : Option ImportSystem → Outcomes × ImportEvent → Prop
  | none, _ => False
  | some s, (_, .connectReply index reply) => index < s.connects.length ∧ ServerReply server reply
  | some s, (_, .replayReply _) => 0 < s.replays
  | some s, (_, .lockReplayReply _) => 0 < s.lockReplays
  | some s, (_, .completedReplayReply _) => 0 < s.pings
  | some s, (_, .invalidateDone) => 0 < s.othersInvalidating
  | some s, (_, .threadStart) => 0 < s.spawned
  | some s, (_, .threadDone) => 0 < s.threadsInvalidating
  | some s, (_, .disconnectDone index) => index < s.disconnects.length
  | some _, _ => True

/-! ## Where a reconnect resumes -/

/-- A state a reconnect during replay may resume at. -/
def Resumable (state : Option LustreImpState) : Prop :=
  state = some .replay ∨ state = some .replayLocks

/-- `imp_replay_state` is the zero of `OBD_ALLOC` or a state to resume at. -/
def ReplayShape (state : Option LustreImpState) : Prop :=
  state = none ∨ Resumable state

/-- A state whose setting sets `imp_replay_state` too. -/
def Resets (state : Option LustreImpState) : Prop :=
  state ≠ some .closed ∧ state ≠ some .new ∧ state ≠ some .discon ∧
    state ≠ some .connecting

theorem resets_iff (state : Option LustreImpState) :
    Resets state ↔ state ≠ some .closed ∧ state ≠ some .new ∧ state ≠ some .discon ∧
      state ≠ some .connecting := Iff.rfl

theorem Resumable.resets {state : Option LustreImpState} (resumable : Resumable state) :
    Resets state := by
  rcases resumable with replay | locks <;> simp [resets_iff, *]

theorem Resumable.ne_none {state : Option LustreImpState} (resumable : Resumable state) :
    state ≠ none := by
  rcases resumable with replay | locks <;> simp [*]

/-- Setting a state keeps `imp_replay_state` or makes it one to resume at. -/
theorem replayStateAfter_eq_or_resumable (current state : Option LustreImpState) :
    replayStateAfter current state = current ∨ Resumable (replayStateAfter current state) := by
  cases state with
  | none => simp [replayStateAfter_eq, Resumable]
  | some state => cases state <;> simp [replayStateAfter_eq, Resumable]

/-- Setting a state that resets it makes `imp_replay_state` one to resume at. -/
theorem resumable_replayStateAfter {state : Option LustreImpState} (resets : Resets state)
    (current : Option LustreImpState) : Resumable (replayStateAfter current state) := by
  obtain ⟨notClosed, notNew, notDiscon, notConnecting⟩ := resets
  cases state with
  | none => simp [replayStateAfter_eq, Resumable]
  | some state => cases state <;> simp_all [replayStateAfter_eq, Resumable]

/-- What the import's own fields satisfy. -/
structure ImportSound (imp : ObdImport) : Prop where
  /-- `imp_state` is never the zero of `OBD_ALLOC`. -/
  stateSet : imp.impState ≠ none
  /-- `imp_replay_state` is that zero or a state to resume at. -/
  replayShape : ReplayShape imp.impReplayState
  /-- Once a server handle is known, `imp_replay_state` has been set. -/
  handleResumable : imp.impRemoteHandle ≠ 0 → Resumable imp.impReplayState

/-- A change of the import alone that the rest of the system survives: the
new import is sound, resumes where the old one did or at a state to resume
at, has the same server handle and counters, and keeps or sets
`imp_replayable`. -/
structure ImportKeeps (imp imp' : ObdImport) : Prop where
  sound : ImportSound imp'
  replayState : imp'.impReplayState = imp.impReplayState ∨ Resumable imp'.impReplayState
  handle : imp'.impRemoteHandle = imp.impRemoteHandle
  inflight : imp'.impReplayInflight = imp.impReplayInflight
  invalCount : imp'.impInvalCount = imp.impInvalCount
  replayable : imp'.impReplayable = imp.impReplayable ∨ imp'.impReplayable = true

theorem ImportKeeps.trans {imp imp' imp'' : ObdImport} (first : ImportKeeps imp imp')
    (second : ImportKeeps imp' imp'') : ImportKeeps imp imp'' where
  sound := second.sound
  replayState := by
    rcases second.replayState with same | resumable
    · rw [same]; exact first.replayState
    · exact Or.inr resumable
  handle := second.handle.trans first.handle
  inflight := second.inflight.trans first.inflight
  invalCount := second.invalCount.trans first.invalCount
  replayable := by
    rcases second.replayable with same | set
    · rw [same]; exact first.replayable
    · exact Or.inr set

theorem ImportKeeps.resumable {imp imp' : ObdImport} (keeps : ImportKeeps imp imp')
    (resumable : Resumable imp.impReplayState) : Resumable imp'.impReplayState :=
  keeps.replayState.elim (fun same => same ▸ resumable) id

/-- A change of flags and counters `Safe` does not read. -/
theorem ImportKeeps.of_same {imp imp' : ObdImport} (sound : ImportSound imp)
    (state : imp'.impState = imp.impState) (replayState : imp'.impReplayState = imp.impReplayState)
    (handle : imp'.impRemoteHandle = imp.impRemoteHandle)
    (inflight : imp'.impReplayInflight = imp.impReplayInflight)
    (invalCount : imp'.impInvalCount = imp.impInvalCount)
    (replayable : imp'.impReplayable = imp.impReplayable) : ImportKeeps imp imp' where
  sound := ⟨state ▸ sound.stateSet, replayState ▸ sound.replayShape,
    fun known => replayState ▸ sound.handleResumable (handle ▸ known)⟩
  replayState := Or.inl replayState
  handle := handle
  inflight := inflight
  invalCount := invalCount
  replayable := Or.inl replayable

theorem ImportKeeps.refl {imp : ObdImport} (sound : ImportSound imp) : ImportKeeps imp imp :=
  .of_same sound rfl rfl rfl rfl rfl rfl

section Import

variable {imp : ObdImport}

/-- `IMPORT_SET_STATE` to any state but the zero. -/
theorem importKeeps_setState (sound : ImportSound imp) {state : Option LustreImpState}
    (valid : state ≠ none) : ImportKeeps imp (importSetState imp state) := by
  rw [importSetState_eq]
  split
  · exact .refl sound
  · have shape : ReplayShape (replayStateAfter imp.impReplayState state) := by
      rcases replayStateAfter_eq_or_resumable imp.impReplayState state with same | resumable
      · rw [same]; exact sound.replayShape
      · exact Or.inr resumable
    exact ⟨⟨valid, shape, fun known =>
        (replayStateAfter_eq_or_resumable _ state).elim
          (fun same => same ▸ sound.handleResumable known) id⟩,
      replayStateAfter_eq_or_resumable _ state, rfl, rfl, rfl, Or.inl rfl⟩

/-- On an import that is not CLOSED, a state that resets `imp_replay_state`
makes it one to resume at. -/
theorem resumable_importSetState (notClosed : imp.impState ≠ some .closed)
    {state : Option LustreImpState} (resets : Resets state) :
    Resumable (importSetState imp state).impReplayState := by
  simp only [importSetState_eq, notClosed, if_false]
  exact resumable_replayStateAfter resets _

theorem importKeeps_deactivate (sound : ImportSound imp) :
    ImportKeeps imp (ptlrpcDeactivateImport imp) :=
  .of_same sound rfl rfl rfl rfl rfl rfl

theorem importKeeps_activate (sound : ImportSound imp) :
    ImportKeeps imp (ptlrpcActivateImport imp) := by
  unfold ptlrpcActivateImport
  split
  · exact .refl sound
  · exact .of_same sound rfl rfl rfl rfl rfl rfl

theorem importKeeps_setImportDiscon (sound : ImportSound imp) (connCnt : UInt32) :
    ImportKeeps imp (ptlrpcSetImportDiscon connCnt imp).2 := by
  unfold ptlrpcSetImportDiscon
  split
  · exact importKeeps_setState sound (by simp)
  · exact .refl sound

/-- A non-replayable import is deactivated when it loses its connection. -/
theorem importKeeps_deactivateUnlessReplayable (sound : ImportSound imp) :
    ImportKeeps imp (if imp.impReplayable then imp else ptlrpcDeactivateImport imp) := by
  split
  · exact .refl sound
  · exact importKeeps_deactivate sound

theorem importKeeps_failImport (sound : ImportSound imp) (connCnt : UInt32) :
    ImportKeeps imp (ptlrpcFailImport connCnt imp) := by
  have discon := importKeeps_setImportDiscon sound connCnt
  -- a replayable import only loses its connection; another is deactivated too
  have deactivated := discon.trans (importKeeps_deactivateUnlessReplayable discon.sound)
  unfold ptlrpcFailImport
  dsimp only
  split
  · exact deactivated.trans (.of_same deactivated.sound rfl rfl rfl rfl rfl rfl)
  · exact discon

theorem importKeeps_initImport (sound : ImportSound imp) :
    ImportKeeps imp (ptlrpcInitImport imp) :=
  ⟨⟨by simp [ptlrpcInitImport], sound.replayShape, sound.handleResumable⟩,
    Or.inl rfl, rfl, rfl, rfl, Or.inl rfl⟩

theorem importKeeps_cleanupImp (sound : ImportSound imp) :
    ImportKeeps imp (ptlrpcCleanupImp imp) :=
  (importKeeps_setState sound (by simp)).trans
    (.of_same (importKeeps_setState sound (by simp)).sound rfl rfl rfl rfl rfl rfl)

/-- The part of `ptlrpc_invalidate_import` before its wait counts one more
caller and leaves the import invalid. -/
theorem invalidateImportBegin_spec (sound : ImportSound imp) :
    ∃ imp', ptlrpcInvalidateImportBegin imp = some imp' ∧ imp'.impInvalid = true ∧
      ImportKeeps { imp with impInvalCount := imp.impInvalCount + 1 } imp' := by
  have counted : ImportSound { imp with impInvalCount := imp.impInvalCount + 1 } :=
    ⟨sound.stateSet, sound.replayShape, sound.handleResumable⟩
  unfold ptlrpcInvalidateImportBegin
  by_cases valid : !imp.impInvalid || imp.obdNoRecov
  · exact ⟨_, by simp [valid, ptlrpcDeactivateImport], rfl, importKeeps_deactivate counted⟩
  · have invalid : imp.impInvalid = true ∧ imp.obdNoRecov = false := by simpa using valid
    exact ⟨{ imp with impInvalCount := imp.impInvalCount + 1 }, by simp [invalid.1, invalid.2],
      invalid.1, .refl counted⟩

end Import

/-! ## What every reachable import satisfies -/

/-- What every import a run reaches satisfies, with a server that is
replayable exactly when `server` holds. -/
structure Safe (server : Bool) (s : ImportSystem) : Prop where
  sound : ImportSound s.imp
  /-- A CONNECT in flight that is not initial was sent once
  `imp_replay_state` was set. -/
  connectsResumable : false ∈ s.connects → Resumable s.imp.impReplayState
  /-- `imp_replay_inflight` counts the replays, lock replays and pings in
  flight. -/
  replayInflight : s.imp.impReplayInflight = s.replays + s.lockReplays + s.pings
  /-- `imp_inval_count` counts the callers waiting in
  `ptlrpc_invalidate_import`. -/
  invalCount : s.imp.impInvalCount = s.threadsInvalidating + s.othersInvalidating
  /-- With a replayable server, `imp_replayable` is clear only before the
  first CONNECT reply: no server handle is known and no CONNECT in flight is
  not initial. -/
  replayableServer : s.imp.impReplayable = false → server = true →
    s.imp.impRemoteHandle = 0 ∧ false ∉ s.connects

/-- Where `ptlrpc_import_recovery_state_machine` is, whether still walking
or left. -/
def Phase.state : Phase → ImportSystem
  | .running s => s
  | .out _ s => s

section System

variable {server : Bool} {s : ImportSystem}

theorem Safe.withImp (safe : Safe server s) {imp : ObdImport} (keeps : ImportKeeps s.imp imp) :
    Safe server { s with imp := imp } where
  sound := keeps.sound
  connectsResumable pending := keeps.resumable (safe.connectsResumable pending)
  replayInflight := keeps.inflight.trans safe.replayInflight
  invalCount := keeps.invalCount.trans safe.invalCount
  replayableServer cleared serverOn := by
    rcases keeps.replayable with same | set
    · obtain ⟨noHandle, noReconnect⟩ := safe.replayableServer (same ▸ cleared) serverOn
      exact ⟨keeps.handle.trans noHandle, noReconnect⟩
    · simp_all

theorem Safe.setState (safe : Safe server s) {state : Option LustreImpState}
    (valid : state ≠ none) : Safe server (s.setState state) :=
  safe.withImp (importKeeps_setState safe.sound valid)

/-- A CONNECT sent: one that is not initial finds `imp_replay_state` set. -/
theorem Safe.sendConnect (safe : Safe server s) {initial : Bool}
    (resumes : initial = false → Resumable s.imp.impReplayState)
    (known : initial = false → s.imp.impReplayable = false → server = true → False) :
    Safe server { s with connects := s.connects ++ [initial] } where
  sound := safe.sound
  connectsResumable pending := by
    rcases List.mem_append.mp pending with old | new
    · exact safe.connectsResumable old
    · have initialFalse : initial = false := by simpa [eq_comm] using new
      exact resumes initialFalse
  replayInflight := safe.replayInflight
  invalCount := safe.invalCount
  replayableServer cleared serverOn := by
    obtain ⟨noHandle, noReconnect⟩ := safe.replayableServer cleared serverOn
    refine ⟨noHandle, fun pending => ?_⟩
    rcases List.mem_append.mp pending with old | new
    · exact noReconnect old
    · exact known (by simpa [eq_comm] using new) cleared serverOn

theorem Safe.connectImport (safe : Safe server s) (o : Outcomes) :
    Safe server (ptlrpcConnectImport o s).2 := by
  unfold ptlrpcConnectImport
  split
  · exact safe
  split
  · exact safe
  split
  · exact safe
  next notClosed _ _ =>
  -- the import goes CONNECTING and counts the CONNECT
  have connecting :=
    importKeeps_setState safe.sound (show some LustreImpState.connecting ≠ none by simp)
  have counted : ImportKeeps s.imp { importSetState s.imp (some .connecting) with
      impConnCnt := s.imp.impConnCnt + 1, impResendReplay := false } :=
    connecting.trans (.of_same connecting.sound rfl rfl rfl rfl rfl rfl)
  dsimp only
  split
  · exact safe.withImp (counted.trans (importKeeps_setState counted.sound (by simp)))
  · -- the CONNECT goes in flight, initial when no server handle is known
    have replayable : ImportKeeps s.imp (if (s.imp.impRemoteHandle == 0) = true
        then { importSetState s.imp (some .connecting) with
          impConnCnt := s.imp.impConnCnt + 1, impResendReplay := false, impReplayable := true }
        else { importSetState s.imp (some .connecting) with
          impConnCnt := s.imp.impConnCnt + 1, impResendReplay := false }) := by
      split
      · exact counted.trans ⟨⟨counted.sound.stateSet, counted.sound.replayShape,
          counted.sound.handleResumable⟩, Or.inl rfl, rfl, rfl, rfl, Or.inr rfl⟩
      · exact counted
    have known :
        s.imp.impRemoteHandle ≠ 0 → s.imp.impReplayable = false → server = true → False :=
      fun known cleared serverOn => known (safe.replayableServer cleared serverOn).1
    refine (safe.withImp replayable).sendConnect
      (fun notInitial =>
        replayable.resumable (safe.sound.handleResumable (by simpa using notInitial)))
      fun notInitial cleared serverOn => known (by simpa using notInitial) ?_ serverOn
    simpa [notInitial] using cleared

/-- Counters that change together, with the fields of the import `Safe`
reads otherwise the same. -/
theorem Safe.recount (safe : Safe server s) {s' : ImportSystem}
    (state : s'.imp.impState = s.imp.impState)
    (replayState : s'.imp.impReplayState = s.imp.impReplayState)
    (handle : s'.imp.impRemoteHandle = s.imp.impRemoteHandle) (connects : s'.connects = s.connects)
    (replayable : s'.imp.impReplayable = s.imp.impReplayable)
    (inflight : s'.imp.impReplayInflight = s'.replays + s'.lockReplays + s'.pings)
    (invalCount : s'.imp.impInvalCount = s'.threadsInvalidating + s'.othersInvalidating) :
    Safe server s' where
  sound := ⟨state ▸ safe.sound.stateSet, replayState ▸ safe.sound.replayShape,
    fun known => replayState ▸ safe.sound.handleResumable (handle ▸ known)⟩
  connectsResumable pending := replayState ▸ safe.connectsResumable (connects ▸ pending)
  replayInflight := inflight
  invalCount := invalCount
  replayableServer cleared serverOn := by
    obtain ⟨noHandle, noReconnect⟩ := safe.replayableServer (replayable ▸ cleared) serverOn
    exact ⟨handle.trans noHandle, connects ▸ noReconnect⟩

theorem Safe.replayNext (safe : Safe server s) (o : Outcomes) :
    Safe server (ptlrpcReplayNext o s) := by
  unfold ptlrpcReplayNext
  dsimp only
  split
  · exact safe.recount rfl rfl rfl rfl rfl (by simp [safe.replayInflight]; omega) safe.invalCount
  · exact safe.recount rfl rfl rfl rfl rfl safe.replayInflight safe.invalCount

/-- `ldlm_replay_locks` with nothing in flight passes its `LASSERT`. -/
theorem Safe.ldlmReplayLocks (safe : Safe server s) (o : Outcomes)
    (idle : s.imp.impReplayInflight = 0) :
    ∃ r, ldlmReplayLocks o s = some r ∧ Safe server r.2 := by
  have nothing : s.replays + s.lockReplays + s.pings = 0 := safe.replayInflight ▸ idle
  unfold Import.ldlmReplayLocks
  simp only [idle, ne_eq, not_true_eq_false, if_false]
  split
  · exact ⟨_, rfl, safe⟩
  · exact ⟨_, rfl, safe.recount rfl rfl rfl rfl rfl (by simp; omega) safe.invalCount⟩

/-- `signal_completed_replay` with nothing in flight passes its `LASSERT`. -/
theorem Safe.signalCompletedReplay (safe : Safe server s) (o : Outcomes)
    (idle : s.imp.impReplayInflight = 0) :
    ∃ r, signalCompletedReplay o s = some r ∧ Safe server r.2 := by
  have nothing : s.replays + s.lockReplays + s.pings = 0 := safe.replayInflight ▸ idle
  unfold Import.signalCompletedReplay
  simp only [idle, ne_eq, not_true_eq_false, if_false]
  split
  · exact ⟨_, rfl, safe.recount rfl rfl rfl rfl rfl (by simp; omega) safe.invalCount⟩
  · exact ⟨_, rfl, safe⟩

theorem Phase.state_ofRc (result : Int × ImportSystem) : (Phase.ofRc result).state = result.2 := by
  unfold Phase.ofRc; split <;> rfl

theorem Phase.result_snd (p : Phase) : p.result.2 = p.state := by
  cases p <;> rfl

/-- A call that keeps `Safe` keeps it for the walk after it. -/
theorem Phase.safe_map_ofRc {x : Option (Int × ImportSystem)}
    (ran : ∃ r, x = some r ∧ Safe server r.2) :
    ∃ p, x.map Phase.ofRc = some p ∧ Safe server p.state := by
  obtain ⟨r, rfl, safe⟩ := ran
  exact ⟨_, rfl, (Phase.state_ofRc r) ▸ safe⟩

/-- Each part of the walk keeps `Safe`, so the walk does. -/
theorem Phase.safe_andThen {first : Option Phase} {next : ImportSystem → Option Phase}
    (ran : ∃ p, first = some p ∧ Safe server p.state)
    (step : ∀ s, Safe server s → ∃ p, next s = some p ∧ Safe server p.state) :
    ∃ p, Phase.andThen first next = some p ∧ Safe server p.state := by
  obtain ⟨p, rfl, safe⟩ := ran
  cases p with
  | running s => exact step s safe
  | out rc s => exact ⟨_, rfl, safe⟩

theorem Safe.evictedPhase (safe : Safe server s) (o : Outcomes) :
    Safe server (evictedPhase o s).2 := by
  unfold Import.evictedPhase
  dsimp only
  split
  · exact safe.recount rfl rfl rfl rfl rfl safe.replayInflight safe.invalCount
  · exact safe.recount rfl rfl rfl rfl rfl safe.replayInflight safe.invalCount

theorem Safe.replayPhase (safe : Safe server s) (o : Outcomes) :
    ∃ p, replayPhase o s = some p ∧ Safe server p.state := by
  unfold Import.replayPhase
  split
  · exact ⟨_, rfl, safe⟩
  · have next := safe.replayNext o
    dsimp only
    split
    · next idle =>
      -- no request left and nothing in flight: the locks are replayed
      have noneInFlight : (ptlrpcReplayNext o s).imp.impReplayInflight = 0 := by
        simp only [Bool.and_eq_true, Bool.not_eq_eq_eq_not, Bool.not_true,
          decide_eq_true_eq] at idle
        exact idle.2
      exact Phase.safe_map_ofRc
        ((next.setState (show some LustreImpState.replayLocks ≠ none by simp)).ldlmReplayLocks o
          (by simpa [ImportSystem.setState_eq] using noneInFlight))
    · exact ⟨_, rfl, next⟩

theorem Safe.replayLocksPhase (safe : Safe server s) (o : Outcomes) :
    ∃ p, replayLocksPhase o s = some p ∧ Safe server p.state := by
  unfold Import.replayLocksPhase
  split
  · next locks =>
    exact Phase.safe_map_ofRc
      ((safe.setState (show some LustreImpState.replayWait ≠ none by simp)).signalCompletedReplay
        o
        (by simpa [ImportSystem.setState_eq] using locks.2))
  · exact ⟨_, rfl, safe⟩

theorem Safe.replayWaitPhase (safe : Safe server s) : Safe server (replayWaitPhase s) := by
  unfold Import.replayWaitPhase
  split
  · exact safe.setState (by simp)
  · exact safe

theorem Safe.recoverPhase (safe : Safe server s) : Safe server (recoverPhase s).state := by
  unfold Import.recoverPhase
  split
  · dsimp only
    split
    · exact safe
    · have full := importKeeps_setState safe.sound (show some LustreImpState.full ≠ none by simp)
      exact safe.withImp (full.trans (importKeeps_activate full.sound))
  · exact safe

/-- The recovery state machine keeps `Safe`, and none of its `LASSERT`s
fails. -/
theorem Safe.recoveryStateMachine (safe : Safe server s) (o : Outcomes) :
    ∃ r, ptlrpcImportRecoveryStateMachine o s = some r ∧ Safe server r.2 := by
  unfold ptlrpcImportRecoveryStateMachine
  split
  · exact ⟨_, rfl, safe.evictedPhase o⟩
  · have replayed := Phase.safe_andThen (safe.replayPhase o) fun _ safe => safe.replayLocksPhase o
    have waited := Phase.safe_andThen replayed fun s safe =>
      ⟨.running (Import.replayWaitPhase s), rfl, safe.replayWaitPhase⟩
    obtain ⟨p, walked, safe'⟩ :=
      Phase.safe_andThen waited fun _ safe => ⟨_, rfl, safe.recoverPhase⟩
    exact ⟨p.result, by simp only [walked, Option.map_some], (Phase.result_snd p) ▸ safe'⟩

theorem Safe.connectOut (safe : Safe server s) (reply : ConnectReply) (rc : Int) :
    Safe server (connectOut reply rc s) := by
  unfold Import.connectOut
  split
  · exact safe
  · have discon := safe.setState (show some LustreImpState.discon ≠ none by simp)
    -- `-EACCES`: no more recovery, and the import is deactivated
    have denied : Safe server (if rc = -eacces then { s.setState (some .discon) with
        imp := ptlrpcDeactivateImport { (s.setState (some .discon)).imp with obdNoRecov := true } }
        else s.setState (some .discon)) := by
      split
      · have unrecoverable : ImportKeeps (s.setState (some .discon)).imp
            { (s.setState (some .discon)).imp with obdNoRecov := true } :=
          .of_same discon.sound rfl rfl rfl rfl rfl rfl
        exact discon.withImp (unrecoverable.trans (importKeeps_deactivate unrecoverable.sound))
      · exact discon
    dsimp only
    split
    · exact denied.withImp ((importKeeps_deactivate denied.sound).trans
        (importKeeps_setState (importKeeps_deactivate denied.sound).sound (by simp)))
    · exact denied

theorem Safe.connectFinish (safe : Safe server s) (o : Outcomes) (reply : ConnectReply) :
    ∃ s', connectFinish o reply s = some s' ∧ Safe server s' := by
  obtain ⟨r, ran, safe'⟩ := safe.recoveryStateMachine o
  refine ⟨if r.1 = -enotconn then (ptlrpcConnectImport o r.2).2
      else Import.connectOut reply r.1 r.2,
    by rw [Import.connectFinish, ran]; rfl, ?_⟩
  split
  · exact safe'.connectImport o
  · exact safe'.connectOut reply r.1

/-- A new import, not CLOSED, that is then set to a state that sets
`imp_replay_state` too: its server handle and `imp_replay_state` no longer
matter. -/
theorem Safe.setResets (safe : Safe server s) (imp : ObdImport)
    (notClosed : imp.impState ≠ some .closed) (state : Option LustreImpState)
    (resets : Resets state) (valid : state ≠ none)
    (inflight : imp.impReplayInflight = s.imp.impReplayInflight)
    (invalCount : imp.impInvalCount = s.imp.impInvalCount)
    (replayable : imp.impReplayable = false → server = true →
      imp.impRemoteHandle = 0 ∧ false ∉ s.connects) :
    Safe server ({ s with imp := imp }.setState state) := by
  have resumable := resumable_importSetState notClosed resets
  refine ⟨⟨?_, Or.inr resumable, fun _ => resumable⟩, fun _ => resumable, ?_, ?_, ?_⟩
  · simp [ImportSystem.setState_eq, importSetState_eq, notClosed, valid]
  · simp [ImportSystem.setState_eq, inflight, safe.replayInflight]
  · simp [ImportSystem.setState_eq, invalCount, safe.invalCount]
  · simpa [ImportSystem.setState_eq] using replayable

/-- The answer of a replayable server sets `imp_replayable`, that of another
clears it. -/
theorem ServerReply.replayable {reply : ConnectReply} (answer : ServerReply server reply) :
    decide (reply.msgFlags &&& msgConnectReplayable ≠ 0) = false → server = false := by
  intro cleared
  cases server
  · rfl
  · exact absurd (answer.1.mpr rfl) (by simpa using cleared)

/-- The reply to the first CONNECT keeps `Safe`. -/
theorem Safe.connectInitial (safe : Safe server s) (o : Outcomes) (reply : ConnectReply)
    (notClosed : s.imp.impState ≠ some .closed) (answer : ServerReply server reply) :
    ∃ s', connectInitial o reply { s with imp := { s.imp with
      impReplayable := reply.msgFlags &&& msgConnectReplayable ≠ 0,
      impRemoteHandle := reply.handle } } = some s' ∧ Safe server s' := by
  have answered := safe.setResets { s.imp with
    impReplayable := reply.msgFlags &&& msgConnectReplayable ≠ 0,
    impRemoteHandle := reply.handle } notClosed
  -- the flag now says what the server is
  have told : decide (reply.msgFlags &&& msgConnectReplayable ≠ 0) = false → server = true →
      reply.handle = 0 ∧ false ∉ s.connects :=
    fun cleared serverOn => absurd (answer.replayable cleared) (by simp [serverOn])
  apply Safe.connectFinish _ o reply
  split
  · exact answered (some .replayLocks) (by simp [resets_iff]) (by simp) rfl rfl told
  · have full := answered (some .full) (by simp [resets_iff]) (by simp) rfl rfl told
    exact full.withImp (importKeeps_activate full.sound)

/-- The reply to a reconnect keeps `Safe`: every state it sets resets
`imp_replay_state`, and a reconnect during replay resumes at one set before. -/
theorem Safe.connectReconnected (safe : Safe server s) (o : Outcomes) (reply : ConnectReply)
    (notClosed : s.imp.impState ≠ some .closed) (resumable : Resumable s.imp.impReplayState)
    (known : s.imp.impReplayable = false → server = true → False)
    (changed : Bool) (handle : UInt64) :
    ∃ s', connectReconnected o reply changed
      { s with imp := { s.imp with impRemoteHandle := handle } } = some s' ∧ Safe server s' := by
  -- with the handle recorded, each state set resets `imp_replay_state`
  have answered := safe.setResets { s.imp with impRemoteHandle := handle } notClosed
  -- and `imp_replayable` stays as it was: set, or clear with a non-replayable server
  have unknown (imp : ObdImport) (same : imp.impReplayable = s.imp.impReplayable) :
      imp.impReplayable = false → server = true → imp.impRemoteHandle = 0 ∧ false ∉ s.connects :=
    fun cleared serverOn => (known (same ▸ cleared) serverOn).elim
  unfold Import.connectReconnected
  split
  · exact Safe.connectFinish
      (answered (some .evicted) (by simp [resets_iff]) (by simp) rfl rfl (unknown _ rfl)) o reply
  split
  · exact Safe.connectFinish
      (answered (some .evicted) (by simp [resets_iff]) (by simp) rfl rfl (unknown _ rfl)) o reply
  split
  · exact Safe.connectFinish
      (safe.setResets { s.imp with impRemoteHandle := handle, impResendReplay := true } notClosed
        _ resumable.resets resumable.ne_none rfl rfl (unknown _ rfl)) o reply
  · exact Safe.connectFinish
      (answered (some .recover) (by simp [resets_iff]) (by simp) rfl rfl (unknown _ rfl)) o reply

/-- `ptlrpc_connect_interpret` keeps `Safe`: a reconnect during replay
resumes at a state set before, and its `LASSERT(imp->imp_replayable)` holds
with a server that is in recovery only if it is replayable. -/
theorem Safe.connectInterpret (safe : Safe server s) (o : Outcomes) {initial : Bool}
    {reply : ConnectReply} (resumes : initial = false → Resumable s.imp.impReplayState)
    (known : initial = false → s.imp.impReplayable = false → server = true → False)
    (answer : ServerReply server reply) :
    ∃ s', ptlrpcConnectInterpret o initial reply s = some s' ∧ Safe server s' := by
  have answered := safe.setResets { s.imp with impRemoteHandle := reply.handle }
  unfold ptlrpcConnectInterpret
  split
  · exact ⟨_, rfl, safe⟩
  next notClosed =>
  split
  · exact ⟨_, rfl, safe.connectOut reply _⟩
  split
  · exact ⟨_, rfl, safe.connectOut reply _⟩
  split
  · exact safe.connectInitial o reply notClosed answer
  next notInitial =>
  have resumable := resumes (by simpa using notInitial)
  have known := known (by simpa using notInitial)
  split
  · -- a reconnect: the server knew this client
    split
    · exact ⟨_, rfl, safe.connectOut reply _⟩
    · exact safe.connectReconnected o reply notClosed resumable known _ reply.handle
  split
  · -- a server in recovery that does not know this client: replay
    next recovering =>
    split
    · next notReplayable =>
      -- `LASSERT(imp->imp_replayable)`: this server is replayable
      have fromServer := answer.2 recovering.1
      have cleared : s.imp.impReplayable = false := by simpa using notReplayable
      exact (known cleared fromServer).elim
    · exact Safe.connectFinish
        (answered notClosed (some .replay) (by simp [resets_iff]) (by simp) rfl rfl
          fun cleared serverOn => (known cleared serverOn).elim) o reply
  · -- evicted
    exact Safe.connectFinish
      (answered notClosed (some .evicted) (by simp [resets_iff]) (by simp) rfl rfl
        fun cleared serverOn => (known cleared serverOn).elim) o reply

/-- The reply to one of the replayed requests in flight. -/
theorem Safe.replayInterpret (safe : Safe server s) (o : Outcomes) (reply : ReplayReply)
    (pending : 0 < s.replays) :
    ∃ s', ptlrpcReplayInterpret o reply s = some s' ∧ Safe server s' := by
  -- the reply is counted off `imp_replay_inflight`
  have answered : Safe server { s with
      replays := s.replays - 1
      imp := { s.imp with impReplayInflight := s.imp.impReplayInflight - 1 } } :=
    safe.recount rfl rfl rfl rfl rfl (by simp [safe.replayInflight]; omega) safe.invalCount
  unfold ptlrpcReplayInterpret
  cases reply with
  | failed rc => exact ⟨_, rfl, answered.connectImport o⟩
  | replied overflow rc =>
    -- `-EOVERFLOW` sets `imp_vbr_failed`, which `Safe` does not read
    have flagged (s₁ : ImportSystem) (safe₁ : Safe server s₁) : Safe server
        (if overflow then { s₁ with imp := { s₁.imp with impVbrFailed := true } }
          else s₁) := by
      split
      · exact safe₁.withImp (.of_same safe₁.sound rfl rfl rfl rfl rfl rfl)
      · exact safe₁
    have checked := flagged _ answered
    dsimp only
    split
    · exact ⟨_, rfl, checked.connectImport o⟩
    · obtain ⟨r, ran, safe'⟩ := checked.recoveryStateMachine o
      refine ⟨_, by rw [ran]; rfl, ?_⟩
      dsimp only
      split
      · exact safe'.connectImport o
      · exact safe'

/-- The reply to one of the replayed locks in flight. -/
theorem Safe.replayLockInterpret (safe : Safe server s) (o : Outcomes) (rc : Int)
    (pending : 0 < s.lockReplays) :
    ∃ s', replayLockInterpret o rc s = some s' ∧ Safe server s' := by
  have answered : Safe server { s with
      lockReplays := s.lockReplays - 1
      imp := { s.imp with impReplayInflight := s.imp.impReplayInflight - 1 } } :=
    safe.recount rfl rfl rfl rfl rfl (by simp [safe.replayInflight]; omega) safe.invalCount
  unfold Import.replayLockInterpret
  dsimp only
  split
  · exact ⟨_, rfl, answered.connectImport o⟩
  · obtain ⟨r, ran, safe'⟩ := answered.recoveryStateMachine o
    exact ⟨r.2, by rw [ran]; rfl, safe'⟩

/-- The reply to the "replay completed" PING in flight. -/
theorem Safe.completedReplayInterpret (safe : Safe server s) (o : Outcomes) (ok : Bool)
    (pending : 0 < s.pings) :
    ∃ s', completedReplayInterpret o ok s = some s' ∧ Safe server s' := by
  have answered : Safe server { s with
      pings := s.pings - 1
      imp := { s.imp with impReplayInflight := s.imp.impReplayInflight - 1 } } :=
    safe.recount rfl rfl rfl rfl rfl (by simp [safe.replayInflight]; omega) safe.invalCount
  unfold Import.completedReplayInterpret
  dsimp only
  split
  · obtain ⟨r, ran, safe'⟩ := answered.recoveryStateMachine o
    exact ⟨r.2, by rw [ran]; rfl, safe'⟩
  · exact ⟨_, rfl, answered.connectImport o⟩

theorem Safe.recoverImport (safe : Safe server s) (o : Outcomes) :
    Safe server (ptlrpcRecoverImport o s).2 := by
  unfold ptlrpcRecoverImport
  split
  · exact safe
  · have discon := safe.withImp (importKeeps_setImportDiscon safe.sound 0)
    dsimp only
    split
    · exact discon.withImp (.of_same discon.sound rfl rfl rfl rfl rfl rfl)
    · exact discon.connectImport o

theorem Safe.handleNotconn (safe : Safe server s) (o : Outcomes) (connCnt : UInt32) :
    Safe server (ptlrpcRequestHandleNotconn o connCnt s) := by
  have discon := importKeeps_setImportDiscon safe.sound connCnt
  -- an import still active reconnects at once
  have reconnect (s₁ : ImportSystem) (safe₁ : Safe server s₁) :
      Safe server (if s₁.imp.impDeactive then s₁ else (ptlrpcConnectImport o s₁).2) := by
    split
    · exact safe₁
    · exact safe₁.connectImport o
  unfold ptlrpcRequestHandleNotconn
  dsimp only
  split
  · exact reconnect _
      (safe.withImp (discon.trans (importKeeps_deactivateUnlessReplayable discon.sound)))
  · exact safe

/-- A caller that enters `ptlrpc_invalidate_import`, counted among those
waiting, passes its `LASSERT(imp->imp_invalid)`. -/
theorem Safe.invalidateImportBegin (safe : Safe server s) (waiting : ImportSystem)
    (imp : waiting.imp = { s.imp with impInvalCount := s.imp.impInvalCount + 1 })
    (connects : waiting.connects = s.connects)
    (inflight : waiting.replays + waiting.lockReplays + waiting.pings =
      s.replays + s.lockReplays + s.pings)
    (counted : waiting.threadsInvalidating + waiting.othersInvalidating =
      s.threadsInvalidating + s.othersInvalidating + 1) :
    ∃ imp', ptlrpcInvalidateImportBegin s.imp = some imp' ∧
      Safe server { waiting with imp := imp' } := by
  obtain ⟨imp', began, -, keeps⟩ := invalidateImportBegin_spec safe.sound
  have entered : Safe server waiting :=
    safe.recount (by rw [imp]) (by rw [imp]) (by rw [imp]) connects (by rw [imp])
      (by rw [imp, inflight]; exact safe.replayInflight)
      (by rw [imp, counted, safe.invalCount])
  exact ⟨imp', began, entered.withImp (imp ▸ keeps)⟩

theorem Safe.setImportActive (safe : Safe server s) (o : Outcomes) (active : Bool) :
    ∃ s', ptlrpcSetImportActive o active s = some s' ∧ Safe server s' := by
  -- `imp_deactive` is a flag `Safe` does not read
  have flagged (deactive : Bool) :
      Safe server { s with imp := { s.imp with impDeactive := deactive } } :=
    safe.withImp (.of_same safe.sound rfl rfl rfl rfl rfl rfl)
  unfold ptlrpcSetImportActive
  split
  · exact ⟨_, rfl, (flagged false).recoverImport o⟩
  · obtain ⟨imp', began, safe'⟩ := (flagged true).invalidateImportBegin
      { s with
        imp := { s.imp with impDeactive := true, impInvalCount := s.imp.impInvalCount + 1 }
        othersInvalidating := s.othersInvalidating + 1 }
      rfl rfl rfl (by simp only; omega)
    exact ⟨_, by rw [began]; rfl, safe'⟩

/-- Forgetting the server handle keeps `Safe`. -/
theorem Safe.forgetHandle (safe : Safe server s) :
    Safe server { s with imp := { s.imp with impRemoteHandle := 0 } } where
  sound := ⟨safe.sound.stateSet, safe.sound.replayShape, fun known => absurd rfl known⟩
  connectsResumable := safe.connectsResumable
  replayInflight := safe.replayInflight
  invalCount := safe.invalCount
  replayableServer cleared serverOn := ⟨rfl, (safe.replayableServer cleared serverOn).2⟩

theorem Safe.disconnectFinish (safe : Safe server s) (noclose : Bool) :
    Safe server (disconnectFinish noclose s) := by
  have valid : (if noclose then some LustreImpState.discon else some .closed) ≠ none := by
    split <;> simp
  exact (safe.setState valid).forgetHandle

theorem Safe.disconnectImport (safe : Safe server s) (noclose force known sent : Bool) :
    Safe server (ptlrpcDisconnectImport noclose force known sent s) := by
  unfold ptlrpcDisconnectImport
  split
  · exact safe.disconnectFinish noclose
  split
  · exact safe
  split
  · -- the DISCONNECT goes in flight, which `Safe` does not count
    have connecting := safe.setState (show some LustreImpState.connecting ≠ none by simp)
    exact connecting.recount rfl rfl rfl rfl rfl connecting.replayInflight connecting.invalCount
  · exact safe.disconnectFinish noclose

/-- A CONNECT reply taken off those in flight. -/
theorem Safe.eraseConnect (safe : Safe server s) (index : Nat) :
    Safe server { s with connects := s.connects.eraseIdx index } where
  sound := safe.sound
  connectsResumable pending := safe.connectsResumable (List.mem_of_mem_eraseIdx pending)
  replayInflight := safe.replayInflight
  invalCount := safe.invalCount
  replayableServer cleared serverOn :=
    ⟨(safe.replayableServer cleared serverOn).1,
      fun pending =>
        (safe.replayableServer cleared serverOn).2 (List.mem_of_mem_eraseIdx pending)⟩

/-- Every event the environment may offer fails no `LASSERT` and keeps
`Safe`. -/
theorem Safe.step (safe : Safe server s) {o : Outcomes} {event : ImportEvent}
    (allowed : ImportEvent.Allowed server (some s) (o, event)) :
    ∃ s', s.step o event = some s' ∧ Safe server s' := by
  cases event with
  | initImport => exact ⟨_, rfl, safe.withImp (importKeeps_initImport safe.sound)⟩
  | cleanupImp => exact ⟨_, rfl, safe.withImp (importKeeps_cleanupImp safe.sound)⟩
  | enterResend => exact ⟨_, rfl, safe.setState (by simp)⟩
  | deactivateImport => exact ⟨_, rfl, safe.withImp (importKeeps_deactivate safe.sound)⟩
  | activateImport => exact ⟨_, rfl, safe.withImp (importKeeps_activate safe.sound)⟩
  | failImport connCnt =>
    exact ⟨_, rfl, safe.withImp (importKeeps_failImport safe.sound connCnt)⟩
  | handleNotconn connCnt => exact ⟨_, rfl, safe.handleNotconn o connCnt⟩
  | connectImport => exact ⟨_, rfl, safe.connectImport o⟩
  | connectReply index reply =>
    obtain ⟨inRange, answer⟩ := allowed
    have sent := List.getElem_mem inRange
    simp only [ImportSystem.step, List.getElem?_eq_getElem inRange]
    -- what the CONNECT was sent with: `Safe` before the reply is taken off
    exact (safe.eraseConnect index).connectInterpret o
      (fun notInitial => safe.connectsResumable (notInitial ▸ sent))
      (fun notInitial cleared serverOn =>
        (safe.replayableServer cleared serverOn).2 (notInitial ▸ sent))
      answer
  | replayReply reply => exact safe.replayInterpret o reply allowed
  | lockReplayReply rc => exact safe.replayLockInterpret o rc allowed
  | completedReplayReply ok => exact safe.completedReplayInterpret o ok allowed
  | invalidateImport =>
    obtain ⟨imp', began, safe'⟩ := safe.invalidateImportBegin
      { s with
        imp := { s.imp with impInvalCount := s.imp.impInvalCount + 1 }
        othersInvalidating := s.othersInvalidating + 1 }
      rfl rfl rfl (by simp only; omega)
    exact ⟨_, by simp only [ImportSystem.step, began]; rfl, safe'⟩
  | invalidateDone =>
    refine ⟨_, rfl, safe.recount rfl rfl rfl rfl rfl safe.replayInflight ?_⟩
    simp only [ptlrpcInvalidateImportEnd, safe.invalCount]
    have pending : 0 < s.othersInvalidating := allowed
    omega
  | threadStart =>
    have pending : 0 < s.spawned := allowed
    obtain ⟨imp', began, safe'⟩ := safe.invalidateImportBegin
      { s with
        imp := { s.imp with impInvalCount := s.imp.impInvalCount + 1 }
        spawned := s.spawned - 1
        threadsInvalidating := s.threadsInvalidating + 1 }
      rfl rfl rfl (by simp only; omega)
    exact ⟨_, by simp only [ImportSystem.step, began]; rfl, safe'⟩
  | threadDone =>
    have pending : 0 < s.threadsInvalidating := allowed
    -- the thread leaves `ptlrpc_invalidate_import`, sets RECOVER and walks
    have done : Safe server { s with
        imp := ptlrpcInvalidateImportEnd s.imp
        threadsInvalidating := s.threadsInvalidating - 1 } := by
      refine safe.recount rfl rfl rfl rfl rfl safe.replayInflight ?_
      simp only [ptlrpcInvalidateImportEnd, safe.invalCount]
      omega
    have recovering := done.setState (show some LustreImpState.recover ≠ none by simp)
    obtain ⟨r, ran, safe'⟩ := recovering.recoveryStateMachine o
    exact ⟨r.2, by simp only [ImportSystem.step, ran, Option.map_some], safe'⟩
  | setImportActive active => exact safe.setImportActive o active
  | recoverImport => exact ⟨_, rfl, safe.recoverImport o⟩
  | disconnectImport noclose force known sent =>
    exact ⟨_, rfl, safe.disconnectImport noclose force known sent⟩
  | disconnectDone index =>
    have inRange : index < s.disconnects.length := allowed
    simp only [ImportSystem.step, List.getElem?_eq_getElem inRange]
    -- the DISCONNECT in flight is not one `Safe` counts
    have erased : Safe server { s with disconnects := s.disconnects.eraseIdx index } :=
      safe.recount rfl rfl rfl rfl rfl safe.replayInflight safe.invalCount
    exact ⟨_, rfl, erased.disconnectFinish s.disconnects[index]⟩

theorem safe_init (server : Bool) : Safe server ImportSystem.init where
  sound :=
    ⟨by simp [ImportSystem.init, classNewImport], Or.inl rfl, fun known => absurd rfl known⟩
  connectsResumable pending := absurd pending List.not_mem_nil
  replayInflight := rfl
  invalCount := rfl
  replayableServer _ _ := ⟨rfl, List.not_mem_nil⟩

end System

/-- Over every interleaving of the events the environment may offer, from a
new import and with CONNECT replies from one server, no `LASSERT` fails and
every import reached is `Safe`. -/
theorem safe_of_reachable {server : Bool} {state : Option ImportSystem}
    (reachable : Machine.Reachable ImportEvent.apply (ImportEvent.Allowed server)
      (some ImportSystem.init) state) :
    ∃ s, state = some s ∧ Safe server s := by
  refine reachable.invariant (fun state => ∃ s, state = some s ∧ Safe server s)
    ⟨_, rfl, safe_init server⟩ ?_
  rintro _ ⟨o, event⟩ ⟨s, rfl, safe⟩ allowed
  exact safe.step allowed

/-- A first CONNECT and the reply of a replayable server. -/
theorem safe_of_reachable_first_connect :
    ∃ s, ImportEvent.apply
      (ImportEvent.apply (some ImportSystem.init)
        ((⟨0, false, 0, 0, false, 0⟩ : Outcomes), .connectImport))
      ((⟨0, false, 0, 0, false, 0⟩ : Outcomes),
        .connectReply 0 (⟨0, 0, 0x4, 1, false⟩ : ConnectReply)) = some s ∧ Safe true s :=
  safe_of_reachable
    ((Machine.Reachable.start.step
      ((⟨0, false, 0, 0, false, 0⟩ : Outcomes), ImportEvent.connectImport) trivial).step
      ((⟨0, false, 0, 0, false, 0⟩ : Outcomes),
        .connectReply 0 (⟨0, 0, 0x4, 1, false⟩ : ConnectReply))
      (show 0 < 1 ∧ ServerReply true ⟨0, 0, 0x4, 1, false⟩ from
        ⟨by decide, by unfold ServerReply; decide⟩))

/-! ## A CLOSED import stays CLOSED -/

section Closed

variable {imp : ObdImport} {s : ImportSystem} (o : Outcomes)

theorem importSetState_of_closed (closed : imp.impState = some .closed)
    (state : Option LustreImpState) : importSetState imp state = imp := by
  simp [importSetState_eq, closed]

theorem ptlrpcSetImportDiscon_of_closed (closed : imp.impState = some .closed)
    (connCnt : UInt32) : ptlrpcSetImportDiscon connCnt imp = (false, imp) := by
  simp [ptlrpcSetImportDiscon, closed]

theorem ptlrpcConnectImport_of_closed (closed : s.imp.impState = some .closed) :
    ptlrpcConnectImport o s = (-einval, s) := by
  simp [ptlrpcConnectImport, closed]

/-- Every part of the walk passes a CLOSED import by. -/
theorem recoveryStateMachine_of_closed (closed : s.imp.impState = some .closed) :
    ptlrpcImportRecoveryStateMachine o s = some (0, s) := by
  simp [ptlrpcImportRecoveryStateMachine, Import.replayPhase, Import.replayLocksPhase,
    Import.replayWaitPhase, Import.recoverPhase, Phase.andThen, Phase.result, closed]

theorem invalidateImportBegin_state {imp' : ObdImport}
    (began : ptlrpcInvalidateImportBegin imp = some imp') : imp'.impState = imp.impState := by
  unfold ptlrpcInvalidateImportBegin at began
  obtain ⟨-, found⟩ := Option.ite_none_right_eq_some.mp began
  rw [← Option.some.inj found]
  split <;> rfl

theorem ptlrpcConnectInterpret_of_closed (closed : s.imp.impState = some .closed)
    (initial : Bool) (reply : ConnectReply) :
    ptlrpcConnectInterpret o initial reply s = some s := by
  simp [ptlrpcConnectInterpret, closed]

theorem ptlrpcRecoverImport_state (closed : s.imp.impState = some .closed) :
    (ptlrpcRecoverImport o s).2.imp.impState = some .closed := by
  unfold ptlrpcRecoverImport
  split
  · exact closed
  · simp [ptlrpcSetImportDiscon_of_closed closed, closed]

theorem disconnectFinish_state (closed : s.imp.impState = some .closed) (noclose : Bool) :
    (disconnectFinish noclose s).imp.impState = some .closed := by
  simp [Import.disconnectFinish, ImportSystem.setState_eq, importSetState_of_closed closed, closed]

/-- Every event but `ptlrpc_init_import` leaves a CLOSED import CLOSED. -/
theorem ImportSystem.step_closed (closed : s.imp.impState = some .closed)
    {event : ImportEvent} (notInit : event ≠ .initImport) {s' : ImportSystem}
    (stepped : s.step o event = some s') : s'.imp.impState = some .closed := by
  cases event with
  | initImport => exact absurd rfl notInit
  | cleanupImp =>
    cases stepped
    simp [ptlrpcCleanupImp, importSetState_of_closed closed, closed]
  | enterResend =>
    cases stepped
    simp [ptlrpcImportEnterResend, importSetState_of_closed closed, closed]
  | deactivateImport =>
    cases stepped
    exact closed
  | activateImport =>
    cases stepped
    unfold ptlrpcActivateImport
    split <;> exact closed
  | failImport connCnt =>
    cases stepped
    simp [ptlrpcFailImport, ptlrpcSetImportDiscon_of_closed closed, closed]
  | handleNotconn connCnt =>
    cases stepped
    simp [ptlrpcRequestHandleNotconn, ptlrpcSetImportDiscon_of_closed closed, closed]
  | connectImport =>
    cases stepped
    rw [ptlrpcConnectImport_of_closed o closed]
    exact closed
  | connectReply index reply =>
    simp only [ImportSystem.step] at stepped
    have erased : { s with connects := s.connects.eraseIdx index }.imp.impState = some .closed :=
      closed
    split at stepped
    · rw [ptlrpcConnectInterpret_of_closed o erased] at stepped
      cases stepped
      exact closed
    · cases stepped
      exact closed
  | replayReply reply =>
    -- the reply is counted off, and the import is passed by where it is
    cases reply with
    | failed rc =>
      simp [ImportSystem.step, ptlrpcReplayInterpret, ptlrpcConnectImport_of_closed, closed]
        at stepped
      subst stepped
      rfl
    | replied overflow rc =>
      cases overflow <;>
      · simp [ImportSystem.step, ptlrpcReplayInterpret, ptlrpcConnectImport_of_closed,
          recoveryStateMachine_of_closed, closed] at stepped
        subst stepped
        rfl
  | lockReplayReply rc =>
    simp [ImportSystem.step, Import.replayLockInterpret, ptlrpcConnectImport_of_closed,
      recoveryStateMachine_of_closed, closed] at stepped
    subst stepped
    rfl
  | completedReplayReply ok =>
    simp [ImportSystem.step, Import.completedReplayInterpret, ptlrpcConnectImport_of_closed,
      recoveryStateMachine_of_closed, closed] at stepped
    subst stepped
    rfl
  | invalidateImport =>
    obtain ⟨imp', began, rfl⟩ := Option.map_eq_some_iff.mp stepped
    exact (invalidateImportBegin_state began).trans closed
  | invalidateDone =>
    cases stepped
    exact closed
  | threadStart =>
    obtain ⟨imp', began, rfl⟩ := Option.map_eq_some_iff.mp stepped
    exact (invalidateImportBegin_state began).trans closed
  | threadDone =>
    -- RECOVER is not set on a CLOSED import, and the walk passes it by
    have ended : (ptlrpcInvalidateImportEnd s.imp).impState = some .closed := closed
    have walked : { s with
        imp := ptlrpcInvalidateImportEnd s.imp
        threadsInvalidating := s.threadsInvalidating - 1 }.imp.impState = some .closed := closed
    simp only [ImportSystem.step, ImportSystem.setState_eq, importSetState_of_closed ended] at stepped
    rw [recoveryStateMachine_of_closed o walked] at stepped
    cases stepped
    exact closed
  | setImportActive active =>
    cases active with
    | true =>
      cases stepped
      exact ptlrpcRecoverImport_state o closed
    | false =>
      obtain ⟨imp', began, rfl⟩ := Option.map_eq_some_iff.mp stepped
      exact (invalidateImportBegin_state began).trans closed
  | recoverImport =>
    cases stepped
    exact ptlrpcRecoverImport_state o closed
  | disconnectImport noclose force known sent =>
    cases stepped
    unfold ptlrpcDisconnectImport
    split
    · exact disconnectFinish_state closed noclose
    split
    · exact closed
    split
    · next full => simp [closed] at full
    · exact disconnectFinish_state closed noclose
  | disconnectDone index =>
    simp only [ImportSystem.step] at stepped
    split at stepped
    · cases stepped
      exact disconnectFinish_state closed _
    · cases stepped
      exact closed

/-- A CLOSED import, or the end of a run at a failed `LASSERT`. -/
def ClosedOrFailed : Option ImportSystem → Prop
  | none => True
  | some s => s.imp.impState = some .closed

end Closed

/-- Only `ptlrpc_init_import` may change the state of a CLOSED import: over
every run of other events it stays CLOSED. -/
theorem closed_of_reachable {s : ImportSystem} (closed : s.imp.impState = some .closed)
    {state : Option ImportSystem}
    (reachable : Machine.Reachable ImportEvent.apply (fun _ event => event.2 ≠ .initImport)
      (some s) state) :
    ClosedOrFailed state := by
  refine reachable.invariant ClosedOrFailed (show ClosedOrFailed (some s) from closed) ?_
  rintro (_ | s₁) ⟨o, event⟩ stays notInit
  · trivial
  · show ClosedOrFailed (s₁.step o event)
    cases stepped : s₁.step o event with
    | none => trivial
    | some s' => exact ImportSystem.step_closed o stays notInit stepped

/-- A CONNECT after `ptlrpc_cleanup_imp` finds the import CLOSED. -/
theorem closed_of_reachable_connect_after_cleanup :
    ClosedOrFailed (ImportEvent.apply
      (some { ImportSystem.init with imp := ptlrpcCleanupImp classNewImport })
      ((⟨0, false, 0, 0, false, 0⟩ : Outcomes), .connectImport)) :=
  closed_of_reachable (by decide) (Machine.Reachable.start.step _ (by decide))

end Import
end Lustre
