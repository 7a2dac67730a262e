import Mathlib.Logic.Function.Basic
import Lustre.Library.Credits
import Lustre.Library.Run

/-!
# Credits of LNet peers, interfaces and router buffers

LNet limits what is in flight with credits.  A message to send takes a tx
credit of its next-hop peer (`lp_txcredits`, waiting on `lp_txq`) and one of
the interface's tx queue (`tq_credits`, waiting on `tq_delayed`); a message a
router forwards takes a router credit of the peer it came from
(`lp_rtrcredits`, waiting on `lp_rtrq`) and a buffer of a router buffer pool
(`rbp_credits`, waiting on `rbp_msgs`).  Finalizing a message gives its
credits back and posts the first waiter again.

Each take and give asserts that the count is negative exactly when someone
waits.  The model uses `Credits.Pool` for the three pools with that
assertion; the buffer pool, which also counts its free buffers, is modelled
on its own.  `lnet_finalize` puts a message on `msc_finalizing`, and a
finalizer completes the messages on it one at a time: a message that a
credit return finalizes again is completed later, not inside the return.

The module proves that the tx credits of every peer and of the interface
stay balanced over every run, and that the router credits of every peer stay
balanced while routing is on, so that no credit assertion fails.  When
routing is switched off, `lnet_return_rx_credits_locked` gives back one
credit but drops every message waiting on the peer's `lp_rtrq`, each of
which still holds a credit; with two waiters the first of them to be
completed fails the assertion.
-/

namespace Lustre
namespace Lnet

/-! ## Peers, queues and messages -/

/-- `sizeof(lnet_hdr_t)`. -/
def lnetHdrSize : Nat := 72

/-- `LNET_CREDIT_OK`, `LNET_CREDIT_WAIT` and the errors of
`lnet_post_send_locked`. -/
inductive CreditResult
  | ok
  | wait
  | ehostunreach
  | ecanceled
  deriving DecidableEq, Repr

/-- The fields of `struct lnet_peer` that hold its credits. -/
structure LnetPeer where
  /-- `lp_txcredits` and `lp_txq`. -/
  lpTx : Credits.Pool Nat
  /-- `lp_txqnob`. -/
  lpTxqnob : Int
  /-- `lp_rtrcredits` and `lp_rtrq`. -/
  lpRtr : Credits.Pool Nat
  /-- What `lnet_peer_alive_locked` says. -/
  lpAlive : Bool
  deriving DecidableEq, Repr

/-- The fields of `struct lnet_rtrbufpool`. -/
structure LnetRtrbufpool where
  /-- `rbp_credits`. -/
  rbpCredits : Int
  /-- The number of buffers on `rbp_bufs`. -/
  rbpBufs : Nat
  /-- `rbp_msgs`: the messages waiting for a buffer. -/
  rbpMsgs : List Nat
  /-- `rbp_nbuffers`. -/
  rbpNbuffers : Nat
  /-- `rbp_req_nbuffers`. -/
  rbpReqNbuffers : Int
  deriving DecidableEq, Repr

/-- The fields of `struct lnet_msg` that the credit code reads. -/
structure LnetMsg where
  /-- `msg_txpeer`. -/
  msgTxpeer : Option Nat
  /-- `msg_rxpeer`. -/
  msgRxpeer : Option Nat
  /-- `msg_len`. -/
  msgLen : Nat
  /-- `(msg_target.pid & LNET_PID_USERFLAG) != 0`. -/
  msgTargetUser : Bool
  /-- The MD of the message has `LNET_MD_FLAG_ABORTED`. -/
  msgMdAborted : Bool
  /-- `msg_tx_committed`. -/
  msgTxCommitted : Bool
  /-- `msg_rx_committed`. -/
  msgRxCommitted : Bool
  /-- `msg_peertxcredit`. -/
  msgPeertxcredit : Bool
  /-- `msg_txcredit`. -/
  msgTxcredit : Bool
  /-- `msg_peerrtrcredit`. -/
  msgPeerrtrcredit : Bool
  /-- `msg_rtrcredit`. -/
  msgRtrcredit : Bool
  /-- `msg_kiov != NULL`: the message holds a router buffer. -/
  msgKiov : Bool
  deriving DecidableEq, Repr

/-- A message number not in use. -/
def LnetMsg.unset : LnetMsg where
  msgTxpeer := none
  msgRxpeer := none
  msgLen := 0
  msgTargetUser := false
  msgMdAborted := false
  msgTxCommitted := false
  msgRxCommitted := false
  msgPeertxcredit := false
  msgTxcredit := false
  msgPeerrtrcredit := false
  msgRtrcredit := false
  msgKiov := false

/-- A node: its peers, the tx queue of its one interface, one router buffer
pool, the messages by number, `the_lnet.ln_routing`, and `msc_finalizing`. -/
structure LnetState where
  /-- The peers by number. -/
  peers : Nat → LnetPeer
  /-- `tq_credits` and `tq_delayed` of the interface. -/
  txQueue : Credits.Pool Nat
  /-- The router buffer pool. -/
  rtrPool : LnetRtrbufpool
  /-- The messages by number. -/
  msgs : Nat → LnetMsg
  /-- `the_lnet.ln_routing`. -/
  lnRouting : Bool
  /-- `msc_finalizing`: the messages waiting to be completed. -/
  mscFinalizing : List Nat

/-- A router with every peer at its credit maxima and `nbuffers` buffers. -/
def LnetState.init (peerTxCredits peerRtrCredits niTxCredits nbuffers : Nat) : LnetState where
  peers := fun _ =>
    { lpTx := ⟨peerTxCredits, []⟩, lpTxqnob := 0, lpRtr := ⟨peerRtrCredits, []⟩, lpAlive := true }
  txQueue := ⟨niTxCredits, []⟩
  rtrPool :=
    { rbpCredits := nbuffers, rbpBufs := nbuffers, rbpMsgs := [], rbpNbuffers := nbuffers,
      rbpReqNbuffers := nbuffers }
  msgs := fun _ => LnetMsg.unset
  lnRouting := true
  mscFinalizing := []

/-- Replace message `m`. -/
def LnetState.setMsg (st : LnetState) (m : Nat) (msg : LnetMsg) : LnetState :=
  { st with msgs := Function.update st.msgs m msg }

/-- Replace peer `p`. -/
def LnetState.setPeer (st : LnetState) (p : Nat) (lp : LnetPeer) : LnetState :=
  { st with peers := Function.update st.peers p lp }

/-- `lnet_finalize` of a committed message: it joins `msc_finalizing`. -/
def LnetState.finalize (st : LnetState) (m : Nat) : LnetState :=
  { st with mscFinalizing := st.mscFinalizing ++ [m] }

/-! ## Taking credits -/

/-- The peer tx credit part of `lnet_post_send_locked`; `true` when the
message waits on `lp_txq`. -/
def takePeerTxCredit (st : LnetState) (m p : Nat) : Option (LnetState × Bool) :=
  let msg := st.msgs m
  if msg.msgPeertxcredit then some (st, false)
  else
    let lp := st.peers p
    (lp.lpTx.take m).map fun (tx, waits) =>
      ((st.setMsg m { msg with msgPeertxcredit := true }).setPeer p
        { lp with lpTx := tx, lpTxqnob := lp.lpTxqnob + (msg.msgLen + lnetHdrSize) }, waits)

/-- The interface tx credit part of `lnet_post_send_locked`; `true` when the
message waits on `tq_delayed`. -/
def takeTxCredit (st : LnetState) (m : Nat) : Option (LnetState × Bool) :=
  let msg := st.msgs m
  if msg.msgTxcredit then some (st, false)
  else
    (st.txQueue.take m).map fun (tq, waits) =>
      ({ st.setMsg m { msg with msgTxcredit := true } with txQueue := tq }, waits)

/-- `lnet_post_send_locked`.  With `doSend`, a message that cannot go is
finalized here. -/
def lnetPostSendLocked (st : LnetState) (m : Nat) (doSend : Bool) :
    Option (LnetState × CreditResult) :=
  let msg := st.msgs m
  match msg.msgTxpeer with
  | none => none
  | some p =>
    if !msg.msgTxCommitted then none
    else if !msg.msgTargetUser && !(st.peers p).lpAlive then
      some (if doSend then st.finalize m else st, .ehostunreach)
    else if msg.msgMdAborted then
      some (if doSend then st.finalize m else st, .ecanceled)
    else
      (takePeerTxCredit st m p).bind fun (st, waits) =>
        if waits then some (st, .wait)
        else (takeTxCredit st m).map fun (st, waits) => (st, if waits then .wait else .ok)

/-- The peer router credit part of `lnet_post_routed_recv_locked`; `true`
when the message waits on `lp_rtrq`. -/
def takePeerRtrCredit (st : LnetState) (m p : Nat) : Option (LnetState × Bool) :=
  let msg := st.msgs m
  if msg.msgPeerrtrcredit then some (st, false)
  else
    let lp := st.peers p
    (lp.lpRtr.take m).map fun (rtr, waits) =>
      ((st.setMsg m { msg with msgPeerrtrcredit := true }).setPeer p { lp with lpRtr := rtr }, waits)

/-- The buffer credit part of `lnet_post_routed_recv_locked`, which asserts
nothing about the count; `true` when the message waits on `rbp_msgs`. -/
def takeRtrCredit (st : LnetState) (m : Nat) : LnetState × Bool :=
  let msg := st.msgs m
  if msg.msgRtrcredit then (st, false)
  else
    let rbp := st.rtrPool
    let st := st.setMsg m { msg with msgRtrcredit := true }
    if rbp.rbpCredits - 1 < 0 then
      ({ st with rtrPool := { rbp with rbpCredits := rbp.rbpCredits - 1, rbpMsgs := rbp.rbpMsgs ++ [m] } },
        true)
    else ({ st with rtrPool := { rbp with rbpCredits := rbp.rbpCredits - 1 } }, false)

/-- `lnet_post_routed_recv_locked`, up to handing the buffer to the LND. -/
def lnetPostRoutedRecvLocked (st : LnetState) (m : Nat) : Option (LnetState × CreditResult) :=
  match (st.msgs m).msgRxpeer with
  | none => none
  | some p =>
    (takePeerRtrCredit st m p).bind fun (st, waits) =>
      if waits then some (st, .wait)
      else
        let (st, waits) := takeRtrCredit st m
        if waits then some (st, .wait)
        -- LASSERT(!list_empty(&rbp->rbp_bufs))
        else if st.rtrPool.rbpBufs = 0 then none
        else
          some ({ st.setMsg m { st.msgs m with msgKiov := true } with
            rtrPool := { st.rtrPool with rbpBufs := st.rtrPool.rbpBufs - 1 } }, .ok)

/-! ## Giving credits back -/

/-- Post the waiter that got a tx credit back, with `do_send`. -/
def postSendNext (st : LnetState) : Option Nat → Option LnetState
  | none => some st
  | some m2 => (lnetPostSendLocked st m2 true).map Prod.fst

/-- The interface tx credit part of `lnet_return_tx_credits_locked`. -/
def returnTxCredit (st : LnetState) (m : Nat) : Option LnetState :=
  let msg := st.msgs m
  if !msg.msgTxcredit then some st
  else
    st.txQueue.give.bind fun (tq, next) =>
      postSendNext { st.setMsg m { msg with msgTxcredit := false } with txQueue := tq } next

/-- The peer tx credit part of `lnet_return_tx_credits_locked`. -/
def returnPeerTxCredit (st : LnetState) (m p : Nat) : Option LnetState :=
  let msg := st.msgs m
  if !msg.msgPeertxcredit then some st
  else
    let lp := st.peers p
    let nob := lp.lpTxqnob - (msg.msgLen + lnetHdrSize)
    -- LASSERT(txpeer->lp_txqnob >= 0)
    if nob < 0 then none
    else
      lp.lpTx.give.bind fun (tx, next) =>
        postSendNext ((st.setMsg m { msg with msgPeertxcredit := false }).setPeer p
          { lp with lpTx := tx, lpTxqnob := nob }) next

/-- `lnet_return_tx_credits_locked`. -/
def lnetReturnTxCreditsLocked (st : LnetState) (m : Nat) : Option LnetState :=
  match (st.msgs m).msgTxpeer with
  | none => if (st.msgs m).msgTxcredit || (st.msgs m).msgPeertxcredit then none else some st
  | some p =>
    (returnTxCredit st m).bind fun st =>
      (returnPeerTxCredit st m p).map fun st => st.setMsg m { st.msgs m with msgTxpeer := none }

/-- `lnet_schedule_blocked_locked`: the first message waiting for a buffer
is posted again. -/
def lnetScheduleBlockedLocked (st : LnetState) : Option LnetState :=
  match st.rtrPool.rbpMsgs with
  | [] => some st
  | m :: rest =>
    (lnetPostRoutedRecvLocked { st with rtrPool := { st.rtrPool with rbpMsgs := rest } } m).map
      Prod.fst

/-- The buffer part of `lnet_return_rx_credits_locked`. -/
def returnRtrCredit (st : LnetState) (m : Nat) : Option LnetState :=
  let msg := st.msgs m
  if !msg.msgRtrcredit then some st
  -- LASSERT(msg->msg_kiov != NULL)
  else if !msg.msgKiov then none
  else
    let st := st.setMsg m { msg with msgKiov := false, msgRtrcredit := false }
    let rbp := st.rtrPool
    -- LASSERT((rbp->rbp_credits > 0) == !list_empty(&rbp->rbp_bufs))
    if decide (0 < rbp.rbpCredits) != decide (rbp.rbpBufs ≠ 0) then none
    -- routing is off: the buffer is dropped and no credit comes back
    else if !st.lnRouting then some st
    -- fewer buffers are wanted: the buffer is dropped
    else if rbp.rbpCredits ≥ rbp.rbpReqNbuffers then
      some { st with rtrPool := { rbp with rbpNbuffers := rbp.rbpNbuffers - 1 } }
    else
      let rbp := { rbp with rbpBufs := rbp.rbpBufs + 1, rbpCredits := rbp.rbpCredits + 1 }
      if rbp.rbpCredits ≤ 0 then lnetScheduleBlockedLocked { st with rtrPool := rbp }
      else some { st with rtrPool := rbp }

/-- `lnet_drop_routed_msgs_locked`: the messages spliced off a queue are
finalized. -/
def lnetDropRoutedMsgsLocked (st : LnetState) (drop : List Nat) : LnetState :=
  { st with mscFinalizing := st.mscFinalizing ++ drop }

/-- The peer router credit part of `lnet_return_rx_credits_locked`. -/
def returnPeerRtrCredit (st : LnetState) (m p : Nat) : Option LnetState :=
  let msg := st.msgs m
  if !msg.msgPeerrtrcredit then some st
  else
    let st := st.setMsg m { msg with msgPeerrtrcredit := false }
    let lp := st.peers p
    if !st.lnRouting then
      -- one credit back, and every message queued on the peer dropped
      if lp.lpRtr.consistent then
        some (lnetDropRoutedMsgsLocked
          (st.setPeer p { lp with lpRtr := ⟨lp.lpRtr.credits + 1, []⟩ }) lp.lpRtr.waiting)
      else none
    else
      lp.lpRtr.give.bind fun (rtr, next) =>
        let st := st.setPeer p { lp with lpRtr := rtr }
        match next with
        | none => some st
        | some m2 => (lnetPostRoutedRecvLocked st m2).map Prod.fst

/-- `lnet_return_rx_credits_locked`. -/
def lnetReturnRxCreditsLocked (st : LnetState) (m : Nat) : Option LnetState :=
  (returnRtrCredit st m).bind fun st =>
    match (st.msgs m).msgRxpeer with
    | none => if (st.msgs m).msgPeerrtrcredit then none else some st
    | some p =>
      (returnPeerRtrCredit st m p).map fun st => st.setMsg m { st.msgs m with msgRxpeer := none }

/-- `lnet_msg_decommit`: the sending side first, then the receiving side. -/
def lnetMsgDecommit (st : LnetState) (m : Nat) : Option LnetState :=
  let msg := st.msgs m
  if !msg.msgTxCommitted && !msg.msgRxCommitted then none
  else
    let afterTx :=
      if msg.msgTxCommitted then
        (lnetReturnTxCreditsLocked st m).map fun st =>
          st.setMsg m { st.msgs m with msgTxCommitted := false }
      else some st
    afterTx.bind fun st =>
      if (st.msgs m).msgRxCommitted then
        (lnetReturnRxCreditsLocked st m).map fun st =>
          st.setMsg m { st.msgs m with msgRxCommitted := false }
      else some st

/-! ## Switching routing off and resizing the buffer pool -/

/-- `lnet_rtrpool_free_bufs`: the messages waiting for a buffer are dropped,
and the free buffers freed. -/
def lnetRtrpoolFreeBufs (st : LnetState) : LnetState :=
  if st.rtrPool.rbpNbuffers = 0 then st
  else
    { lnetDropRoutedMsgsLocked st st.rtrPool.rbpMsgs with
      rtrPool :=
        { st.rtrPool with
          rbpMsgs := []
          rbpBufs := 0
          rbpReqNbuffers := 0
          rbpNbuffers := 0
          rbpCredits := 0 } }

/-- `lnet_rtrpools_disable`: routing goes off, then the pool is freed. -/
def lnetRtrpoolsDisable (st : LnetState) : LnetState :=
  if !st.lnRouting then st else lnetRtrpoolFreeBufs { st with lnRouting := false }

/-- `lnet_rtrpool_adjust_bufs` when it only sets `rbp_req_nbuffers`: the
number asked for is not above the last one, or buffers enough are already
allocated.  Growing the pool is not modelled. -/
def lnetRtrpoolAdjustBufs (st : LnetState) (nbufs : Int) : LnetState :=
  if nbufs ≤ st.rtrPool.rbpReqNbuffers ∨ nbufs - st.rtrPool.rbpNbuffers ≤ 0 then
    { st with rtrPool := { st.rtrPool with rbpReqNbuffers := nbufs } }
  else st

/-! ## Runs -/

/-- What happens on the node next. -/
inductive LnetEvent
  /-- `lnet_send` of a new message to a peer: committed for sending, then
  `lnet_post_send_locked(msg, 0)`; the caller finalizes a message it
  refuses. -/
  | send (m peer len : Nat) (user aborted : Bool)
  /-- `lnet_parse` of a message from a peer to be routed: committed for
  receiving, then `lnet_post_routed_recv_locked`; dropped when routing is
  off. -/
  | parseForward (m peer len : Nat)
  /-- A routed message that has its buffer goes on to the next peer. -/
  | forward (m peer : Nat)
  /-- `lnet_finalize` of a message, with the status its LND reports. -/
  | finalize (m : Nat)
  /-- The finalizer completes the first message on `msc_finalizing`. -/
  | complete
  /-- `lnet_notify` says whether a peer is alive. -/
  | notify (peer : Nat) (alive : Bool)
  /-- `lnet_rtrpools_disable`. -/
  | routingOff
  /-- `lnet_rtrpool_adjust_bufs` lowers the number of buffers wanted. -/
  | adjustBufs (nbufs : Int)
  deriving DecidableEq, Repr

/-- A message that `lnet_send` commits for sending to `peer`. -/
def LnetMsg.forSend (peer len : Nat) (user aborted : Bool) : LnetMsg :=
  { LnetMsg.unset with
    msgTxpeer := some peer
    msgLen := len
    msgTargetUser := user
    msgMdAborted := aborted
    msgTxCommitted := true }

/-- A message from `peer` that `lnet_parse` commits for receiving, to be
routed. -/
def LnetMsg.forRouting (peer len : Nat) : LnetMsg :=
  { LnetMsg.unset with
    msgRxpeer := some peer
    msgLen := len
    msgRxCommitted := true }

/-- The result of a send: a message that cannot go is finalized. -/
def afterSend (m : Nat) : LnetState × CreditResult → LnetState
  | (st, .ok) => st
  | (st, .wait) => st
  | (st, .ehostunreach) => st.finalize m
  | (st, .ecanceled) => st.finalize m

/-- One event. -/
def LnetState.step (st : LnetState) : LnetEvent → Option LnetState
  | .send m peer len user aborted =>
    -- message numbers in use are not taken again
    if st.msgs m ≠ LnetMsg.unset then some st
    else
      (lnetPostSendLocked (st.setMsg m (LnetMsg.forSend peer len user aborted)) m false).map
        (afterSend m)
  | .parseForward m peer len =>
    if st.msgs m ≠ LnetMsg.unset ∨ !st.lnRouting then some st
    else
      (lnetPostRoutedRecvLocked (st.setMsg m (LnetMsg.forRouting peer len)) m).map Prod.fst
  | .forward m peer =>
    let msg := st.msgs m
    if !msg.msgRxCommitted || !msg.msgKiov || msg.msgTxCommitted then some st
    else
      (lnetPostSendLocked (st.setMsg m { msg with msgTxpeer := some peer, msgTxCommitted := true })
        m false).map (afterSend m)
  | .finalize m =>
    -- an LND finalizes a committed message once
    if ((st.msgs m).msgTxCommitted || (st.msgs m).msgRxCommitted) && !st.mscFinalizing.contains m then
      some (st.finalize m)
    else some st
  | .complete =>
    match st.mscFinalizing with
    | [] => some st
    | m :: rest =>
      (lnetMsgDecommit { st with mscFinalizing := rest } m).map fun st =>
        st.setMsg m LnetMsg.unset
  | .notify peer alive => some (st.setPeer peer { st.peers peer with lpAlive := alive })
  | .routingOff => some (lnetRtrpoolsDisable st)
  | .adjustBufs nbufs => some (lnetRtrpoolAdjustBufs st nbufs)

/-- One event; after a failed `LASSERT` nothing more. -/
def LnetEvent.apply : Option LnetState → LnetEvent → Option LnetState
  | none, _ => none
  | some st, event => st.step event

/-! ## Balanced pools -/

/-- The tx credit pools of every peer and of the interface are balanced. -/
def LnetState.TxBalanced (st : LnetState) : Prop :=
  (∀ p, (st.peers p).lpTx.Balanced) ∧ st.txQueue.Balanced

/-- The router credit pool of every peer is balanced. -/
def LnetState.RtrBalanced (st : LnetState) : Prop :=
  ∀ p, (st.peers p).lpRtr.Balanced

/-- As many messages wait for a buffer as the pool is short of credits. -/
def LnetRtrbufpool.Balanced (rbp : LnetRtrbufpool) : Prop :=
  rbp.rbpMsgs.length = (-rbp.rbpCredits).toNat

/-- What holds on every state of a run: the tx pools and the buffer pool
are balanced, and while routing is on so are the router credit pools. -/
structure LnetState.Balanced (st : LnetState) : Prop where
  tx : st.TxBalanced
  rbp : st.rtrPool.Balanced
  rtr : st.lnRouting = true → st.RtrBalanced

/-- What an operation on the credits keeps: the routing switch, and each
part of the balance. -/
structure LnetState.Keeps (st st' : LnetState) : Prop where
  routing : st'.lnRouting = st.lnRouting
  tx : st.TxBalanced → st'.TxBalanced
  rbp : st.rtrPool.Balanced → st'.rtrPool.Balanced
  rtr : st.lnRouting = true → st.RtrBalanced → st'.RtrBalanced

theorem LnetState.Keeps.refl (st : LnetState) : st.Keeps st :=
  ⟨rfl, id, id, fun _ => id⟩

theorem LnetState.Keeps.trans {st st' st'' : LnetState} (first : st.Keeps st')
    (second : st'.Keeps st'') : st.Keeps st'' where
  routing := second.routing.trans first.routing
  tx := second.tx ∘ first.tx
  rbp := second.rbp ∘ first.rbp
  rtr := fun on balanced => second.rtr (first.routing.trans on) (first.rtr on balanced)

theorem LnetState.Keeps.balanced {st st' : LnetState} (keeps : st.Keeps st')
    (balanced : st.Balanced) : st'.Balanced where
  tx := keeps.tx balanced.tx
  rbp := keeps.rbp balanced.rbp
  rtr := fun on => keeps.rtr (keeps.routing ▸ on) (balanced.rtr (keeps.routing ▸ on))

/-- A property of every peer survives replacing one by a peer that has it. -/
theorem LnetState.forall_setPeer (prop : LnetPeer → Prop) {st : LnetState} {p : Nat}
    {lp : LnetPeer} (all : ∀ q, prop (st.peers q)) (replaced : prop lp) :
    ∀ q, prop ((st.setPeer p lp).peers q) := by
  intro q
  show prop (Function.update st.peers p lp q)
  rw [Function.update_apply]
  split
  · exact replaced
  · exact all q

/-- An operation that leaves the peers, the interface's queue and the routing
switch alone keeps the balance when it keeps the buffer pool's. -/
theorem LnetState.Keeps.of_frame {st st' : LnetState} (peers : st'.peers = st.peers)
    (txQueue : st'.txQueue = st.txQueue) (routing : st'.lnRouting = st.lnRouting)
    (rbp : st.rtrPool.Balanced → st'.rtrPool.Balanced) : st.Keeps st' where
  routing := routing
  tx := fun balanced => by
    unfold LnetState.TxBalanced
    rw [peers, txQueue]
    exact balanced
  rbp := rbp
  rtr := fun _ balanced => by
    unfold LnetState.RtrBalanced
    rw [peers]
    exact balanced

theorem LnetState.keeps_setMsg (st : LnetState) (m : Nat) (msg : LnetMsg) :
    st.Keeps (st.setMsg m msg) :=
  ⟨rfl, id, id, fun _ => id⟩

theorem LnetState.keeps_finalize (st : LnetState) (m : Nat) : st.Keeps (st.finalize m) :=
  ⟨rfl, id, id, fun _ => id⟩

theorem keeps_lnetDropRoutedMsgsLocked (st : LnetState) (drop : List Nat) :
    st.Keeps (lnetDropRoutedMsgsLocked st drop) :=
  ⟨rfl, id, id, fun _ => id⟩

/-- Replacing a peer keeps the balance when its new pools are balanced
whenever the old ones were. -/
theorem LnetState.keeps_setPeer (st : LnetState) (p : Nat) (lp : LnetPeer)
    (tx : (st.peers p).lpTx.Balanced → lp.lpTx.Balanced)
    (rtr : st.lnRouting = true → (st.peers p).lpRtr.Balanced → lp.lpRtr.Balanced) :
    st.Keeps (st.setPeer p lp) where
  routing := rfl
  tx := fun ⟨peers, tq⟩ =>
    ⟨LnetState.forall_setPeer (fun lp => lp.lpTx.Balanced) peers (tx (peers p)), tq⟩
  rbp := id
  rtr := fun on peers =>
    LnetState.forall_setPeer (fun lp => lp.lpRtr.Balanced) peers (rtr on (peers p))

theorem LnetState.keeps_txQueue (st : LnetState) (tq : Credits.Pool Nat)
    (balanced : st.txQueue.Balanced → tq.Balanced) : st.Keeps { st with txQueue := tq } :=
  ⟨rfl, fun ⟨peers, old⟩ => ⟨peers, balanced old⟩, id, fun _ => id⟩

theorem LnetState.keeps_rtrPool (st : LnetState) (rbp : LnetRtrbufpool)
    (balanced : st.rtrPool.Balanced → rbp.Balanced) : st.Keeps { st with rtrPool := rbp } :=
  ⟨rfl, id, balanced, fun _ => id⟩

/-! ## Each operation keeps the balance -/

section Operations

variable {st st' : LnetState} {m : Nat}

theorem keeps_takePeerTxCredit {p : Nat} {waits : Bool}
    (done : takePeerTxCredit st m p = some (st', waits)) : st.Keeps st' := by
  unfold takePeerTxCredit at done
  dsimp only at done
  split at done
  · cases done
    exact .refl st
  · obtain ⟨⟨tx, _⟩, took, moved⟩ := Option.map_eq_some_iff.mp done
    cases moved
    exact (LnetState.keeps_setMsg _ _ _).trans
      (LnetState.keeps_setPeer _ _ _ (fun balanced => balanced.take took) fun _ => id)

theorem keeps_takeTxCredit {waits : Bool} (done : takeTxCredit st m = some (st', waits)) :
    st.Keeps st' := by
  unfold takeTxCredit at done
  dsimp only at done
  split at done
  · cases done
    exact .refl st
  · obtain ⟨⟨tq, _⟩, took, moved⟩ := Option.map_eq_some_iff.mp done
    cases moved
    exact (LnetState.keeps_setMsg _ _ _).trans
      (LnetState.keeps_txQueue _ _ fun balanced => balanced.take took)

theorem keeps_lnetPostSendLocked {doSend : Bool} {rc : CreditResult}
    (done : lnetPostSendLocked st m doSend = some (st', rc)) : st.Keeps st' := by
  have refused : st.Keeps (if doSend then st.finalize m else st) := by
    cases doSend
    · exact .refl st
    · exact st.keeps_finalize m
  unfold lnetPostSendLocked at done
  dsimp only at done
  split at done
  · cases done
  · split at done
    · cases done
    split at done
    · -- the peer is dead
      cases done
      exact refused
    split at done
    · -- the MD is aborted
      cases done
      exact refused
    obtain ⟨⟨st1, waits⟩, tookPeer, rest⟩ := Option.bind_eq_some_iff.mp done
    have first := keeps_takePeerTxCredit tookPeer
    dsimp only at rest
    split at rest
    · cases rest
      exact first
    · obtain ⟨⟨st2, _⟩, tookNi, moved⟩ := Option.map_eq_some_iff.mp rest
      cases moved
      exact first.trans (keeps_takeTxCredit tookNi)

theorem keeps_takePeerRtrCredit {p : Nat} {waits : Bool}
    (done : takePeerRtrCredit st m p = some (st', waits)) : st.Keeps st' := by
  unfold takePeerRtrCredit at done
  dsimp only at done
  split at done
  · cases done
    exact .refl st
  · obtain ⟨⟨rtr, _⟩, took, moved⟩ := Option.map_eq_some_iff.mp done
    cases moved
    exact (LnetState.keeps_setMsg _ _ _).trans
      (LnetState.keeps_setPeer _ _ _ id fun _ balanced => balanced.take took)

/-- Taking a buffer credit keeps the pool balanced: it queues the message
exactly when the count goes below zero. -/
theorem keeps_takeRtrCredit (st : LnetState) (m : Nat) : st.Keeps (takeRtrCredit st m).1 := by
  unfold takeRtrCredit
  dsimp only
  split
  · exact .refl st
  have marked := LnetState.keeps_setMsg st m { st.msgs m with msgRtrcredit := true }
  split
  · next below =>
    refine marked.trans (.of_frame rfl rfl rfl fun balanced => ?_)
    dsimp only [LnetState.setMsg, LnetRtrbufpool.Balanced] at balanced ⊢
    rw [List.length_append, List.length_singleton, balanced]
    omega
  · next notBelow =>
    refine marked.trans (.of_frame rfl rfl rfl fun balanced => ?_)
    dsimp only [LnetState.setMsg, LnetRtrbufpool.Balanced] at balanced ⊢
    rw [balanced]
    omega

theorem keeps_lnetPostRoutedRecvLocked {rc : CreditResult}
    (done : lnetPostRoutedRecvLocked st m = some (st', rc)) : st.Keeps st' := by
  unfold lnetPostRoutedRecvLocked at done
  split at done
  · cases done
  obtain ⟨⟨st1, waits⟩, tookPeer, rest⟩ := Option.bind_eq_some_iff.mp done
  have first := keeps_takePeerRtrCredit tookPeer
  dsimp only at rest
  split at rest
  · cases rest
    exact first
  have second := first.trans (keeps_takeRtrCredit st1 m)
  split at rest
  · cases rest
    exact second
  split at rest
  · cases rest
  · cases rest
    -- the buffer leaves the free list; credits and waiters stay
    exact second.trans (.of_frame rfl rfl rfl id)

theorem keeps_postSendNext {next : Option Nat} (done : postSendNext st next = some st') :
    st.Keeps st' := by
  cases next with
  | none =>
    cases done
    exact .refl st
  | some m2 =>
    obtain ⟨⟨st1, _⟩, posted, rfl⟩ := Option.map_eq_some_iff.mp done
    exact keeps_lnetPostSendLocked posted

theorem keeps_returnTxCredit (done : returnTxCredit st m = some st') : st.Keeps st' := by
  unfold returnTxCredit at done
  dsimp only at done
  split at done
  · cases done
    exact .refl st
  · obtain ⟨⟨tq, next⟩, gave, posted⟩ := Option.bind_eq_some_iff.mp done
    exact ((LnetState.keeps_setMsg _ _ _).trans
      (LnetState.keeps_txQueue _ _ fun balanced => balanced.give gave)).trans
      (keeps_postSendNext posted)

theorem keeps_returnPeerTxCredit {p : Nat} (done : returnPeerTxCredit st m p = some st') :
    st.Keeps st' := by
  unfold returnPeerTxCredit at done
  dsimp only at done
  split at done
  · cases done
    exact .refl st
  split at done
  · cases done
  · obtain ⟨⟨tx, next⟩, gave, posted⟩ := Option.bind_eq_some_iff.mp done
    refine LnetState.Keeps.trans ?_ (keeps_postSendNext posted)
    refine (LnetState.keeps_setMsg _ _ _).trans (LnetState.keeps_setPeer _ _ _ ?_ fun _ => id)
    exact fun balanced => balanced.give gave

theorem keeps_lnetReturnTxCreditsLocked (done : lnetReturnTxCreditsLocked st m = some st') :
    st.Keeps st' := by
  unfold lnetReturnTxCreditsLocked at done
  split at done
  · split at done
    · cases done
    · cases done
      exact .refl st
  · obtain ⟨st1, returnedNi, rest⟩ := Option.bind_eq_some_iff.mp done
    obtain ⟨st2, returnedPeer, rfl⟩ := Option.map_eq_some_iff.mp rest
    exact ((keeps_returnTxCredit returnedNi).trans (keeps_returnPeerTxCredit returnedPeer)).trans
      (LnetState.keeps_setMsg _ _ _)

/-- Scheduling the first message that waits for a buffer, after a buffer came
back to a pool with no credit to spare, restores the balance of the state
before the return: the message leaves the queue as the count goes up. -/
theorem keeps_lnetScheduleBlockedLocked {before : LnetState}
    (done : lnetScheduleBlockedLocked st = some st') (peers : st.peers = before.peers)
    (txQueue : st.txQueue = before.txQueue) (routing : st.lnRouting = before.lnRouting)
    (waiting : st.rtrPool.rbpMsgs = before.rtrPool.rbpMsgs)
    (returned : st.rtrPool.rbpCredits = before.rtrPool.rbpCredits + 1)
    (noneToSpare : st.rtrPool.rbpCredits ≤ 0) : before.Keeps st' := by
  unfold lnetScheduleBlockedLocked at done
  split at done
  · next empty =>
    -- no waiter, although the count was below zero before the return
    cases done
    refine .of_frame peers txQueue routing fun balanced => ?_
    unfold LnetRtrbufpool.Balanced at balanced
    rw [← waiting, empty, List.length_nil] at balanced
    omega
  · next m2 rest queued =>
    obtain ⟨⟨st1, _⟩, posted, rfl⟩ := Option.map_eq_some_iff.mp done
    refine LnetState.Keeps.trans ?_ (keeps_lnetPostRoutedRecvLocked posted)
    refine .of_frame peers txQueue routing fun balanced => ?_
    unfold LnetRtrbufpool.Balanced at balanced ⊢
    dsimp only
    rw [← waiting, queued, List.length_cons] at balanced
    omega

theorem keeps_returnRtrCredit (done : returnRtrCredit st m = some st') : st.Keeps st' := by
  unfold returnRtrCredit at done
  dsimp only at done
  split at done
  · cases done
    exact .refl st
  split at done
  · cases done
  have taken := LnetState.keeps_setMsg st m { st.msgs m with msgKiov := false, msgRtrcredit := false }
  split at done
  · cases done
  split at done
  · -- routing is off: the buffer is dropped
    cases done
    exact taken
  split at done
  · -- the buffer is dropped; the count is not raised
    cases done
    exact taken.trans (.of_frame rfl rfl rfl id)
  · split at done
    · next noneToSpare =>
      -- the buffer goes back and the first waiter gets it
      exact taken.trans (keeps_lnetScheduleBlockedLocked done rfl rfl rfl rfl rfl noneToSpare)
    · next spare =>
      cases done
      refine taken.trans (.of_frame rfl rfl rfl fun balanced => ?_)
      dsimp only [LnetState.setMsg, LnetRtrbufpool.Balanced] at balanced spare ⊢
      omega

theorem keeps_returnPeerRtrCredit {p : Nat} (done : returnPeerRtrCredit st m p = some st') :
    st.Keeps st' := by
  unfold returnPeerRtrCredit at done
  dsimp only at done
  split at done
  · cases done
    exact .refl st
  have taken := LnetState.keeps_setMsg st m { st.msgs m with msgPeerrtrcredit := false }
  split at done
  · next off =>
    split at done
    · -- routing is off, so the router credits need not balance
      cases done
      refine taken.trans (LnetState.Keeps.trans ?_ (keeps_lnetDropRoutedMsgsLocked _ _))
      refine LnetState.keeps_setPeer _ _ _ id fun on _ => ?_
      simp only [on, Bool.not_true, Bool.false_eq_true] at off
    · cases done
  · obtain ⟨⟨rtr, next⟩, gave, posted⟩ := Option.bind_eq_some_iff.mp done
    have returned : st.Keeps _ := taken.trans
      (LnetState.keeps_setPeer _ p { (st.peers p) with lpRtr := rtr } id
        fun _ balanced => balanced.give gave)
    dsimp only at posted
    split at posted
    · cases posted
      exact returned
    · obtain ⟨⟨st1, _⟩, reposted, rfl⟩ := Option.map_eq_some_iff.mp posted
      exact returned.trans (keeps_lnetPostRoutedRecvLocked reposted)

theorem keeps_lnetReturnRxCreditsLocked (done : lnetReturnRxCreditsLocked st m = some st') :
    st.Keeps st' := by
  unfold lnetReturnRxCreditsLocked at done
  obtain ⟨st1, returnedBuffer, rest⟩ := Option.bind_eq_some_iff.mp done
  have first := keeps_returnRtrCredit returnedBuffer
  split at rest
  · split at rest
    · cases rest
    · cases rest
      exact first
  · obtain ⟨st2, returnedPeer, rfl⟩ := Option.map_eq_some_iff.mp rest
    exact (first.trans (keeps_returnPeerRtrCredit returnedPeer)).trans
      (LnetState.keeps_setMsg _ _ _)

theorem keeps_lnetMsgDecommit (done : lnetMsgDecommit st m = some st') : st.Keeps st' := by
  unfold lnetMsgDecommit at done
  dsimp only at done
  split at done
  · cases done
  obtain ⟨st1, sentSide, rest⟩ := Option.bind_eq_some_iff.mp done
  -- the sending side first
  have first : st.Keeps st1 := by
    split at sentSide
    · obtain ⟨st2, returned, rfl⟩ := Option.map_eq_some_iff.mp sentSide
      exact (keeps_lnetReturnTxCreditsLocked returned).trans (LnetState.keeps_setMsg _ _ _)
    · cases sentSide
      exact .refl st
  split at rest
  · obtain ⟨st2, returned, rfl⟩ := Option.map_eq_some_iff.mp rest
    exact first.trans ((keeps_lnetReturnRxCreditsLocked returned).trans
      (LnetState.keeps_setMsg _ _ _))
  · cases rest
    exact first

theorem keeps_afterSend (result : LnetState × CreditResult) :
    result.1.Keeps (afterSend m result) := by
  obtain ⟨st, rc⟩ := result
  cases rc
  · exact .refl st
  · exact .refl st
  · exact st.keeps_finalize m
  · exact st.keeps_finalize m

end Operations

/-! ## Runs keep the balance -/

theorem LnetState.balanced_init (peerTxCredits peerRtrCredits niTxCredits nbuffers : Nat) :
    (LnetState.init peerTxCredits peerRtrCredits niTxCredits nbuffers).Balanced where
  tx := ⟨fun _ => by simp [LnetState.init, Credits.Pool.Balanced], by
    simp [LnetState.init, Credits.Pool.Balanced]⟩
  rbp := by simp [LnetState.init, LnetRtrbufpool.Balanced]
  rtr := fun _ _ => by simp [LnetState.init, Credits.Pool.Balanced]

/-- Switching routing off frees the buffer pool, which leaves it balanced,
and touches no tx pool. -/
theorem LnetState.Balanced.rtrpoolsDisable {st : LnetState} (balanced : st.Balanced) :
    (lnetRtrpoolsDisable st).Balanced := by
  unfold lnetRtrpoolsDisable
  split
  · exact balanced
  · unfold lnetRtrpoolFreeBufs
    split
    · exact ⟨balanced.tx, balanced.rbp, fun on => by simp at on⟩
    · refine ⟨balanced.tx, rfl, fun on => ?_⟩
      simp [lnetDropRoutedMsgsLocked] at on

/-- Lowering the number of buffers wanted changes neither credits nor
waiters. -/
theorem LnetState.keeps_lnetRtrpoolAdjustBufs (st : LnetState) (nbufs : Int) :
    st.Keeps (lnetRtrpoolAdjustBufs st nbufs) := by
  unfold lnetRtrpoolAdjustBufs
  split
  · exact st.keeps_rtrPool _ id
  · exact .refl st

/-- Every event but switching routing off is an operation on the credits. -/
theorem LnetState.Balanced.step {st st' : LnetState} (balanced : st.Balanced)
    {event : LnetEvent} (done : st.step event = some st') : st'.Balanced := by
  cases event with
  | send m peer len user aborted =>
    simp only [LnetState.step] at done
    split at done
    · cases done
      exact balanced
    · obtain ⟨result, posted, rfl⟩ := Option.map_eq_some_iff.mp done
      exact (((LnetState.keeps_setMsg _ _ _).trans (keeps_lnetPostSendLocked posted)).trans
        (keeps_afterSend result)).balanced balanced
  | parseForward m peer len =>
    simp only [LnetState.step] at done
    split at done
    · cases done
      exact balanced
    · obtain ⟨⟨st1, _⟩, posted, rfl⟩ := Option.map_eq_some_iff.mp done
      exact ((LnetState.keeps_setMsg _ _ _).trans
        (keeps_lnetPostRoutedRecvLocked posted)).balanced balanced
  | forward m peer =>
    simp only [LnetState.step] at done
    split at done
    · cases done
      exact balanced
    · obtain ⟨result, posted, rfl⟩ := Option.map_eq_some_iff.mp done
      exact (((LnetState.keeps_setMsg _ _ _).trans (keeps_lnetPostSendLocked posted)).trans
        (keeps_afterSend result)).balanced balanced
  | finalize m =>
    simp only [LnetState.step] at done
    split at done
    · cases done
      exact (st.keeps_finalize m).balanced balanced
    · cases done
      exact balanced
  | complete =>
    simp only [LnetState.step] at done
    split at done
    · cases done
      exact balanced
    · next m rest _ =>
      obtain ⟨st1, decommitted, rfl⟩ := Option.map_eq_some_iff.mp done
      have popped : st.Keeps { st with mscFinalizing := rest } := .of_frame rfl rfl rfl id
      exact ((popped.trans (keeps_lnetMsgDecommit decommitted)).trans
        (LnetState.keeps_setMsg _ _ _)).balanced balanced
  | notify peer alive =>
    cases done
    exact (st.keeps_setPeer peer { st.peers peer with lpAlive := alive } id fun _ => id).balanced
      balanced
  | routingOff =>
    cases done
    exact balanced.rtrpoolsDisable
  | adjustBufs nbufs =>
    cases done
    exact (st.keeps_lnetRtrpoolAdjustBufs nbufs).balanced balanced

/-- The balance on a state a run reaches, if no assertion failed first. -/
def BalancedOrFailed : Option LnetState → Prop
  | none => True
  | some st => st.Balanced

theorem BalancedOrFailed.apply {state : Option LnetState} (balanced : BalancedOrFailed state)
    (event : LnetEvent) : BalancedOrFailed (event.apply state) := by
  cases state with
  | none => trivial
  | some st =>
    show BalancedOrFailed (st.step event)
    cases stepped : st.step event with
    | none => trivial
    | some st' => exact LnetState.Balanced.step balanced stepped

/-- Over every run of a router: the tx credit pools of the peers and of the
interface are balanced, the buffer pool has exactly as many waiters as it
is short of credits, and while routing is on the router credit pools of the
peers are balanced. -/
theorem credits_balanced_of_run (peerTxCredits peerRtrCredits niTxCredits nbuffers : Nat)
    (events : List LnetEvent) :
    BalancedOrFailed (Machine.run LnetEvent.apply
      (some (LnetState.init peerTxCredits peerRtrCredits niTxCredits nbuffers)) events) :=
  Machine.Reachable.invariant BalancedOrFailed
    (show BalancedOrFailed (some _) from LnetState.balanced_init _ _ _ _)
    (fun _ event balanced _ => balanced.apply event) (Machine.Reachable.start.run events)

/-- On a balanced state the credit assertions of the tx pools hold, and so,
while routing is on, do those of the router credit pools. -/
theorem LnetState.Balanced.consistent {st : LnetState} (balanced : st.Balanced) :
    (∀ p, (st.peers p).lpTx.consistent = true) ∧ st.txQueue.consistent = true ∧
      (st.lnRouting = true → ∀ p, (st.peers p).lpRtr.consistent = true) :=
  ⟨fun p => (balanced.tx.1 p).consistent, balanced.tx.2.consistent,
    fun on p => (balanced.rtr on p).consistent⟩

/-! ## Switching routing off -/

/-- Peer 0 may route one message at a time.  Three arrive: the first gets
the credit and a buffer, the other two wait on `lp_rtrq`.  Routing goes
off, and the first message is finalized. -/
def peerQueueDropEvents : List LnetEvent :=
  [.parseForward 0 0 100, .parseForward 1 0 100, .parseForward 2 0 100, .routingOff, .finalize 0,
    .complete]

/-- One buffer: the first message gets it, the second, from another peer,
waits on `rbp_msgs`.  Routing goes off, which drops the waiting message. -/
def bufferQueueDropEvents : List LnetEvent :=
  [.parseForward 0 0 100, .parseForward 1 1 100, .routingOff]

/-- Completing the first message returns its router credit with routing
off: the count goes up by one, but both waiters, which hold a credit each,
are dropped from `lp_rtrq` to be finalized.  The count is left below zero
with nobody waiting, and completing the next message fails the assertion.
A message dropped from `rbp_msgs` holds a buffer credit but no buffer, and
completing it fails `LASSERT(msg->msg_kiov != NULL)`. -/
theorem routingOff_fails_rx_credit_lassert :
    (∃ s, Machine.run LnetEvent.apply (some (LnetState.init 8 1 8 8)) peerQueueDropEvents =
        some s ∧
      s.lnRouting = false ∧ (s.peers 0).lpRtr = ⟨-1, []⟩ ∧ s.mscFinalizing = [1, 2] ∧
      (s.msgs 1).msgPeerrtrcredit = true ∧ (s.peers 0).lpRtr.consistent = false ∧
      s.step .complete = none) ∧
    (∃ s, Machine.run LnetEvent.apply (some (LnetState.init 8 8 8 1)) bufferQueueDropEvents =
        some s ∧
      s.mscFinalizing = [1] ∧ (s.msgs 1).msgRtrcredit = true ∧ (s.msgs 1).msgKiov = false ∧
      s.step .complete = none) := by
  refine ⟨⟨_, rfl, ?_, ?_, ?_, ?_, ?_, ?_⟩, ⟨_, rfl, ?_, ?_, ?_, ?_⟩⟩
  all_goals decide

end Lnet
end Lustre
