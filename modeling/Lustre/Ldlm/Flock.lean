import Lustre.Ldlm.ExtentLock
import Lustre.Library.Loop
import Lustre.Library.Run

/-!
# POSIX file locks on the server (ldlm/ldlm_flock.c)

A flock lock covers a byte range of a file for one owner (a process on a
client, named by `l_flock.owner` and the lock's export).  The granted locks of
one owner on a resource stand together in `lr_granted`, sorted by start, and
`ldlm_process_flock_lock` either grants a request, merging it with the owner's
locks of the same mode and cutting the owner's locks of other modes, or makes
it wait behind the first conflicting lock of another owner.

A waiting request is entered in its export's `exp_flock_hash` under its owner,
with the owner and export of the lock it waits for.  Before it waits,
`ldlm_flock_deadlock` follows these entries from the owner it waits for: at each
owner it takes the one entry the hash returns and goes on to that entry's
blocking owner, until an owner has no entry (no deadlock) or the walk comes back
to the requesting owner (deadlock).  The walk has no bound; it is modelled as a
`Loop.run` whose fuel the caller gives.

The merge loop walks `lr_granted` from the owner's first lock; the locks before
the cursor are `before`, the cursor and the locks after it `rest`.  When a lock
must be split and no second lock has been allocated, the function allocates
one and starts again from its `reprocess` label, with the variables it has
changed kept.
-/

namespace Lustre.Ldlm

/-! ## Locks, owners and the deadlock hash -/

/-- LDLM_FL_WAIT_NOREPROC -/
def ldlmFlWaitNoreproc : UInt64 := 0x800000000

/-- The fields of struct ldlm_lock the flock code reads: the handle (for its
address), the export, `l_policy_data.l_flock` (owner, start and end), and the
mode, `l_granted_mode` of a granted lock and `l_req_mode` of a request. -/
structure FlockLock where
  handle : Nat
  lExport : Nat
  owner : UInt64
  mode : LdlmMode
  start : UInt64
  stop : UInt64
  deriving DecidableEq, Repr

/-- ldlm_same_flock_owner -/
def ldlmSameFlockOwner (lock new : FlockLock) : Bool :=
  new.owner = lock.owner && new.lExport = lock.lExport

/-- ldlm_flocks_overlap -/
def ldlmFlocksOverlap (lock new : FlockLock) : Bool :=
  new.start ≤ lock.stop && new.stop ≥ lock.start

/-- An entry of an export's exp_flock_hash: a waiting request under its owner,
with `blocking_owner` and `blocking_export`. -/
structure FlockLink where
  lExport : Nat
  owner : UInt64
  handle : Nat
  blockingOwner : UInt64
  blockingExport : Nat
  deriving DecidableEq, Repr

/-- An export: the NID of its client, `exp_failed`, and whether the client
supports OBD_CONNECT_FLOCK_DEAD. -/
structure FlockExport where
  id : Nat
  nid : Nat
  failed : Bool
  flockDead : Bool
  deriving DecidableEq, Repr

/-- The granted and waiting queues of a resource. -/
structure FlockResource where
  lrGranted : List FlockLock
  lrWaiting : List FlockLock
  deriving DecidableEq, Repr

/-- The flock state of a server: its exports in the order `obd_nid_hash`
visits them, the entries of every exp_flock_hash (newest first, as
`cfs_hash_add` puts them at the head of their chain), the queues of each
resource, and the handle the next created lock gets. -/
structure FlockServer where
  exports : List FlockExport
  links : List FlockLink
  resources : Nat → FlockResource
  nextHandle : Nat

namespace FlockServer

/-- The export of an id; a missing export has failed. -/
def exportOf (server : FlockServer) (id : Nat) : FlockExport :=
  (server.exports.find? (·.id = id)).getD ⟨id, 0, true, false⟩

def setResource (server : FlockServer) (name : Nat) (res : FlockResource) : FlockServer :=
  { server with resources := Function.update server.resources name res }

/-- Whether a lock is in exp_flock_hash (`!hlist_unhashed`). -/
def hashed (server : FlockServer) (handle : Nat) : Bool :=
  server.links.any (·.handle = handle)

end FlockServer

/-- ldlm_flock_blocking_link: `none` where the request is already hashed. -/
def ldlmFlockBlockingLink (server : FlockServer) (req lock : FlockLock) : Option FlockServer :=
  if server.hashed req.handle then none
  else some { server with
    links := ⟨req.lExport, req.owner, req.handle, lock.owner, lock.lExport⟩ :: server.links }

/-- ldlm_flock_blocking_unlink -/
def ldlmFlockBlockingUnlink (server : FlockServer) (req : FlockLock) : FlockServer :=
  { server with links := server.links.filter (·.handle ≠ req.handle) }

/-- ldlm_flock_lookup_cb over the exports of the NID of `blExp`: the first
entry under `blOwner` in the first export that has one. -/
def ldlmFlockLookup (server : FlockServer) (blOwner : UInt64) (blExp : Nat) : Option FlockLink :=
  (server.exports.filter (·.nid = (server.exportOf blExp).nid)).findSome? fun exp =>
    server.links.find? fun link => link.lExport = exp.id ∧ link.owner = blOwner

/-- One round of the loop of ldlm_flock_deadlock at `(bl_owner, bl_exp)`: it
leaves with `some false` (no deadlock), `some true` (deadlock) or `none` (the
LASSERT that the walk did not find the request itself), or goes on to the
blocking owner of the entry it found. -/
def ldlmFlockDeadlockBody (server : FlockServer) (req : FlockLock) :
    UInt64 × Nat → Option Bool ⊕ (UInt64 × Nat)
  | (blOwner, blExp) =>
    match ldlmFlockLookup server blOwner blExp with
    | none => .inl (some false)
    | some link =>
      if link.handle = req.handle then .inl none
      else if (server.exportOf link.blockingExport).failed then .inl (some false)
      else if link.blockingOwner = req.owner ∧
          (server.exportOf link.blockingExport).nid = (server.exportOf req.lExport).nid then
        .inl (some true)
      else .inr (link.blockingOwner, link.blockingExport)

/-- ldlm_flock_deadlock, for at most `fuel` rounds: `none` when they run out. -/
def ldlmFlockDeadlock (fuel : Nat) (server : FlockServer) (req blLock : FlockLock) :
    Option (Option Bool) :=
  Loop.run (ldlmFlockDeadlockBody server req) fuel (blLock.owner, blLock.lExport)

/-! ## The merge loop -/

/-- What `new` stands for: the request, or the granted lock of the request's
mode it was merged into, by its position in the locks the loop has passed. -/
inductive FlockNew
  | req
  | lock (index : Nat)
  deriving DecidableEq, Repr

/-- The variables of ldlm_process_flock_lock that keep their values across
`goto reprocess`: the request with its current range, `new`, `added` and
`overlaps`. -/
structure FlockMerge where
  req : FlockLock
  new : FlockNew
  added : Bool
  overlaps : Nat
  deriving DecidableEq, Repr

namespace FlockMerge

/-- The lock `new` points to, with its current range. -/
def newLock (m : FlockMerge) (before : List FlockLock) : FlockLock :=
  match m.new with
  | .req => m.req
  | .lock index => before.getD index m.req

/-- Set the range of the lock `new` points to. -/
def setNew (m : FlockMerge) (before : List FlockLock) (start stop : UInt64) :
    FlockMerge × List FlockLock :=
  match m.new with
  | .req => ({ m with req := { m.req with start := start, stop := stop } }, before)
  | .lock index => (m, before.modify index fun lock => { lock with start := start, stop := stop })

end FlockMerge

/-- How the merge loop leaves: at the lock where it stopped (`rest` starts
there, and the request goes before it), or to allocate a second lock for a
split and start again. -/
inductive FlockLoopEnd
  | done (m : FlockMerge) (before rest : List FlockLock)
  | restart (m : FlockMerge) (before rest : List FlockLock)

/-- The loop `list_for_remaining_safe(ownlocks, tmp, &res->lr_granted)` of
ldlm_process_flock_lock, for a request of mode `mode`; `new2` is the handle of
the allocated second lock, if any. -/
def flockMergeLoop (mode : LdlmMode) (new2 : Option Nat) :
    FlockMerge → List FlockLock → List FlockLock → FlockLoopEnd
  | m, before, [] => .done m before []
  | m, before, lock :: rest =>
    let new := m.newLock before
    if !ldlmSameFlockOwner lock new then .done m before (lock :: rest)
    else if lock.mode = mode then
      -- the same mode: merge the locks that overlap or adjoin
      if new.start > lock.stop + 1 ∧ lock.stop ≠ obdObjectEof then
        flockMergeLoop mode new2 m (before ++ [lock]) rest
      else if new.stop < lock.start - 1 ∧ lock.start ≠ 0 then .done m before (lock :: rest)
      else
        let start := if new.start < lock.start then new.start else lock.start
        let stop := if new.stop > lock.stop then new.stop else lock.stop
        if m.added then
          let (m', before') := m.setNew before start stop
          flockMergeLoop mode new2 m' before' rest
        else
          flockMergeLoop mode new2
            { (m.setNew before start stop).1 with new := .lock before.length, added := true }
            (before ++ [{ lock with start := start, stop := stop }]) rest
    else if new.start > lock.stop then flockMergeLoop mode new2 m (before ++ [lock]) rest
    else if new.stop < lock.start then .done m before (lock :: rest)
    else
      let m := { m with overlaps := m.overlaps + 1 }
      if new.start ≤ lock.start then
        if new.stop < lock.stop then .done m before ({ lock with start := new.stop + 1 } :: rest)
        else flockMergeLoop mode new2 m before rest
      else if new.stop ≥ lock.stop then
        flockMergeLoop mode new2 m (before ++ [{ lock with stop := new.start - 1 }]) rest
      else
        -- split the lock in two around the request
        match new2 with
        | none => .restart m before (lock :: rest)
        | some handle =>
          .done m (before ++ [⟨handle, lock.lExport, new.owner, lock.mode, lock.start, new.start - 1⟩])
            ({ lock with start := new.stop + 1 } :: rest)

/-! ## ldlm_process_flock_lock -/

/-- What ldlm_process_flock_lock did with the request. -/
inductive FlockOutcome
  /-- granted, or merged into a granted lock (LDLM_ITER_CONTINUE, ELDLM_OK) -/
  | granted
  /-- put on the waiting queue (LDLM_FL_BLOCK_GRANTED) -/
  | blocked
  | eagain
  | edeadlk
  /-- LDLM_FL_TEST_LOCK: the conflicting lock, or none -/
  | tested (lock : Option FlockLock)
  /-- reprocessed and still waiting -/
  | stillWaiting
  /-- reprocessed, found in a deadlock and cancelled -/
  | deadlockCancelled
  deriving DecidableEq, Repr

/-- The split of a granted queue at the owner's first lock (`ownlocks`), or at
its end when the owner has none. -/
def ownlocksSplit (granted : List FlockLock) (req : FlockLock) : List FlockLock × List FlockLock :=
  (granted.takeWhile fun lock => !ldlmSameFlockOwner lock req,
    granted.dropWhile fun lock => !ldlmSameFlockOwner lock req)

/-- A granted lock of another owner that the request conflicts with. -/
def flockConflicts (req : FlockLock) (lock : FlockLock) : Bool :=
  !ldlmSameFlockOwner lock req && !lockmodeCompat lock.mode req.mode && ldlmFlocksOverlap lock req

/-- ldlm_flock_destroy of the request: off its queue; `none` where the LASSERT
that it is not hashed fails. -/
def flockDestroyReq (server : FlockServer) (name : Nat) (req : FlockLock) : Option FlockServer :=
  if server.hashed req.handle then none
  else
    let res := server.resources name
    some (server.setResource name { res with lrWaiting := res.lrWaiting.filter (·.handle ≠ req.handle) })

/-- ldlm_flock_cancel_on_deadlock: the request leaves the hash and its queue,
if the client can take the cancellation. -/
def ldlmFlockCancelOnDeadlock (server : FlockServer) (name : Nat) (lock : FlockLock) : FlockServer :=
  if (server.exportOf lock.lExport).flockDead then
    let server := ldlmFlockBlockingUnlink server lock
    let res := server.resources name
    server.setResource name { res with lrWaiting := res.lrWaiting.filter (·.handle ≠ lock.handle) }
  else server

/-- The deadlock checks of a reprocessed request, one for each conflicting
lock in turn: the first lock found in a deadlock, if any; `none` where a walk
does not end within the fuel or its LASSERT fails. -/
def flockReprocessDeadlock (fuel : Nat) (server : FlockServer) (req : FlockLock) :
    List FlockLock → Option (Option FlockLock)
  | [] => some none
  | lock :: rest =>
    match ldlmFlockDeadlock fuel server req lock with
    | some (some true) => some (some lock)
    | some (some false) => flockReprocessDeadlock fuel server req rest
    | _ => none

/-- How one pass from the label `reprocess` ends: with an outcome, or with a
request to allocate a second lock and pass again from where the merge loop
stopped. -/
inductive FlockPassEnd
  | finished (server : FlockServer) (outcome : FlockOutcome) (overlaps : Nat)
  | restart (server : FlockServer) (m : FlockMerge) (before rest : List FlockLock)

/-- The end of ldlm_process_flock_lock once the merge loop is done: the
request is granted, put before `ownlocks` unless it was merged, and taken off
the waiting queue. -/
def flockGrant (server : FlockServer) (name : Nat) (m : FlockMerge) (before rest : List FlockLock) :
    Option FlockServer :=
  let granted := if m.added then before ++ rest else before ++ m.req :: rest
  let res := server.resources name
  let server := server.setResource name
    { lrGranted := granted, lrWaiting := res.lrWaiting.filter (·.handle ≠ m.req.handle) }
  if m.added ∧ server.hashed m.req.handle then none else some server

/-- The merge part of a pass: LDLM_FL_TEST_LOCK, the unlink from the deadlock
hash, and the merge loop from `ownlocks`.  A restart keeps the changes the loop
made to `lr_granted`. -/
def flockMergePass (server : FlockServer) (name : Nat) (flags : UInt64) (m : FlockMerge)
    (new2 : Option Nat) (ownlocks : List FlockLock × List FlockLock) : Option FlockPassEnd :=
  if flags &&& ldlmFlTestLock ≠ 0 then
    (flockDestroyReq server name m.req).map (.finished · (.tested none) m.overlaps)
  else
    let server := ldlmFlockBlockingUnlink server m.req
    match flockMergeLoop m.req.mode new2 m ownlocks.1 ownlocks.2 with
    | .restart m before rest =>
      let res := server.resources name
      some (.restart (server.setResource name { res with lrGranted := before ++ rest }) m before rest)
    | .done m before rest => (flockGrant server name m before rest).map (.finished · .granted m.overlaps)

/-- One pass of ldlm_process_flock_lock from the label `reprocess`, with the
variables it keeps (`m`, whose `req` is the request with its current range),
the second lock if allocated, and `ownlocks` if a previous pass left it set. -/
def flockPass (fuel : Nat) (server : FlockServer) (name : Nat) (flags : UInt64) (firstEnq : Bool)
    (m : FlockMerge) (new2 : Option Nat) (ownlocks : Option (List FlockLock × List FlockLock)) :
    Option FlockPassEnd :=
  let req := m.req
  let granted := (server.resources name).lrGranted
  if flags = ldlmFlWaitNoreproc ∨ req.mode = .nl then
    flockMergePass server name flags m new2 (ownlocksSplit granted req)
  else
    let own := ownlocks.getD (ownlocksSplit granted req)
    if firstEnq then
      match granted.find? (flockConflicts req) with
      | none => flockMergePass server name flags m new2 own
      | some lock =>
        if flags &&& ldlmFlBlockNowait ≠ 0 then
          (flockDestroyReq server name req).map (.finished · .eagain m.overlaps)
        else if flags &&& ldlmFlTestLock ≠ 0 then
          (flockDestroyReq server name req).map (.finished · (.tested (some lock)) m.overlaps)
        else
          (ldlmFlockBlockingLink server req lock).bind fun server =>
            match ldlmFlockDeadlock fuel server req lock with
            | some (some true) =>
              (flockDestroyReq (ldlmFlockBlockingUnlink server req) name req).map
                (.finished · .edeadlk m.overlaps)
            | some (some false) =>
              let res := server.resources name
              some (.finished (server.setResource name { res with lrWaiting := res.lrWaiting ++ [req] })
                .blocked m.overlaps)
            | _ => none
    else
      let conflicts := granted.filter (flockConflicts req)
      (flockReprocessDeadlock fuel server req conflicts).bind fun found =>
        match found with
        | some _ => some (.finished (ldlmFlockCancelOnDeadlock server name req) .deadlockCancelled m.overlaps)
        | none =>
          if conflicts.isEmpty then flockMergePass server name flags m new2 own
          else some (.finished server .stillWaiting m.overlaps)

/-- ldlm_process_flock_lock without the reprocessing of the waiting queue that
an unlock starts: a pass, and a second one with a newly created lock when the
first stops to split a lock. -/
def ldlmProcessFlockLockCore (fuel : Nat) (server : FlockServer) (name : Nat) (req : FlockLock)
    (flags : UInt64) (firstEnq : Bool) : Option (FlockServer × FlockOutcome × Nat) :=
  let start : FlockMerge := ⟨req, .req, req.mode = .nl, 0⟩
  (flockPass fuel server name flags firstEnq start none none).bind fun pass =>
    match pass with
    | .finished server outcome overlaps => some (server, outcome, overlaps)
    | .restart server m before rest =>
      let server := { server with nextHandle := server.nextHandle + 1 }
      (flockPass fuel server name flags firstEnq m (some (server.nextHandle - 1))
        (some (before, rest))).bind fun pass =>
        match pass with
        | .finished server outcome overlaps => some (server, outcome, overlaps)
        | .restart .. => none

/-- ldlm_reprocess_queue over the waiting queue of a resource: each waiting
request in turn, as ldlm_process_flock_lock with `first_enq` 0. -/
def ldlmReprocessFlockQueue (fuel : Nat) (name : Nat) :
    FlockServer → List FlockLock → Option FlockServer
  | server, [] => some server
  | server, pending :: rest =>
    (ldlmProcessFlockLockCore fuel server name pending 0 false).bind fun (server, _, _) =>
      ldlmReprocessFlockQueue fuel name server rest

/-- ldlm_process_flock_lock: a granted unlock that cut a lock on its first
enqueue reprocesses the waiting queue. -/
def ldlmProcessFlockLock (fuel : Nat) (server : FlockServer) (name : Nat) (req : FlockLock)
    (flags : UInt64) (firstEnq : Bool) : Option (FlockServer × FlockOutcome) :=
  (ldlmProcessFlockLockCore fuel server name req flags firstEnq).bind fun (server, outcome, overlaps) =>
    if outcome = .granted ∧ flags ≠ ldlmFlWaitNoreproc ∧ firstEnq ∧ req.mode = .nl ∧ overlaps ≠ 0 then
      (ldlmReprocessFlockQueue fuel name server (server.resources name).lrWaiting).map (·, outcome)
    else some (server, outcome)

/-! ## Runs -/

/-- What the server does with flock locks: an enqueue of a new lock (the
server creates it with the next handle), and a cancel of a lock by handle,
with its blocking callback (which takes it out of the deadlock hash) and the
reprocessing of the resource.  Each walk of ldlm_flock_deadlock may run for
`fuel` rounds. -/
inductive FlockEvent
  | enqueue (fuel : Nat) (name : Nat) (lExport : Nat) (owner : UInt64) (mode : LdlmMode)
      (start stop : UInt64) (flags : UInt64)
  | cancel (fuel : Nat) (name : Nat) (handle : Nat)
  deriving DecidableEq, Repr

/-- ldlm_lock_cancel of a lock of a resource, then ldlm_reprocess_all. -/
def flockCancel (fuel : Nat) (server : FlockServer) (name : Nat) (handle : Nat) :
    Option FlockServer :=
  let server := { server with links := server.links.filter (·.handle ≠ handle) }
  let res := server.resources name
  let server := server.setResource name
    { lrGranted := res.lrGranted.filter (·.handle ≠ handle),
      lrWaiting := res.lrWaiting.filter (·.handle ≠ handle) }
  ldlmReprocessFlockQueue fuel name server (server.resources name).lrWaiting

/-- One event; `none` once an LASSERT has failed or a walk has run out of fuel. -/
def flockStep : Option FlockServer → FlockEvent → Option FlockServer
  | none, _ => none
  | some server, .enqueue fuel name lExport owner mode start stop flags =>
    let req : FlockLock := ⟨server.nextHandle, lExport, owner, mode, start, stop⟩
    (ldlmProcessFlockLock fuel { server with nextHandle := server.nextHandle + 1 } name req flags
      true).map (·.1)
  | some server, .cancel fuel name handle => flockCancel fuel server name handle

/-- A server with its exports and nothing locked. -/
def flockServerInit (exports : List FlockExport) : FlockServer :=
  ⟨exports, [], fun _ => ⟨[], []⟩, 1⟩

end Lustre.Ldlm
