import Lustre.Ldlm.ExtentPolicy

/-!
# Granting extent locks (ldlm/ldlm_extent.c)

`ldlm_process_extent_lock` decides whether a request can be granted on the
server.  `ldlm_extent_compat_queue` checks it against the granted locks, one
interval tree per mode, and against the waiting queue, where a GROUP request
may also be moved next to the waiting GROUP locks of its group; the locks it
conflicts with are marked for a blocking AST.  A request that passes both is
grown by `ldlm_extent_policy` and granted: `ldlm_grant_lock` puts it into the
interval tree of its mode with `ldlm_extent_add_lock` and at the end of the
granted queue.

The blocking ASTs of a first enqueue are sent with the resource unlocked;
what other threads do then, and the restart after `-ERESTART`, belong to the
next call and are not part of this one.  `ldlm_check_contention` reads the
clock and the namespace's settings, which `ContentionEnv` gives.

`GrantSafe` is what the granted locks of a resource are meant to keep: two
granted locks whose modes conflict, or two GROUP locks of different groups, do
not overlap; all granted GROUP locks have one group; and each tree indexes
exactly the granted locks of its mode.  It does not hold across a grant:
`ldlmProcessExtentLock_breaks_grantSafe` shows a GROUP request granted over a
granted PR lock, because the scan of the GROUP tree returns 2 after the PR
tree had found the conflict, and a PW request grown over a granted PW lock,
because the fix-up rounds the end of an unaligned request past the limit the
granted locks set.
-/

namespace Lustre.Ldlm

/-! ## Flags and queues -/

def ldlmFlBlockGranted : UInt64 := 0x2

def ldlmFlFlockDeadlock : UInt64 := 0x8000

def ldlmFlDiscardData : UInt64 := 0x10000

def ldlmFlTestLock : UInt64 := 0x80000

def ldlmFlDenyOnContention : UInt64 := 0x40000000

def ldlmFlAstDiscardData : UInt64 := 0x80000000

def ldlmFlDestroyed : UInt64 := 0x4000000000000

/-- EWOULDBLOCK -/
def ewouldblock : Int := 11

/-- EUSERS -/
def eusers : Int := 87

/-- LDLM_ITER_CONTINUE -/
def ldlmIterContinue : Int := 1

/-- LDLM_ITER_STOP -/
def ldlmIterStop : Int := 2

/-- The flag is set in the lock's `l_flags`. -/
def LdlmLock.hasFlag (lock : LdlmLock) (flag : UInt64) : Bool := lock.lFlags &&& flag ≠ 0

namespace LdlmResource

/-- Change the lock of a handle, in whichever queue it is. -/
def updateLock (res : LdlmResource) (handle : Nat) (change : LdlmLock → LdlmLock) :
    LdlmResource :=
  { res with
    lrGranted := res.lrGranted.map fun lock => if lock.lHandle = handle then change lock else lock
    lrWaiting := res.lrWaiting.map fun lock => if lock.lHandle = handle then change lock else lock }

/-- The lock of the handle is on one of the queues (its `l_res_link` is not empty). -/
def isQueued (res : LdlmResource) (handle : Nat) : Bool :=
  res.lrGranted.any (·.lHandle = handle) || res.lrWaiting.any (·.lHandle = handle)

/-- list_del_init of the lock's `l_res_link`. -/
def unqueue (res : LdlmResource) (handle : Nat) : LdlmResource :=
  { res with
    lrGranted := res.lrGranted.filter (·.lHandle ≠ handle)
    lrWaiting := res.lrWaiting.filter (·.lHandle ≠ handle) }

end LdlmResource

/-- Put `new` right after the lock of handle `original` in a queue. -/
def insertAfter (original : Nat) (new : LdlmLock) : List LdlmLock → List LdlmLock
  | [] => []
  | lock :: rest =>
    if lock.lHandle = original then lock :: new :: rest else lock :: insertAfter original new rest

/-- ldlm_resource_insert_lock_after, in the waiting queue: a destroyed lock is
not queued, and a lock that is already queued fails the assertion. -/
def ldlmResourceInsertLockAfter (res : LdlmResource) (original : Nat) (new : LdlmLock) :
    Option LdlmResource :=
  if new.hasFlag ldlmFlDestroyed then some res
  else if res.isQueued new.lHandle then none
  else some { res with lrWaiting := insertAfter original new res.lrWaiting }

/-- The GROUP request takes the place of the waiting `lock`, which follows it:
insert the request after the lock, unqueue the lock, insert it after the request. -/
def queueInFront (res : LdlmResource) (lock req : LdlmLock) : Option LdlmResource :=
  (ldlmResourceInsertLockAfter res lock.lHandle req).bind fun res =>
    ldlmResourceInsertLockAfter (res.unqueue lock.lHandle) req.lHandle lock

/-- ldlm_add_ast_work_item for a blocking AST (ldlm_add_bl_work_item): a lock
not yet marked is marked AST_SENT, takes the request's discard-data wish, and
goes to the head of the work list. -/
def ldlmAddBlWorkItem (res : LdlmResource) (lock new : LdlmLock) (workList : List Nat) :
    LdlmResource × List Nat :=
  if lock.hasFlag ldlmFlAstSent then (res, workList)
  else
    let discard := if new.hasFlag ldlmFlAstDiscardData then ldlmFlDiscardData else 0
    (res.updateLock lock.lHandle fun lock => { lock with lFlags := lock.lFlags ||| ldlmFlAstSent ||| discard },
      lock.lHandle :: workList)

/-! ## ldlm_extent_compat_queue -/

/-- The li_group of a node of the tree of `mode`: the granted locks of that
mode with the node's extent, in the order of the granted queue. -/
def intervalGroup (res : LdlmResource) (mode : LdlmMode) (node : IntervalNode) : List LdlmLock :=
  res.lrGranted.filter fun lock => lock.lGrantedMode = some mode ∧
    lock.lPolicyExtent.start = node.intervalLow ∧ lock.lPolicyExtent.stop = node.intervalHigh

/-- struct ldlm_extent_compat_args with what its pointers point to: the
resource whose locks get marked, the work list, the contended count and the
compatibility found so far. -/
structure CompatArgs where
  res : LdlmResource
  workList : List Nat
  locks : Nat
  compat : Int

/-- ldlm_extent_compat_cb: every lock of the node's group but a GROUP lock is
marked for a blocking AST; the group counts as contended unless it is a
whole-file PR (glimpse) lock; the request is not compatible. -/
def ldlmExtentCompatCb (enq : LdlmLock) (mode : LdlmMode) (node : IntervalNode)
    (data : CompatArgs) : IntervalIter × CompatArgs :=
  let group := intervalGroup data.res mode node
  let marked := group.foldl (fun (marked : LdlmResource × List Nat) lock =>
      if lock.lBlockingAst ∧ lock.lGrantedMode ≠ some .group then
        ldlmAddBlWorkItem marked.1 lock enq marked.2
      else marked) (data.res, data.workList)
  let glimpse := mode = .pr ∧ node.intervalLow = 0 ∧ node.intervalHigh = obdObjectEof
  (.cont, { res := marked.1, workList := marked.2,
            locks := if glimpse then data.locks else data.locks + group.length, compat := 0 })

/-- Where a scan of ldlm_extent_compat_queue stops: at a `RETURN` with its
value, at `destroylock` with its error, or at the end of the queue. -/
inductive ScanEnd
  | returned (rc : Int)
  | destroyLock (rc : Int)
  | finished
  deriving DecidableEq, Repr

/-- One tree of the granted queue that the request conflicts with (or a GROUP
tree of another group): `.inl` where the scan stops, `.inr` to go on. -/
def compatConflictingTree (req : LdlmLock) (withList : Bool) (ex : IntervalNodeExtent)
    (tree : LdlmIntervalTree) (flags : UInt64) (args : CompatArgs) :
    Option ((ScanEnd × UInt64 × CompatArgs) ⊕ (UInt64 × CompatArgs)) :=
  if tree.litMode = .group then
    if flags &&& ldlmFlBlockNowait ≠ 0 then
      some (.inl (.destroyLock (-ewouldblock), flags, { args with compat := -ewouldblock }))
    else
      let flags := flags ||| ldlmFlNoTimeout
      if !withList then some (.inl (.returned 0, flags, args))
      else
        -- every GROUP lock of another group is in the way, whatever its extent
        let args := (callEach (ldlmExtentCompatCb req tree.litMode) tree.litRoot.toList
          { args with compat := 0 }).2
        some (.inr (flags, args))
  else if !withList then
    (intervalIsOverlapped tree.litRoot ex).map fun overlapped =>
      if overlapped then .inl (.returned 0, flags, args) else .inr (flags, args)
  else
    (intervalSearch tree.litRoot ex (ldlmExtentCompatCb req tree.litMode) args).map fun searched =>
      let args := searched.2
      .inr (flags, if args.workList ≠ [] ∧ args.compat ≠ 0 then { args with compat := 0 } else args)

/-- The loop of ldlm_extent_compat_queue over the interval trees of the granted
queue; `none` where an assertion fails. -/
def compatGrantedLoop (req : LdlmLock) (withList : Bool) (ex : IntervalNodeExtent) :
    List LdlmIntervalTree → UInt64 → CompatArgs → Option (ScanEnd × UInt64 × CompatArgs)
  | [], flags, args => some (.finished, flags, args)
  | tree :: rest, flags, args =>
    let goOn (step : Option ((ScanEnd × UInt64 × CompatArgs) ⊕ (UInt64 × CompatArgs))) :=
      step.bind fun
        | .inl stopped => some stopped
        | .inr (flags, args) => compatGrantedLoop req withList ex rest flags args
    match tree.litRoot with
    | .leaf => compatGrantedLoop req withList ex rest flags args
    | .node _ root _ =>
      if lockmodeCompat req.lReqMode tree.litMode then
        if req.lReqMode ≠ .group then compatGrantedLoop req withList ex rest flags args
        else
          -- a GROUP request and a GROUP tree: the group of the root decides
          match intervalGroup args.res tree.litMode root with
          | [] => none
          | first :: _ =>
            if req.lPolicyExtent.gid = first.lPolicyExtent.gid then
              some (.returned 2, flags, args)
            else goOn (compatConflictingTree req withList ex tree flags args)
      else goOn (compatConflictingTree req withList ex tree flags args)

/-- The loop of ldlm_extent_compat_queue over the waiting queue, up to the
request itself; `scan` is set once a GROUP request has met a waiting lock and
looks for where to queue itself.  `none` where an assertion fails. -/
def compatWaitingLoop (req : LdlmLock) (withList : Bool) :
    List LdlmLock → Bool → UInt64 → CompatArgs → Option (ScanEnd × UInt64 × CompatArgs)
  | [], _, flags, args => some (.finished, flags, args)
  | lock :: rest, scan, flags, args =>
    let reqStart := req.lReqExtent.start
    let reqEnd := req.lReqExtent.stop
    let compatible := lockmodeCompat lock.lReqMode req.lReqMode
    let sameGroup := req.lPolicyExtent.gid = lock.lPolicyExtent.gid
    if req.lHandle = lock.lHandle then some (.finished, flags, args)
    else if scan then
      -- queue the GROUP request before the first non-GROUP lock or after its group
      if lock.lReqMode ≠ .group then
        (queueInFront args.res lock req).map fun res =>
          (.finished, flags, { args with res := res, compat := 0 })
      else if sameGroup then
        (ldlmResourceInsertLockAfter args.res lock.lHandle req).map fun res =>
          (.finished, flags, { args with res := res, compat := 0 })
      else compatWaitingLoop req withList rest scan flags args
    else if compatible ∧ req.lReqMode = .pr ∧ lock.lPolicyExtent.start ≤ req.lPolicyExtent.start ∧
        lock.lPolicyExtent.stop ≥ req.lPolicyExtent.stop ∧ ¬ lock.hasFlag ldlmFlAstSent then
      -- a PR lock as wide as the request that nothing conflicted with
      some (.returned args.compat, flags, args)
    else if compatible ∧ req.lReqMode ≠ .group then compatWaitingLoop req withList rest scan flags args
    else if compatible ∧ sameGroup then
      if lock.lGrantedMode = some lock.lReqMode then some (.returned 2, flags, args)
      else if flags &&& ldlmFlBlockNowait ≠ 0 then
        some (.destroyLock (-ewouldblock), flags, { args with compat := -ewouldblock })
      else
        (ldlmResourceInsertLockAfter args.res lock.lHandle req).map fun res =>
          (.returned 0, flags, { args with res := res })
    else if req.lReqMode = .group ∧ lock.lGrantedMode ≠ some lock.lReqMode then
      let args := { args with compat := 0 }
      if lock.lReqMode ≠ .group then
        (queueInFront args.res lock req).map fun res => (.finished, flags, { args with res := res })
      else if sameGroup then
        (ldlmResourceInsertLockAfter args.res lock.lHandle req).map fun res =>
          (.finished, flags, { args with res := res })
      else compatWaitingLoop req withList rest true flags args
    else if lock.lReqMode = .group ∧ flags &&& ldlmFlBlockNowait ≠ 0 then
      some (.destroyLock (-ewouldblock), flags, { args with compat := -ewouldblock })
    else if lock.lReqMode ≠ .group ∧
        (lock.lPolicyExtent.stop < reqStart ∨ lock.lPolicyExtent.start > reqEnd) then
      compatWaitingLoop req withList rest scan flags args
    else
      -- a conflicting lock
      let flags := if lock.lReqMode = .group then flags ||| ldlmFlNoTimeout else flags
      let falseContention := lock.lReqMode ≠ .group ∧
        (lock.lReqExtent.stop < reqStart ∨ lock.lReqExtent.start > reqEnd)
      if !withList then some (.returned 0, flags, args)
      else
        let glimpse := lock.lReqMode = .pr ∧ lock.lPolicyExtent.start = 0 ∧
          lock.lPolicyExtent.stop = obdObjectEof
        let locks := if falseContention ∨ glimpse then args.locks else args.locks + 1
        let marked := if lock.lBlockingAst ∧ lock.lReqMode ≠ .group then
            ldlmAddBlWorkItem args.res lock req args.workList
          else (args.res, args.workList)
        compatWaitingLoop req withList rest scan flags
          { res := marked.1, workList := marked.2, locks := locks, compat := 0 }

/-- What ldlm_check_contention reads besides the resource: the namespace's
ns_contended_locks, ns_contention_time (in ticks) and ns_max_nolock_size, and
the clock. -/
structure ContentionEnv where
  nsContendedLocks : Nat
  nsContentionTime : Nat
  nsMaxNolockSize : UInt64
  now : Nat

/-- ldlm_check_contention: a resource with more contended locks than the
namespace allows is contended from now, for ns_contention_time. -/
def ldlmCheckContention (env : ContentionEnv) (contentionTime : Nat) (contendedLocks : Nat) :
    Nat × Bool :=
  let contentionTime := if contendedLocks > env.nsContendedLocks then env.now else contentionTime
  (contentionTime, env.now < contentionTime + env.nsContentionTime)

/-- What ldlm_extent_compat_queue leaves: its value, the flags and the scan's
data; a request it destroyed is off the queues and marked destroyed. -/
structure CompatResult where
  rc : Int
  flags : UInt64
  args : CompatArgs
  contentionTime : Nat

/-- destroylock: the request leaves the queues and is destroyed; a lock with
references fails ldlm_lock_destroy_internal's check. -/
def destroyLock (res : LdlmResource) (req : LdlmLock) : Option LdlmResource :=
  if req.lReaders ≠ 0 ∨ req.lWriters ≠ 0 then none else some (res.unqueue req.lHandle)

/-- ldlm_extent_compat_queue on the granted queue (`granted`) or the waiting
queue, with a work list or without one; `none` where an assertion fails. -/
def ldlmExtentCompatQueue (env : ContentionEnv) (contentionTime : Nat) (granted : Bool)
    (req : LdlmLock) (flags : UInt64) (withList : Bool) (args : CompatArgs) :
    Option CompatResult :=
  let ex : IntervalNodeExtent := ⟨req.lReqExtent.start, req.lReqExtent.stop⟩
  let scanned :=
    if granted then compatGrantedLoop req withList ex args.res.lrItree flags { args with compat := 1 }
    else compatWaitingLoop req withList args.res.lrWaiting false flags { args with compat := 1 }
  scanned.bind fun (ending, flags, args) =>
    match ending with
    | .returned rc => some ⟨rc, flags, args, contentionTime⟩
    | .destroyLock rc =>
      (destroyLock args.res req).map fun res => ⟨rc, flags, { args with res := res }, contentionTime⟩
    | .finished =>
      let (contentionTime, contended) := ldlmCheckContention env contentionTime args.locks
      if contended ∧ args.compat = 0 ∧ flags &&& ldlmFlDenyOnContention ≠ 0 ∧
          req.lReqMode ≠ .group ∧
          req.lReqExtent.stop - req.lReqExtent.start ≤ env.nsMaxNolockSize then
        (destroyLock args.res req).map fun res =>
          ⟨-eusers, flags, { args with res := res, compat := -eusers }, contentionTime⟩
      else some ⟨args.compat, flags, args, contentionTime⟩

/-! ## Granting -/

/-- interval_insert without its rebalancing: the descent raises in_max_high
on the way, stops at a node of the same extent and gives it back, or links the
node as a red leaf where the descent ends.  interval_insert_color only rotates
and recolours, which keeps the nodes in order. -/
def intervalInsert (node : IntervalNode) :
    SearchTree.Tree IntervalNode → SearchTree.Tree IntervalNode × Option IntervalNode
  | .leaf => (.node .leaf { node with inColor := .red } .leaf, none)
  | .node left parent right =>
    if parent.inExtent = node.inExtent then (.node left parent right, some parent)
    else
      let parent := if parent.inMaxHigh < node.intervalHigh then
          { parent with inMaxHigh := node.intervalHigh } else parent
      if extentCompare node.inExtent parent.inExtent < 0 then
        let inserted := intervalInsert node left
        (.node inserted.1 parent right, inserted.2)
      else
        let inserted := intervalInsert node right
        (.node left parent inserted.1, inserted.2)

/-- ldlm_extent_add_lock: the lock's extent goes into the tree of its mode
(interval_set asserts that it starts at or before its end), joining the group
of a node of the same extent, and the lock goes to the end of the granted
queue unless it was destroyed. -/
def ldlmExtentAddLock (res : LdlmResource) (lock : LdlmLock) : Option LdlmResource :=
  let idx := lock.lReqMode.toIndex
  match res.lrItree[idx]? with
  | none => none
  | some tree =>
    if tree.litMode ≠ lock.lReqMode then none
    else if lock.lPolicyExtent.start > lock.lPolicyExtent.stop then none
    else
      let node : IntervalNode :=
        ⟨.red, ⟨lock.lPolicyExtent.start, lock.lPolicyExtent.stop⟩, lock.lPolicyExtent.stop⟩
      let tree := { tree with litSize := tree.litSize + 1,
                              litRoot := (intervalInsert node tree.litRoot).1 }
      some { res with
        lrItree := res.lrItree.set idx tree
        lrGranted := if lock.hasFlag ldlmFlDestroyed then res.lrGranted else res.lrGranted ++ [lock] }

/-- ldlm_grant_lock on an extent resource: the lock is granted in its
requested mode; an NL, test or deadlocked lock is not queued. -/
def ldlmGrantLock (res : LdlmResource) (lock : LdlmLock) : Option (LdlmResource × LdlmLock) :=
  let lock := { lock with lGrantedMode := some lock.lReqMode }
  if lock.lReqMode = .nl ∨ lock.hasFlag ldlmFlTestLock ∨ lock.hasFlag ldlmFlFlockDeadlock then
    some (res, lock)
  else (ldlmExtentAddLock res lock).map (·, lock)

/-- discard_bl_list: the locks marked for a blocking AST by this call are
unmarked. -/
def discardBlList (res : LdlmResource) (workList : List Nat) : LdlmResource :=
  workList.foldl (fun res handle =>
    res.updateLock handle fun lock => { lock with lFlags := lock.lFlags &&& ~~~ldlmFlAstSent }) res

/-- What ldlm_process_extent_lock leaves: its value, the flags, the error,
the resource and the request as it is now, and the contention time. -/
structure ProcessResult where
  rc : Int
  flags : UInt64
  err : Int
  res : LdlmResource
  lock : LdlmLock
  contentionTime : Nat

/-- Grant the request: unlink it from the waiting queue, grow it, and grant it
(the policy comes first on a first enqueue and after the unlink on a
reprocess, which reads the same queues but for the request). -/
def grantProcessed (res : LdlmResource) (lock : LdlmLock) (flags : UInt64) (firstEnq : Bool) :
    Option (LdlmResource × LdlmLock × UInt64) :=
  let grown := if firstEnq then ldlmExtentPolicy res lock flags
    else ldlmExtentPolicy (res.unqueue lock.lHandle) lock flags
  grown.bind fun (lock, flags) =>
    (ldlmGrantLock (res.unqueue lock.lHandle) lock).map fun (res, lock) => (res, lock, flags)

/-- ldlm_process_extent_lock, for one call: `firstEnq` from
ldlm_lock_enqueue, otherwise from ldlm_reprocess_queue; `none` where an
assertion fails. -/
def ldlmProcessExtentLock (env : ContentionEnv) (contentionTime : Nat) (res : LdlmResource)
    (lock : LdlmLock) (flags : UInt64) (firstEnq : Bool) : Option ProcessResult :=
  if lock.lGrantedMode = some lock.lReqMode then none
  else if flags &&& ldlmFlDenyOnContention ≠ 0 ∧ lock.hasFlag ldlmFlAstDiscardData then none
  else if ¬ firstEnq then
    if flags ≠ 0 then none
    else
      let start : CompatArgs := ⟨res, [], 0, 1⟩
      (ldlmExtentCompatQueue env contentionTime true lock flags false start).bind fun granted =>
        let waiting := if granted.rc = 1 then
            ldlmExtentCompatQueue env granted.contentionTime false lock granted.flags false granted.args
          else some granted
        waiting.bind fun checked =>
          if checked.rc = 0 then
            some ⟨ldlmIterStop, checked.flags, 0, checked.args.res, lock, checked.contentionTime⟩
          else
            (grantProcessed checked.args.res lock checked.flags false).map fun (res, lock, flags) =>
              ⟨ldlmIterContinue, flags, 0, res, lock, checked.contentionTime⟩
  else
    let start : CompatArgs := ⟨res, [], 0, 1⟩
    -- out: the locks marked for this request are unmarked
    let out (checked : CompatResult) : Option ProcessResult :=
      if checked.args.workList ≠ [] ∧ lock.hasFlag ldlmFlAstDiscardData then none
      else some ⟨checked.rc, checked.flags, checked.rc,
        discardBlList checked.args.res checked.args.workList, lock, checked.contentionTime⟩
    (ldlmExtentCompatQueue env contentionTime true lock flags true start).bind fun granted =>
      if granted.rc < 0 then out granted
      else if granted.rc = 2 then
        (grantProcessed granted.args.res lock granted.flags true).map fun (res, lock, flags) =>
          ⟨0, flags, 0, res, lock, granted.contentionTime⟩
      else
        (ldlmExtentCompatQueue env granted.contentionTime false lock granted.flags true
          granted.args).bind fun waiting =>
          if waiting.rc < 0 then out waiting
          else if granted.rc + waiting.rc = 2 then
            (grantProcessed waiting.args.res lock waiting.flags true).map fun (res, lock, flags) =>
              ⟨0, flags, 0, res, lock, waiting.contentionTime⟩
          else
            -- blocked: on the waiting queue (unless the scan queued it), ASTs to send
            let res := waiting.args.res
            let res := if res.isQueued lock.lHandle ∨ lock.hasFlag ldlmFlDestroyed then res
              else { res with lrWaiting := res.lrWaiting ++ [lock] }
            some ⟨0, waiting.flags ||| ldlmFlBlockGranted ||| ldlmFlNoTimeout, 0, res, lock,
              waiting.contentionTime⟩


/-! ## What the granted locks keep -/

/-- Two locks that may not overlap when both granted: their modes are not
compatible, or they are GROUP locks of different groups. -/
def Exclusive (a b : LdlmLock) : Bool :=
  !lockmodeCompat a.lReqMode b.lReqMode ||
    (a.lReqMode = .group && b.lReqMode = .group && a.lPolicyExtent.gid ≠ b.lPolicyExtent.gid)

/-- `lr_itree[mode]` indexes exactly the granted locks of the mode: it is the
tree of that mode, counts them, is well formed, and its extents are theirs. -/
def ItreeIndexes (res : LdlmResource) (mode : LdlmMode) (tree : LdlmIntervalTree) : Prop :=
  tree.litMode = mode ∧ tree.litSize = (res.lrGranted.filter (·.lReqMode = mode)).length ∧
    WellFormed tree.litRoot ∧
    (∀ node ∈ tree.litRoot.toList, ∃ lock ∈ res.lrGranted, lock.lReqMode = mode ∧
      lock.lPolicyExtent.start = node.intervalLow ∧ lock.lPolicyExtent.stop = node.intervalHigh) ∧
    ∀ lock ∈ res.lrGranted, lock.lReqMode = mode → ∃ node ∈ tree.litRoot.toList,
      node.intervalLow = lock.lPolicyExtent.start ∧ node.intervalHigh = lock.lPolicyExtent.stop

/-- What the granted locks of an extent resource are meant to keep: each is
granted in its requested mode; two exclusive ones do not overlap; all GROUP
locks have one group; and every mode's tree indexes its granted locks. -/
structure GrantSafe (res : LdlmResource) : Prop where
  granted : ∀ lock ∈ res.lrGranted, lock.lGrantedMode = some lock.lReqMode
  separate : res.lrGranted.Pairwise fun a b =>
    Exclusive a b = true → ldlmExtentOverlap a.lPolicyExtent b.lPolicyExtent = false
  oneGroup : ∀ a ∈ res.lrGranted, ∀ b ∈ res.lrGranted, a.lReqMode = .group →
    b.lReqMode = .group → a.lPolicyExtent.gid = b.lPolicyExtent.gid
  indexed : ∀ mode : LdlmMode, ∃ tree, res.lrItree[mode.toIndex]? = some tree ∧
    ItreeIndexes res mode tree


/-- NS_DEFAULT_CONTENDED_LOCKS -/
def nsDefaultContendedLocks : Nat := 32

/-- NS_DEFAULT_CONTENTION_SECONDS -/
def nsDefaultContentionSeconds : Nat := 2

/-- NS_DEFAULT_MAX_NOLOCK_BYTES -/
def nsDefaultMaxNolockBytes : UInt64 := 0

/-- A namespace with the settings ldlm_namespace_new gives it, at time `now`. -/
def ContentionEnv.defaults (now : Nat) : ContentionEnv :=
  ⟨nsDefaultContendedLocks, nsDefaultContentionSeconds, nsDefaultMaxNolockBytes, now⟩

/-- An extent resource as ldlm_resource_new sets it up: no locks, and an
empty tree for each mode, `lr_itree[idx]` of mode `1 << idx`. -/
def ldlmResourceNew : LdlmResource :=
  { lrGranted := [], lrWaiting := [],
    lrItree := [LdlmMode.ex, .pw, .pr, .cw, .cr, .nl, .group, .cos].map fun mode => ⟨0, mode, .leaf⟩ }

theorem grantSafe_ldlmResourceNew : GrantSafe ldlmResourceNew where
  granted := by simp [ldlmResourceNew]
  separate := List.Pairwise.nil
  oneGroup := by simp [ldlmResourceNew]
  indexed := by
    intro mode
    -- each empty tree indexes no lock
    cases mode <;> exact ⟨_, rfl, rfl, rfl, ⟨⟨by decide, by decide⟩, by decide⟩, by decide, by decide⟩

/-! ## Grants that break it -/

/-- A request of handle `handle` in `mode` for `[start, stop]` of group `gid`
from the client of export `handle`: its policy extent is the requested one,
as ldlm_handle_enqueue0 sets it. -/
def enqueuedLock (handle : Nat) (mode : LdlmMode) (start stop gid : UInt64) : LdlmLock :=
  { lHandle := handle, lReqMode := mode, lGrantedMode := none, lReqExtent := ⟨start, stop, gid⟩,
    lPolicyExtent := ⟨start, stop, gid⟩, lExport := some handle, lFlags := 0, lReaders := 0,
    lWriters := 0, lBlockingAst := true }

/-- The tree of `mode` holding one granted extent. -/
def singleExtentTree (mode : LdlmMode) (start stop : UInt64) : LdlmIntervalTree :=
  ⟨1, mode, .node .leaf ⟨.black, ⟨start, stop⟩, stop⟩ .leaf⟩

/-- A GROUP lock of group 7 on the first page and a PR lock on the second. -/
def groupAndReadResource : LdlmResource :=
  { lrGranted := [{ enqueuedLock 2 .group 0 4095 7 with lGrantedMode := some .group },
                  { enqueuedLock 3 .pr 4096 8191 0 with lGrantedMode := some .pr }],
    lrWaiting := [],
    lrItree := (ldlmResourceNew.lrItree.set 2 (singleExtentTree .pr 4096 8191)).set 6
      (singleExtentTree .group 0 4095) }

/-- A PW lock on bytes 101 to 200. -/
def writeResource : LdlmResource :=
  { lrGranted := [{ enqueuedLock 2 .pw 101 200 0 with lGrantedMode := some .pw }],
    lrWaiting := [],
    lrItree := ldlmResourceNew.lrItree.set 1 (singleExtentTree .pw 101 200) }

theorem grantSafe_groupAndReadResource : GrantSafe groupAndReadResource where
  granted := by decide
  separate := by decide
  oneGroup := by decide
  indexed := by
    intro mode
    cases mode <;> exact ⟨_, rfl, rfl, rfl, ⟨⟨by decide, by decide⟩, by decide⟩, by decide, by decide⟩

theorem grantSafe_writeResource : GrantSafe writeResource where
  granted := by decide
  separate := by decide
  oneGroup := by decide
  indexed := by
    intro mode
    cases mode <;> exact ⟨_, rfl, rfl, rfl, ⟨⟨by decide, by decide⟩, by decide⟩, by decide, by decide⟩

theorem ldlmProcessExtentLock_breaks_grantSafe :
    GrantSafe groupAndReadResource ∧
      (∃ result, ldlmProcessExtentLock (.defaults 0) 0 groupAndReadResource
          (enqueuedLock 1 .group 0 obdObjectEof 7) 0 true = some result ∧
        result.rc = 0 ∧ result.lock.lGrantedMode = some .group ∧ result.lock ∈ result.res.lrGranted ∧
        ¬ GrantSafe result.res) ∧
    GrantSafe writeResource ∧
      ∀ firstEnq : Bool, ∃ result, ldlmProcessExtentLock (.defaults 0) 0 writeResource
          (enqueuedLock 1 .pw 0 50 0) 0 firstEnq = some result ∧
        result.lock.lGrantedMode = some .pw ∧ result.lock ∈ result.res.lrGranted ∧
        ¬ GrantSafe result.res := by
  refine ⟨grantSafe_groupAndReadResource, ⟨_, rfl, rfl, rfl, by decide, fun safe => ?_⟩,
    grantSafe_writeResource, fun firstEnq => ?_⟩
  · -- the GROUP lock now covers the granted PR lock
    exact absurd safe.separate (by decide)
  · cases firstEnq <;> exact ⟨_, rfl, rfl, by decide, fun safe => absurd safe.separate (by decide)⟩

end Lustre.Ldlm
