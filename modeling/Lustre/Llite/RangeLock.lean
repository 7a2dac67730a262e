import Lustre.Ldlm.IntervalTree
import Lustre.Library.Run

/-!
# Range locks (llite/range_lock.c)

A range lock tree serialises the writers of a file over overlapping page
ranges.  `range_lock` counts, under the tree's spinlock, the locks already
present over its range (`rl_blocking_ranges`), links itself into the interval
tree or, when a lock of the same range is there, onto that lock's
`rl_next_lock` list, and takes the next sequence number; it then sleeps until
its count is zero.  `range_unlock` takes a lock out, moving the next lock of
the same range into the tree in its place, and lowers the count of every
present lock over its range that came after it.

The tree is modelled as the list of present locks in the order they came:
the locks of one range that are not in the interval tree are those on its
node's `rl_next_lock` list, in list order.  The interval tree is searched for
the nodes that meet a range, which `Lustre.Ldlm.intervalSearch` visits exactly
once each; the callbacks add and subtract, so the order does not matter.
Each critical section under `rlt_lock` is one event.

The order of the locks rests on a 64-bit sequence number; what the counts
mean, and where that breaks, is `Lustre.Llite.RangeLockSound`.
-/

namespace Lustre.Llite

open Lustre.Ldlm

/-! ## Locks and the tree -/

/-- LUSTRE_EOF -/
def lustreEof : UInt64 := 0xffffffffffffffff

/-- PAGE_SHIFT of a kernel with 4 KiB pages. -/
def pageShift : UInt64 := 12

/-- struct range_lock, by the identity of the structure: its page range
(`rl_node.in_extent`), whether its node is in the tree, `rl_lock_count`,
`rl_blocking_ranges` and `rl_sequence`.  `granted` records that range_lock
has returned 0 for it. -/
structure RangeLock where
  rlId : Nat
  rlNode : IntervalNodeExtent
  inTree : Bool
  rlLockCount : UInt32
  rlBlockingRanges : UInt32
  rlSequence : UInt64
  granted : Bool
  deriving DecidableEq, Repr

/-- struct range_lock_tree: the present locks in the order they came, and
`rlt_sequence`. -/
structure RangeLockTree where
  locks : List RangeLock
  rltSequence : UInt64
  deriving DecidableEq, Repr

/-- range_lock_tree_init -/
def rangeLockTreeInit : RangeLockTree := ⟨[], 0⟩

/-- range_lock_init over the bytes `[start, stop]`: the pages they cover;
`none` where interval_set asserts that the range is not empty. -/
def rangeLockInit (id : Nat) (start stop : UInt64) : Option RangeLock :=
  let stop := if stop ≠ lustreEof then stop >>> pageShift else stop
  let start := start >>> pageShift
  if start ≤ stop then some ⟨id, ⟨start, stop⟩, false, 0, 0, 0, false⟩ else none

/-- Two locks of one range. -/
def sameRange (a b : RangeLock) : Bool := a.rlNode = b.rlNode

/-- Two locks whose ranges meet. -/
def overlaps (a b : RangeLock) : Bool := extentOverlapped a.rlNode b.rlNode

theorem overlaps_eq (a b : RangeLock) : overlaps a b = extentOverlapped a.rlNode b.rlNode := rfl

@[simp] theorem sameRange_eq_true {a b : RangeLock} : sameRange a b = true ↔ a.rlNode = b.rlNode := by
  simp [sameRange]

theorem overlaps_comm (a b : RangeLock) : overlaps a b = overlaps b a := by
  simp only [overlaps_eq, extentOverlapped, Bool.and_comm]

theorem overlaps_of_rlNode_eq {a b : RangeLock} (same : a.rlNode = b.rlNode)
    (range : b.rlNode.start ≤ b.rlNode.stop) : overlaps a b = true := by
  simp [overlaps_eq, extentOverlapped, same, range]

/-- What range_lock_init builds: a lock of that structure over a nonempty
range, linked to nothing. -/
theorem rangeLockInit_eq_some {id : Nat} {start stop : UInt64} {lock : RangeLock}
    (init : rangeLockInit id start stop = some lock) :
    lock.rlId = id ∧ lock.rlNode.start ≤ lock.rlNode.stop ∧ lock.rlLockCount = 0 := by
  unfold rangeLockInit at init
  -- the page of `stop`, whichever way it was rounded
  generalize (if stop ≠ lustreEof then stop >>> pageShift else stop) = pageStop at init
  dsimp only at init
  split at init
  · cases init
    exact ⟨rfl, ‹_›, rfl⟩
  · cases init

/-! ## range_lock -/

/-- range_lock_cb over the nodes of the tree that meet the range of `lock`:
each adds its lock and the locks on its list. -/
def blockingRanges (locks : List RangeLock) (lock : RangeLock) : UInt32 :=
  locks.foldl (fun blocking overlap =>
    if overlap.inTree && overlaps overlap lock then blocking + (overlap.rlLockCount + 1)
    else blocking) 0

/-- The critical section of range_lock: count the blocking ranges, insert the
node or join the list of the node of the same range, take the next sequence
number, and return at once when nothing blocks. -/
def rangeLockEnter (tree : RangeLockTree) (lock : RangeLock) : RangeLockTree :=
  let blocking := blockingRanges tree.locks lock
  let sequence := tree.rltSequence + 1
  let found := tree.locks.find? fun other => other.inTree && sameRange other lock
  let locks := match found with
    | some node => tree.locks.map fun other =>
        if other.rlId = node.rlId then { other with rlLockCount := other.rlLockCount + 1 } else other
    | none => tree.locks
  let lock := { lock with inTree := found.isNone, rlBlockingRanges := blocking,
                          rlSequence := sequence, granted := blocking = 0 }
  ⟨locks ++ [lock], sequence⟩

/-- The task of lock `id` wakes with no signal pending and tests its count
again under `rlt_lock`. -/
def RangeLockTree.recheck (tree : RangeLockTree) (id : Nat) : RangeLockTree :=
  { tree with locks := tree.locks.map fun lock =>
      if lock.rlId = id ∧ lock.rlBlockingRanges = 0 then { lock with granted := true } else lock }

/-! ## range_unlock -/

/-- What range_unlock_cb at the node `overlap` does to one present lock: a
lock on the node's list, or the node itself, loses one blocking range if it
came after `lock`; `none` where the LASSERT on a listed lock fails. -/
def rangeUnlockCbIter (lock overlap iter : RangeLock) : Option RangeLock :=
  if iter.rlId ≠ overlap.rlId ∧ sameRange iter overlap ∧ iter.rlSequence > lock.rlSequence then
    let blocking := iter.rlBlockingRanges - 1
    if blocking > 0 then some { iter with rlBlockingRanges := blocking } else none
  else if iter.rlId = overlap.rlId ∧ overlap.rlSequence > lock.rlSequence then
    some { iter with rlBlockingRanges := iter.rlBlockingRanges - 1 }
  else some iter

/-- range_unlock_cb at the node `overlap` that meets the range of `lock`. -/
def rangeUnlockCb (lock overlap : RangeLock) (locks : List RangeLock) : Option (List RangeLock) :=
  locks.mapM (rangeUnlockCbIter lock overlap)

/-- The first half of range_unlock: the lock leaves the tree or the list of
its range; when it was in the tree, the next lock of its list takes its place
with the rest of the list.  `none` where an LASSERT fails. -/
def rangeUnlink (locks : List RangeLock) (lock : RangeLock) : Option (List RangeLock) :=
  let others := locks.filter (·.rlId ≠ lock.rlId)
  match others.filter (sameRange · lock) with
  | next :: ring =>
    if lock.inTree then
      some (others.map fun other =>
        if other.rlId = next.rlId then { other with rlLockCount := lock.rlLockCount - 1, inTree := true }
        else other)
    else
      match (next :: ring).find? (·.inTree) with
      | some node =>
        if node.rlLockCount > 0 then
          some (others.map fun other =>
            if other.rlId = node.rlId then { other with rlLockCount := other.rlLockCount - 1 }
            else other)
        else none
      | none => some others
  | [] => if lock.inTree then some others else none

/-- range_unlock: unlink the lock, then run range_unlock_cb at every node of
the tree that meets its range. -/
def rangeUnlock (tree : RangeLockTree) (lock : RangeLock) : Option RangeLockTree :=
  (rangeUnlink tree.locks lock).bind fun locks =>
    ((locks.filter fun overlap => overlap.inTree && overlaps overlap lock).foldlM
      (fun locks overlap => rangeUnlockCb lock overlap locks) locks).map (⟨·, tree.rltSequence⟩)

/-! ## Runs -/

/-- What a task does under `rlt_lock`: range_lock's first critical section on
a new struct range_lock over bytes `[start, stop]`, a wake-up that tests the
count again, a wake-up with a signal pending (range_unlock and `-EINTR`), and
range_unlock of a lock it holds. -/
inductive RangeLockEvent
  | lock (id : Nat) (start stop : UInt64)
  | recheck (id : Nat)
  | interrupt (id : Nat)
  | unlock (id : Nat)
  deriving DecidableEq, Repr

theorem RangeLockTree.recheck_eq (tree : RangeLockTree) (id : Nat) :
    tree.recheck id = ⟨tree.locks.map fun lock =>
      if lock.rlId = id ∧ lock.rlBlockingRanges = 0 then { lock with granted := true } else lock,
      tree.rltSequence⟩ := rfl

/-- The present lock of a structure. -/
def RangeLockTree.find (tree : RangeLockTree) (id : Nat) : Option RangeLock :=
  tree.locks.find? (·.rlId = id)

theorem RangeLockTree.find_eq_some {tree : RangeLockTree} {id : Nat}
    (present : ∃ lock ∈ tree.locks, lock.rlId = id) :
    ∃ lock, tree.find id = some lock ∧ lock ∈ tree.locks := by
  obtain ⟨lock, mem, named⟩ := present
  cases found : tree.find id with
  | none =>
    exact absurd named (by simpa using List.find?_eq_none.1 found lock mem)
  | some found' => exact ⟨found', rfl, List.mem_of_find?_eq_some found⟩

/-- One event; `none` once an LASSERT has failed. -/
def rangeLockStep : Option RangeLockTree → RangeLockEvent → Option RangeLockTree
  | none, _ => none
  | some tree, .lock id start stop => (rangeLockInit id start stop).map (rangeLockEnter tree)
  | some tree, .recheck id => some (tree.recheck id)
  | some tree, .interrupt id => (tree.find id).bind (rangeUnlock tree)
  | some tree, .unlock id => (tree.find id).bind (rangeUnlock tree)

/-- What the callers offer: range_lock on a structure not in the tree over a
range interval_set accepts, a wake-up or a signal only for a lock still
waiting, and range_unlock only of a lock range_lock returned. -/
def RangeLockAllowed : Option RangeLockTree → RangeLockEvent → Prop
  | some tree, .lock id start stop =>
    (∀ lock ∈ tree.locks, lock.rlId ≠ id) ∧ (rangeLockInit id start stop).isSome
  | some tree, .recheck id => ∃ lock ∈ tree.locks, lock.rlId = id ∧ lock.granted = false
  | some tree, .interrupt id => ∃ lock ∈ tree.locks, lock.rlId = id ∧ lock.granted = false
  | some tree, .unlock id => ∃ lock ∈ tree.locks, lock.rlId = id ∧ lock.granted = true
  | none, _ => True

instance RangeLockAllowed.decidable :
    (state : Option RangeLockTree) → (event : RangeLockEvent) → Decidable (RangeLockAllowed state event)
  | some tree, .lock id start stop =>
    inferInstanceAs (Decidable ((∀ lock ∈ tree.locks, lock.rlId ≠ id) ∧
      (rangeLockInit id start stop).isSome))
  | some tree, .recheck id =>
    inferInstanceAs (Decidable (∃ lock ∈ tree.locks, lock.rlId = id ∧ lock.granted = false))
  | some tree, .interrupt id =>
    inferInstanceAs (Decidable (∃ lock ∈ tree.locks, lock.rlId = id ∧ lock.granted = false))
  | some tree, .unlock id =>
    inferInstanceAs (Decidable (∃ lock ∈ tree.locks, lock.rlId = id ∧ lock.granted = true))
  | none, _ => isTrue trivial

/-- The same, while the sequence has not reached its last value and fewer
than `2^32 - 1` locks are present when one more comes. -/
def RangeLockBounded (state : Option RangeLockTree) (event : RangeLockEvent) : Prop :=
  RangeLockAllowed state event ∧
    ∀ tree, state = some tree → ∀ id start stop, event = .lock id start stop →
      tree.rltSequence.toNat + 1 < 2 ^ 64 ∧ tree.locks.length + 1 < 2 ^ 32

end Lustre.Llite
