import Lustre.Llite.RangeLock
import Lustre.Library.Groups
import Lustre.Library.Word

/-!
# Range locks exclude each other

`Sound` is the invariant of a range lock tree: the present locks are each
there once, in the order of their sequence numbers; the first lock of each
range is the node in the interval tree and counts the others of its range;
each lock counts as blocking it exactly the earlier locks over its range; and
a lock that range_lock returned has nothing blocking it.  Its last two parts
give mutual exclusion (`Sound.granted_disjoint`).

range_lock adds up, at each node its range meets, the size of the node's
range; that this is the number of locks over its range rests on one node per
range (`Groups.sum_classSize_leaders`).  range_unlock lowers the count of each
later lock over its range once, at the node of that lock's range
(`Groups.foldlM_eq_some_of_one_acts`).

As long as the sequence does not wrap and fewer than `2^32 - 1` locks are
present, every run keeps `Sound` (`rangeLock_sound_of_run`).
`rangeLock_wrapped_sequence_overlaps` shows the wrap: after `2^64 - 3` locks
taken and released, an interrupted lock wakes another over a range still held.
-/

namespace Lustre.Llite

open Lustre.Ldlm Groups

/-! ## The invariant -/

/-- `other` blocks `lock`: its range meets the range of `lock` and it came first. -/
def blocks (other lock : RangeLock) : Bool :=
  overlaps other lock && decide (other.rlSequence < lock.rlSequence)

theorem blocks_eq (other lock : RangeLock) :
    blocks other lock = (overlaps other lock && decide (other.rlSequence < lock.rlSequence)) := rfl

/-- No present lock of the range of `lock` came before it. -/
def FirstOfRange (locks : List RangeLock) (lock : RangeLock) : Prop :=
  ∀ other ∈ locks, other.rlNode = lock.rlNode → lock.rlSequence ≤ other.rlSequence

theorem firstOfRange_def (locks : List RangeLock) (lock : RangeLock) :
    FirstOfRange locks lock ↔
      ∀ other ∈ locks, other.rlNode = lock.rlNode → lock.rlSequence ≤ other.rlSequence := Iff.rfl

/-- The present locks are each there once, came in the order of their sequence
numbers, and cover nonempty ranges. -/
structure Placed (locks : List RangeLock) : Prop where
  ids : (locks.map RangeLock.rlId).Nodup
  ordered : locks.Pairwise fun a b => a.rlSequence < b.rlSequence
  ranges : ∀ lock ∈ locks, lock.rlNode.start ≤ lock.rlNode.stop

/-- The links of the present locks: the first lock of each range is the node
in the interval tree, and it counts the other locks of its range. -/
structure Linked (locks : List RangeLock) : Prop extends Placed locks where
  inTree : ∀ lock ∈ locks, lock.inTree = true ↔ FirstOfRange locks lock
  lockCount : ∀ lock ∈ locks, lock.inTree = true →
    lock.rlLockCount.toNat + 1 = classSize RangeLock.rlNode locks lock

/-- The invariant of a range lock tree: the links hold, every sequence number
has been issued, each lock counts the earlier locks over its range as blocking
it, and a lock that range_lock returned has nothing blocking it. -/
structure Sound (tree : RangeLockTree) : Prop extends Linked tree.locks where
  issued : ∀ lock ∈ tree.locks, lock.rlSequence ≤ tree.rltSequence
  blocking : ∀ lock ∈ tree.locks,
    lock.rlBlockingRanges.toNat = tree.locks.countP (blocks · lock)
  granted : ∀ lock ∈ tree.locks, lock.granted = true → lock.rlBlockingRanges = 0

/-- A change to the present locks that keeps which lock each is, its range and
its sequence. -/
structure KeepsPlace (F : RangeLock → RangeLock) : Prop where
  rlId : ∀ lock, (F lock).rlId = lock.rlId
  rlNode : ∀ lock, (F lock).rlNode = lock.rlNode
  rlSequence : ∀ lock, (F lock).rlSequence = lock.rlSequence

/-! ## Placed locks -/

namespace Placed

variable {locks : List RangeLock} (placed : Placed locks)
include placed

theorem eq_of_rlId_eq {a b : RangeLock} (aIn : a ∈ locks) (bIn : b ∈ locks)
    (same : a.rlId = b.rlId) : a = b :=
  List.inj_on_of_nodup_map placed.ids aIn bIn same

theorem eq_of_rlSequence_eq {a b : RangeLock} (aIn : a ∈ locks) (bIn : b ∈ locks)
    (same : a.rlSequence = b.rlSequence) : a = b := by
  have distinct : (locks.map RangeLock.rlSequence).Nodup :=
    List.pairwise_map.2 (placed.ordered.imp UInt64.ne_of_lt)
  exact List.inj_on_of_nodup_map distinct aIn bIn same

theorem lt_of_le_of_ne {a b : RangeLock} (aIn : a ∈ locks) (bIn : b ∈ locks)
    (before : a.rlSequence ≤ b.rlSequence) (other : a ≠ b) : a.rlSequence < b.rlSequence :=
  UInt64.lt_of_le_of_ne before fun same => other (placed.eq_of_rlSequence_eq aIn bIn same)

theorem sublist {others : List RangeLock} (sub : others.Sublist locks) : Placed others where
  ids := placed.ids.sublist (sub.map _)
  ordered := placed.ordered.sublist sub
  ranges := fun lock mem => placed.ranges lock (sub.subset mem)

theorem map {F : RangeLock → RangeLock} (keeps : KeepsPlace F) : Placed (locks.map F) where
  ids := by
    rw [List.map_map]
    simpa only [Function.comp_def, keeps.rlId] using placed.ids
  ordered := List.pairwise_map.2 (by simpa only [keeps.rlSequence] using placed.ordered)
  ranges := by
    simp only [List.mem_map, forall_exists_index, and_imp, forall_apply_eq_imp_iff₂, keeps.rlNode]
    exact placed.ranges

/-- The first lock of a range in list order came first of its range. -/
theorem firstOfRange_of_filter_eq_cons {lock next : RangeLock} {ring : List RangeLock}
    (split : locks.filter (sameRange · lock) = next :: ring) :
    next ∈ locks ∧ next.rlNode = lock.rlNode ∧ FirstOfRange locks next := by
  have inFilter : ∀ {other}, other ∈ next :: ring ↔ other ∈ locks ∧ other.rlNode = lock.rlNode := by
    intro other
    rw [← split, List.mem_filter, sameRange_eq_true]
  obtain ⟨nextIn, nextSame⟩ := inFilter.1 List.mem_cons_self
  have ordered : (next :: ring).Pairwise fun a b => a.rlSequence < b.rlSequence :=
    split ▸ placed.ordered.filter _
  refine ⟨nextIn, nextSame, fun other otherIn same => ?_⟩
  rcases List.mem_cons.1 (inFilter.2 ⟨otherIn, same.trans nextSame⟩) with rfl | inRing
  · exact UInt64.le_refl _
  · exact UInt64.le_of_lt (List.rel_of_pairwise_cons ordered inRing)

/-! ### Taking one lock out -/

variable {X : RangeLock} (mem : X ∈ locks)
include mem

theorem mem_others_iff {other : RangeLock} :
    other ∈ locks.filter (·.rlId ≠ X.rlId) ↔ other ∈ locks ∧ other ≠ X := by
  rw [List.mem_filter, decide_eq_true_iff]
  exact and_congr_right fun otherIn =>
    ⟨fun named same => named (same ▸ rfl), fun other named => other (placed.eq_of_rlId_eq otherIn mem named)⟩

theorem countP_eq_others (p : RangeLock → Bool) :
    locks.countP p = (locks.filter (·.rlId ≠ X.rlId)).countP p + if p X then 1 else 0 :=
  countP_eq_countP_filter_key_ne_add RangeLock.rlId p placed.ids mem

theorem classSize_eq_others (lock : RangeLock) :
    classSize RangeLock.rlNode locks lock =
      classSize RangeLock.rlNode (locks.filter (·.rlId ≠ X.rlId)) lock +
        if X.rlNode = lock.rlNode then 1 else 0 := by
  simp only [classSize, placed.countP_eq_others mem, decide_eq_true_eq]

theorem firstOfRange_iff_others {lock : RangeLock} :
    FirstOfRange locks lock ↔ FirstOfRange (locks.filter (·.rlId ≠ X.rlId)) lock ∧
      (X.rlNode = lock.rlNode → lock.rlSequence ≤ X.rlSequence) := by
  constructor
  · intro first
    exact ⟨fun other otherIn => first other (List.mem_of_mem_filter otherIn), first X mem⟩
  · rintro ⟨first, againstX⟩ other otherIn same
    by_cases isX : other = X
    · subst isX
      exact againstX same
    · exact first other ((placed.mem_others_iff mem).2 ⟨otherIn, isX⟩) same

end Placed

/-! ## Changes that keep every lock in place -/

namespace KeepsPlace

variable {F : RangeLock → RangeLock} (keeps : KeepsPlace F)
include keeps

theorem blocks_left (other lock : RangeLock) : blocks (F other) lock = blocks other lock := by
  simp only [blocks_eq, overlaps_eq, keeps.rlNode, keeps.rlSequence]

theorem blocks_right (other lock : RangeLock) : blocks other (F lock) = blocks other lock := by
  simp only [blocks_eq, overlaps_eq, keeps.rlNode, keeps.rlSequence]

theorem countP_blocks (locks : List RangeLock) (lock : RangeLock) :
    (locks.map F).countP (blocks · (F lock)) = locks.countP (blocks · lock) := by
  simp only [List.countP_map, Function.comp_def, keeps.blocks_left, keeps.blocks_right]

theorem classSize_eq (locks : List RangeLock) (lock : RangeLock) :
    classSize RangeLock.rlNode (locks.map F) (F lock) = classSize RangeLock.rlNode locks lock :=
  classSize_map _ keeps.rlNode locks lock

theorem firstOfRange_iff {locks : List RangeLock} {lock : RangeLock} :
    FirstOfRange (locks.map F) (F lock) ↔ FirstOfRange locks lock := by
  simp only [firstOfRange_def, List.mem_map, forall_exists_index, and_imp, forall_apply_eq_imp_iff₂,
    keeps.rlNode, keeps.rlSequence]

end KeepsPlace

/-- A change at the lock of one structure that keeps its place. -/
theorem keepsPlace_update (id : Nat) (change : RangeLock → RangeLock) (keeps : KeepsPlace change) :
    KeepsPlace fun lock => if lock.rlId = id then change lock else lock where
  rlId lock := by split <;> simp [keeps.rlId]
  rlNode lock := by split <;> simp [keeps.rlNode]
  rlSequence lock := by split <;> simp [keeps.rlSequence]

/-! ## Linked locks -/

namespace Linked

variable {locks : List RangeLock} (linked : Linked locks)
include linked

/-- Every range has its node. -/
theorem exists_node {lock : RangeLock} (mem : lock ∈ locks) :
    ∃ node ∈ locks, node.inTree = true ∧ node.rlNode = lock.rlNode := by
  obtain ⟨next, ring, split⟩ : ∃ next ring, locks.filter (sameRange · lock) = next :: ring :=
    List.exists_cons_of_ne_nil (List.ne_nil_of_mem (List.mem_filter.2 ⟨mem, by simp⟩))
  obtain ⟨nextIn, nextSame, first⟩ := linked.firstOfRange_of_filter_eq_cons split
  exact ⟨next, nextIn, (linked.inTree next nextIn).2 first, nextSame⟩

/-- A range has one node. -/
theorem node_unique {a b : RangeLock} (aIn : a ∈ locks) (bIn : b ∈ locks)
    (aNode : a.inTree = true) (bNode : b.inTree = true) (same : a.rlNode = b.rlNode) : a = b := by
  have aFirst := (linked.inTree a aIn).1 aNode b bIn same.symm
  have bFirst := (linked.inTree b bIn).1 bNode a aIn same
  exact linked.eq_of_rlSequence_eq aIn bIn (UInt64.le_antisymm aFirst bFirst)

/-- The node of a range came no later than the other locks of its range. -/
theorem node_le {node lock : RangeLock} (nodeIn : node ∈ locks) (lockIn : lock ∈ locks)
    (isNode : node.inTree = true) (same : node.rlNode = lock.rlNode) :
    node.rlSequence ≤ lock.rlSequence :=
  (linked.inTree node nodeIn).1 isNode lock lockIn same.symm

theorem map {F : RangeLock → RangeLock} (keeps : KeepsPlace F)
    (links : ∀ lock, (F lock).inTree = lock.inTree ∧ (F lock).rlLockCount = lock.rlLockCount) :
    Linked (locks.map F) where
  toPlaced := linked.toPlaced.map keeps
  inTree := by
    simp only [List.mem_map, forall_exists_index, and_imp, forall_apply_eq_imp_iff₂,
      (links _).1, keeps.firstOfRange_iff]
    exact linked.inTree
  lockCount := by
    simp only [List.mem_map, forall_exists_index, and_imp, forall_apply_eq_imp_iff₂,
      (links _).1, (links _).2, keeps.classSize_eq]
    exact linked.lockCount

end Linked

/-! ## range_lock -/

theorem firstOfRange_append_later {locks extra : List RangeLock} {lock : RangeLock}
    (later : ∀ other ∈ extra, lock.rlSequence ≤ other.rlSequence) :
    FirstOfRange (locks ++ extra) lock ↔ FirstOfRange locks lock := by
  simp only [firstOfRange_def, List.mem_append, or_imp, forall_and]
  exact and_iff_left fun other otherIn _ => later other otherIn

theorem classSize_append (locks extra : List RangeLock) (lock : RangeLock) :
    classSize RangeLock.rlNode (locks ++ extra) lock =
      classSize RangeLock.rlNode locks lock + classSize RangeLock.rlNode extra lock :=
  List.countP_append

/-- The nodes of a linked list of locks have distinct ranges. -/
theorem Linked.nodup_nodeRanges {locks : List RangeLock} (linked : Linked locks) :
    ((locks.filter RangeLock.inTree).map RangeLock.rlNode).Nodup := by
  have nodup : locks.Nodup := List.Nodup.of_map _ linked.ids
  apply (nodup.filter _).map_on
  intro a aIn b bIn same
  obtain ⟨aIn, aNode⟩ := List.mem_filter.1 aIn
  obtain ⟨bIn, bNode⟩ := List.mem_filter.1 bIn
  exact linked.node_unique aIn bIn aNode bNode same

/-- range_lock_cb, at the nodes that meet the range of `lock`, adds up the
locks over that range. -/
theorem Linked.blockingRanges_toNat {locks : List RangeLock} (linked : Linked locks)
    (room : locks.length < 2 ^ 32) (lock : RangeLock) :
    (blockingRanges locks lock).toNat = locks.countP (overlaps · lock) := by
  have sizes : ∀ node ∈ locks.filter (fun other => other.inTree && overlaps other lock),
      (node.rlLockCount + 1).toNat = classSize RangeLock.rlNode locks node := by
    intro node mem
    obtain ⟨nodeIn, both⟩ := List.mem_filter.1 mem
    have counted := linked.lockCount node nodeIn (Bool.and_eq_true_iff.1 both).1
    have bounded : classSize RangeLock.rlNode locks node ≤ locks.length := List.countP_le_length
    rw [UInt32.toNat_add, UInt32.toNat_one, Nat.mod_eq_of_lt (by omega)]
    exact counted
  have summed : ((locks.filter fun other => other.inTree && overlaps other lock).map
      (classSize RangeLock.rlNode locks)).sum = locks.countP (overlaps · lock) :=
    sum_classSize_leaders RangeLock.rlNode RangeLock.inTree linked.nodup_nodeRanges
      (fun _ mem => linked.exists_node mem) (fun range => extentOverlapped range lock.rlNode)
  have total : (blockingRanges locks lock).toNat =
      (((locks.filter fun other => other.inTree && overlaps other lock).map
        fun node => (node.rlLockCount + 1).toNat).sum) % 2 ^ 32 := by
    rw [blockingRanges, UInt32.toNat_foldl_add, UInt32.toNat_zero, Nat.zero_add]
  rw [total, List.map_congr_left sizes, summed]
  exact Nat.mod_eq_of_lt (lt_of_le_of_lt List.countP_le_length room)

/-- A lock that comes last, counted as range_lock counts it, keeps the
invariant; `F` is the change range_lock makes to the locks already there. -/
theorem Sound.append {tree : RangeLockTree} (sound : Sound tree) (entered : RangeLock)
    {F : RangeLock → RangeLock} (keeps : KeepsPlace F)
    (fields : ∀ lock, (F lock).inTree = lock.inTree ∧
      (F lock).rlBlockingRanges = lock.rlBlockingRanges ∧ (F lock).granted = lock.granted)
    (counted : ∀ lock ∈ tree.locks, lock.inTree = true → (F lock).rlLockCount.toNat =
      lock.rlLockCount.toNat + if lock.rlNode = entered.rlNode then 1 else 0)
    (fresh : ∀ lock ∈ tree.locks, lock.rlId ≠ entered.rlId)
    (range : entered.rlNode.start ≤ entered.rlNode.stop)
    (room : tree.rltSequence.toNat + 1 < 2 ^ 64)
    (sequence : entered.rlSequence = tree.rltSequence + 1)
    (alone : entered.inTree = true ↔ ∀ lock ∈ tree.locks, lock.rlNode ≠ entered.rlNode)
    (unlinked : entered.rlLockCount = 0)
    (blocking : entered.rlBlockingRanges.toNat = tree.locks.countP (overlaps · entered))
    (granted : entered.granted = true → entered.rlBlockingRanges = 0) :
    Sound ⟨tree.locks.map F ++ [entered], tree.rltSequence + 1⟩ := by
  have later : ∀ lock ∈ tree.locks, lock.rlSequence < entered.rlSequence := by
    intro lock mem
    have issued := UInt64.le_iff_toNat_le.1 (sound.issued lock mem)
    rw [sequence, UInt64.lt_iff_toNat_lt, UInt64.toNat_add, UInt64.toNat_one,
      Nat.mod_eq_of_lt room]
    omega
  have firstMapped : ∀ lock ∈ tree.locks, FirstOfRange (tree.locks.map F ++ [entered]) (F lock) ↔
      FirstOfRange tree.locks lock := by
    intro lock mem
    rw [firstOfRange_append_later, keeps.firstOfRange_iff]
    intro other isEntered
    rw [List.mem_singleton.1 isEntered, keeps.rlSequence]
    exact UInt64.le_of_lt (later lock mem)
  have firstEntered : FirstOfRange (tree.locks.map F ++ [entered]) entered ↔
      ∀ lock ∈ tree.locks, lock.rlNode ≠ entered.rlNode := by
    simp only [firstOfRange_def, List.mem_append, List.mem_map, List.mem_singleton, or_imp, forall_and,
      forall_exists_index, and_imp, forall_apply_eq_imp_iff₂, forall_eq, keeps.rlNode,
      keeps.rlSequence, UInt64.le_refl, implies_true, and_true]
    exact forall₂_congr fun lock mem =>
      ⟨fun first same => absurd (first same) (UInt64.not_le.2 (later lock mem)), fun apart same => absurd same apart⟩
  have blocksEntered : ∀ lock ∈ tree.locks, blocks (F lock) entered = overlaps lock entered := by
    intro lock mem
    simp only [blocks_eq, overlaps_eq, keeps.rlNode, keeps.rlSequence, later lock mem, decide_true, Bool.and_true]
  have notBlocked : ∀ lock ∈ tree.locks, blocks entered (F lock) = false := by
    intro lock mem
    simp only [blocks_eq, keeps.rlSequence, UInt64.not_lt.2 (UInt64.le_of_lt (later lock mem)),
      decide_false, Bool.and_false]
  refine ⟨⟨⟨?ids, ?ordered, ?ranges⟩, ?inTree, ?lockCount⟩, ?issued, ?blocking, ?granted⟩
  case ids =>
    have ids : (tree.locks.map F).map RangeLock.rlId = tree.locks.map RangeLock.rlId := by
      simp only [List.map_map, Function.comp_def, keeps.rlId]
    simp only [List.map_append, ids, List.map_cons, List.map_nil, List.nodup_append, sound.ids,
      List.nodup_cons, List.not_mem_nil, not_false_eq_true, List.nodup_nil, and_self, List.mem_map,
      List.mem_singleton, true_and]
    rintro _ ⟨lock, mem, rfl⟩ _ rfl
    exact fresh lock mem
  case ordered =>
    simp only [List.pairwise_append, List.pairwise_map, keeps.rlSequence, sound.ordered,
      List.pairwise_singleton, List.mem_map, List.mem_singleton, true_and, forall_exists_index,
      and_imp, forall_apply_eq_imp_iff₂, forall_eq]
    exact later
  case ranges =>
    simp only [List.mem_append, List.mem_map, List.mem_singleton, or_imp, forall_and,
      forall_exists_index, and_imp, forall_apply_eq_imp_iff₂, forall_eq, keeps.rlNode]
    exact ⟨sound.ranges, range⟩
  case inTree =>
    simp only [List.mem_append, List.mem_map, List.mem_singleton, or_imp, forall_and,
      forall_exists_index, and_imp, forall_apply_eq_imp_iff₂, forall_eq]
    refine ⟨fun lock mem => ?_, alone.trans firstEntered.symm⟩
    rw [(fields lock).1, firstMapped lock mem]
    exact sound.inTree lock mem
  case lockCount =>
    simp only [List.mem_append, List.mem_map, List.mem_singleton, or_imp, forall_and,
      forall_exists_index, and_imp, forall_apply_eq_imp_iff₂, forall_eq]
    constructor
    · intro lock mem isNode
      rw [(fields lock).1] at isNode
      have single : classSize RangeLock.rlNode [entered] (F lock) =
          if lock.rlNode = entered.rlNode then 1 else 0 := by
        by_cases same : lock.rlNode = entered.rlNode <;>
          simp [classSize, keeps.rlNode, same, Ne.symm]
      rw [counted lock mem isNode, classSize_append, keeps.classSize_eq, single,
        ← sound.lockCount lock mem isNode]
      omega
    · intro isNode
      have none : classSize RangeLock.rlNode (tree.locks.map F) entered = 0 := by
        simp only [classSize, List.countP_eq_zero, List.mem_map, forall_exists_index, and_imp,
          forall_apply_eq_imp_iff₂, keeps.rlNode, decide_eq_true_eq]
        exact alone.1 isNode
      rw [classSize_append, none, unlinked]
      simp [classSize]
  case issued =>
    simp only [List.mem_append, List.mem_map, List.mem_singleton, or_imp, forall_and,
      forall_exists_index, and_imp, forall_apply_eq_imp_iff₂, forall_eq]
    refine ⟨fun lock mem => ?_, sequence ▸ UInt64.le_refl _⟩
    rw [keeps.rlSequence, ← sequence]
    exact UInt64.le_of_lt (later lock mem)
  case blocking =>
    simp only [List.mem_append, List.mem_map, List.mem_singleton, or_imp, forall_and,
      forall_exists_index, and_imp, forall_apply_eq_imp_iff₂, forall_eq, List.countP_append]
    constructor
    · intro lock mem
      rw [keeps.countP_blocks, (fields lock).2.1, sound.blocking lock mem, List.countP_singleton,
        notBlocked lock mem]
      rfl
    · have notSelf : blocks entered entered = false := by
        simp [blocks_eq, UInt64.lt_irrefl]
      simp only [blocking, List.countP_map, List.countP_singleton, notSelf, Bool.false_eq_true,
        if_false, Nat.add_zero]
      exact (List.countP_congr fun lock mem => by
        rw [Function.comp_apply, blocksEntered lock mem]).symm
  case granted =>
    simp only [List.mem_append, List.mem_map, List.mem_singleton, or_imp, forall_and,
      forall_exists_index, and_imp, forall_apply_eq_imp_iff₂, forall_eq]
    refine ⟨fun lock mem isGranted => ?_, granted⟩
    rw [(fields lock).2.1]
    rw [(fields lock).2.2] at isGranted
    exact sound.granted lock mem isGranted

/-- range_lock's critical section keeps the invariant while the sequence has
room and fewer than `2^32 - 1` locks are present. -/
theorem Sound.enter {tree : RangeLockTree} (sound : Sound tree) {lock : RangeLock}
    (fresh : ∀ other ∈ tree.locks, other.rlId ≠ lock.rlId)
    (range : lock.rlNode.start ≤ lock.rlNode.stop) (unlinked : lock.rlLockCount = 0)
    (room : tree.rltSequence.toNat + 1 < 2 ^ 64) (fewer : tree.locks.length + 1 < 2 ^ 32) :
    Sound (rangeLockEnter tree lock) := by
  have blocking := sound.blockingRanges_toNat (by omega) lock
  have granted : ∀ blocking : UInt32, decide (blocking = 0) = true → blocking = 0 :=
    fun _ isZero => of_decide_eq_true isZero
  cases found : tree.locks.find? (fun other => other.inTree && sameRange other lock) with
  | none =>
    -- no node has the range of `lock`, so no present lock has it
    have apart : ∀ other ∈ tree.locks, other.rlNode ≠ lock.rlNode := by
      intro other mem same
      obtain ⟨node, nodeIn, isNode, nodeSame⟩ := sound.exists_node mem
      have missed := List.find?_eq_none.1 found node nodeIn
      simp [isNode, nodeSame, same] at missed
    have entered := sound.append
      { lock with
        inTree := true
        rlBlockingRanges := blockingRanges tree.locks lock
        rlSequence := tree.rltSequence + 1
        granted := decide (blockingRanges tree.locks lock = 0) }
      (F := id) ⟨fun _ => rfl, fun _ => rfl, fun _ => rfl⟩ (fun _ => ⟨rfl, rfl, rfl⟩) (fun other mem _ => by simp [apart other mem]) fresh range room rfl
      (by simpa using apart) unlinked blocking (granted _)
    simpa only [rangeLockEnter, found, List.map_id, Option.isNone_none] using entered
  | some node =>
    obtain ⟨isNode, nodeSame⟩ : node.inTree = true ∧ node.rlNode = lock.rlNode := by
      simpa using List.find?_some found
    have nodeIn : node ∈ tree.locks := List.mem_of_find?_eq_some found
    have countRoom : node.rlLockCount.toNat + 1 < 2 ^ 32 := by
      have counted := sound.lockCount node nodeIn isNode
      have bounded : classSize RangeLock.rlNode tree.locks node ≤ tree.locks.length :=
        List.countP_le_length
      omega
    have counted : ∀ other ∈ tree.locks, other.inTree = true →
        (if other.rlId = node.rlId then { other with rlLockCount := other.rlLockCount + 1 }
          else other).rlLockCount.toNat =
        other.rlLockCount.toNat + if other.rlNode = lock.rlNode then 1 else 0 := by
      intro other mem isOther
      by_cases named : other.rlId = node.rlId
      · obtain rfl := sound.eq_of_rlId_eq mem nodeIn named
        simp only [if_true, nodeSame, UInt32.toNat_add, UInt32.toNat_one]
        exact Nat.mod_eq_of_lt countRoom
      · have otherRange : other.rlNode ≠ lock.rlNode := fun same =>
          named (congrArg RangeLock.rlId
            (sound.node_unique mem nodeIn isOther isNode (same.trans nodeSame.symm)))
        simp [named, otherRange]
    have entered := sound.append
      { lock with
        inTree := false
        rlBlockingRanges := blockingRanges tree.locks lock
        rlSequence := tree.rltSequence + 1
        granted := decide (blockingRanges tree.locks lock = 0) }
      (keepsPlace_update node.rlId (fun other => { other with rlLockCount := other.rlLockCount + 1 })
        ⟨fun _ => rfl, fun _ => rfl, fun _ => rfl⟩)
      (fun other => by by_cases named : other.rlId = node.rlId <;> simp [named]) counted fresh range room rfl
      (by simpa using ⟨node, nodeIn, nodeSame⟩) unlinked blocking (granted _)
    simpa only [rangeLockEnter, found, Option.isNone_some] using entered

/-! ## range_unlock -/

/-- What range_unlock leaves of a lock that `lock` may have blocked. -/
def unblocked (lock other : RangeLock) : RangeLock :=
  if blocks lock other then { other with rlBlockingRanges := other.rlBlockingRanges - 1 } else other

theorem keepsPlace_unblocked (lock : RangeLock) : KeepsPlace (unblocked lock) where
  rlId other := by unfold unblocked; split <;> rfl
  rlNode other := by unfold unblocked; split <;> rfl
  rlSequence other := by unfold unblocked; split <;> rfl

theorem unblocked_links (lock other : RangeLock) :
    (unblocked lock other).inTree = other.inTree ∧
      (unblocked lock other).rlLockCount = other.rlLockCount := by
  unfold unblocked
  split <;> exact ⟨rfl, rfl⟩

/-- What range_unlock's first half leaves of the locks: the others than
`lock`, each changed at most in its links, linked again. -/
def Unlinked (locks : List RangeLock) (lock : RangeLock) (result : List RangeLock) : Prop :=
  ∃ G : RangeLock → RangeLock, KeepsPlace G ∧
    (∀ other, (G other).rlBlockingRanges = other.rlBlockingRanges ∧
      (G other).granted = other.granted) ∧
    result = (locks.filter (·.rlId ≠ lock.rlId)).map G ∧ Linked result

/-- Placed locks that a change links again. -/
theorem Placed.linked_map {locks : List RangeLock} (placed : Placed locks)
    {G : RangeLock → RangeLock} (keeps : KeepsPlace G)
    (inTree : ∀ lock ∈ locks, (G lock).inTree = true ↔ FirstOfRange locks lock)
    (lockCount : ∀ lock ∈ locks, (G lock).inTree = true →
      (G lock).rlLockCount.toNat + 1 = classSize RangeLock.rlNode locks lock) :
    Linked (locks.map G) where
  toPlaced := placed.map keeps
  inTree := by
    simp only [List.mem_map, forall_exists_index, and_imp, forall_apply_eq_imp_iff₂,
      keeps.firstOfRange_iff]
    exact inTree
  lockCount := by
    simp only [List.mem_map, forall_exists_index, and_imp, forall_apply_eq_imp_iff₂,
      keeps.classSize_eq]
    exact lockCount

/-- A lock whose range no other lock has leaves the tree alone. -/
theorem Linked.unlinked_of_alone {locks : List RangeLock} (linked : Linked locks) {lock : RangeLock}
    (mem : lock ∈ locks) (alone : ∀ other ∈ locks, other ≠ lock → other.rlNode ≠ lock.rlNode) :
    Unlinked locks lock (locks.filter (·.rlId ≠ lock.rlId)) := by
  have placed : Placed (locks.filter (·.rlId ≠ lock.rlId)) :=
    linked.sublist (List.filter_sublist)
  have relinked := placed.linked_map (G := id) ⟨fun _ => rfl, fun _ => rfl, fun _ => rfl⟩
    (fun other otherIn => by
      obtain ⟨otherLocks, otherNe⟩ := (linked.mem_others_iff mem).1 otherIn
      rw [id, linked.inTree other otherLocks, linked.firstOfRange_iff_others mem]
      exact and_iff_left fun same => absurd same.symm (alone other otherLocks otherNe))
    (fun other otherIn isNode => by
      obtain ⟨otherLocks, otherNe⟩ := (linked.mem_others_iff mem).1 otherIn
      rw [id, linked.lockCount other otherLocks isNode, linked.classSize_eq_others mem,
        if_neg fun same => alone other otherLocks otherNe same.symm, Nat.add_zero])
  rw [List.map_id] at relinked
  exact ⟨id, ⟨fun _ => rfl, fun _ => rfl, fun _ => rfl⟩, fun _ => ⟨rfl, rfl⟩,
    (List.map_id _).symm, relinked⟩


/-- A lock on the list of its range leaves it; the node counts one lock less. -/
theorem Linked.rangeUnlink_of_listed {locks : List RangeLock} (linked : Linked locks)
    {lock : RangeLock} (mem : lock ∈ locks) (listed : lock.inTree = false) :
    ∃ result, rangeUnlink locks lock = some result ∧ Unlinked locks lock result := by
  have placed : Placed (locks.filter (·.rlId ≠ lock.rlId)) :=
    linked.sublist List.filter_sublist
  obtain ⟨node, nodeIn, isNode, nodeSame⟩ := linked.exists_node mem
  have nodeNe : node ≠ lock := by
    rintro rfl
    rw [isNode] at listed
    cases listed
  have nodeOthers : node ∈ locks.filter (·.rlId ≠ lock.rlId) :=
    (linked.mem_others_iff mem).2 ⟨nodeIn, nodeNe⟩
  have nodeMate : node ∈ (locks.filter (·.rlId ≠ lock.rlId)).filter (sameRange · lock) :=
    List.mem_filter.2 ⟨nodeOthers, sameRange_eq_true.2 nodeSame⟩
  obtain ⟨next, ring, mates⟩ := List.exists_cons_of_ne_nil (List.ne_nil_of_mem nodeMate)
  -- the node is the one lock of the range in the tree, so the walk finds it
  have found : (next :: ring).find? (·.inTree) = some node := by
    obtain ⟨first, firstFound⟩ :=
      Option.isSome_iff_exists.1 (List.find?_isSome.2 ⟨node, mates ▸ nodeMate, isNode⟩)
    have firstMate := List.mem_of_find?_eq_some firstFound
    rw [← mates] at firstMate
    obtain ⟨firstOthers, firstSame⟩ := List.mem_filter.1 firstMate
    rw [firstFound, linked.node_unique (List.mem_of_mem_filter firstOthers) nodeIn
      (List.find?_some firstFound) isNode ((sameRange_eq_true.1 firstSame).trans nodeSame.symm)]
  have counted := linked.lockCount node nodeIn isNode
  rw [linked.classSize_eq_others mem, if_pos nodeSame.symm] at counted
  have present : 1 ≤ classSize RangeLock.rlNode (locks.filter (·.rlId ≠ lock.rlId)) node :=
    List.countP_pos_iff.2 ⟨node, nodeOthers, by simp⟩
  have positive : 0 < node.rlLockCount := by
    rw [UInt32.lt_iff_toNat_lt, UInt32.toNat_zero]
    omega
  let G := fun other : RangeLock =>
    if other.rlId = node.rlId then { other with rlLockCount := other.rlLockCount - 1 } else other
  have keeps : KeepsPlace G := keepsPlace_update node.rlId _ ⟨fun _ => rfl, fun _ => rfl, fun _ => rfl⟩
  have links : ∀ other, (G other).inTree = other.inTree := by
    intro other
    by_cases named : other.rlId = node.rlId <;> simp [G, named]
  refine ⟨_, ?_, G, keeps, fun other => ?_, rfl, placed.linked_map keeps ?_ ?_⟩
  · simp only [rangeUnlink, mates, listed, found, positive, Bool.false_eq_true, if_false, if_true, G]
  · by_cases named : other.rlId = node.rlId <;> simp [G, named]
  · intro other otherIn
    obtain ⟨otherLocks, -⟩ := (linked.mem_others_iff mem).1 otherIn
    rw [links, linked.inTree other otherLocks, linked.firstOfRange_iff_others mem]
    refine and_iff_left_of_imp fun first same => ?_
    -- the node came no later than `lock`, and no earlier than the first of the others
    exact UInt64.le_trans (first node nodeOthers (nodeSame.trans same))
      (linked.node_le nodeIn mem isNode nodeSame)
  · intro other otherIn isOther
    obtain ⟨otherLocks, -⟩ := (linked.mem_others_iff mem).1 otherIn
    rw [links] at isOther
    by_cases named : other.rlId = node.rlId
    · obtain rfl := linked.eq_of_rlId_eq otherLocks nodeIn named
      have dropped : (other.rlLockCount - 1).toNat = other.rlLockCount.toNat - 1 :=
        UInt32.toNat_sub_of_le _ _ positive
      simp only [G, if_true, dropped]
      omega
    · have otherRange : other.rlNode ≠ lock.rlNode := fun same =>
        named (congrArg RangeLock.rlId
          (linked.node_unique otherLocks nodeIn isOther isNode (same.trans nodeSame.symm)))
      have counted := linked.lockCount other otherLocks isOther
      rw [linked.classSize_eq_others mem, if_neg fun same => otherRange same.symm] at counted
      simpa [G, named] using counted

/-- The node of a range hands it on to the next lock of its list, which then
counts the rest of the list. -/
theorem Linked.unlinked_of_node {locks : List RangeLock} (linked : Linked locks)
    {lock : RangeLock} (mem : lock ∈ locks) (isNode : lock.inTree = true) {next : RangeLock}
    {ring : List RangeLock}
    (mates : (locks.filter (·.rlId ≠ lock.rlId)).filter (sameRange · lock) = next :: ring) :
    Unlinked locks lock ((locks.filter (·.rlId ≠ lock.rlId)).map fun other =>
      if other.rlId = next.rlId then { other with rlLockCount := lock.rlLockCount - 1, inTree := true }
      else other) := by
  have placed : Placed (locks.filter (·.rlId ≠ lock.rlId)) :=
    linked.sublist List.filter_sublist
  obtain ⟨nextOthers, nextSame, nextFirst⟩ := placed.firstOfRange_of_filter_eq_cons mates
  have counted := linked.lockCount lock mem isNode
  rw [linked.classSize_eq_others mem, if_pos rfl] at counted
  have sizeNext : classSize RangeLock.rlNode (locks.filter (·.rlId ≠ lock.rlId)) next =
      classSize RangeLock.rlNode (locks.filter (·.rlId ≠ lock.rlId)) lock := by
    simp only [classSize, nextSame]
  have present : 1 ≤ classSize RangeLock.rlNode (locks.filter (·.rlId ≠ lock.rlId)) next :=
    List.countP_pos_iff.2 ⟨next, nextOthers, by simp⟩
  have dropped : (lock.rlLockCount - 1).toNat = lock.rlLockCount.toNat - 1 :=
    UInt32.toNat_sub_of_le _ _ (UInt32.le_iff_toNat_le.2 (by rw [UInt32.toNat_one]; omega))
  let G := fun other : RangeLock =>
    if other.rlId = next.rlId then { other with rlLockCount := lock.rlLockCount - 1, inTree := true }
    else other
  have keeps : KeepsPlace G :=
    keepsPlace_update next.rlId _ ⟨fun _ => rfl, fun _ => rfl, fun _ => rfl⟩
  refine ⟨G, keeps, fun other => ?_, rfl, placed.linked_map keeps ?_ ?_⟩
  · by_cases named : other.rlId = next.rlId <;> simp [G, named]
  · intro other otherIn
    obtain ⟨otherLocks, -⟩ := (linked.mem_others_iff mem).1 otherIn
    by_cases named : other.rlId = next.rlId
    · obtain rfl := placed.eq_of_rlId_eq otherIn nextOthers named
      simp only [if_true]
      exact iff_of_true trivial nextFirst
    · simp only [named, if_false]
      rw [linked.inTree other otherLocks, linked.firstOfRange_iff_others mem]
      by_cases same : other.rlNode = lock.rlNode
      · -- a later lock of the range: the next one came before it
        have notFirst : ¬FirstOfRange (locks.filter (·.rlId ≠ lock.rlId)) other := fun first =>
          named (congrArg RangeLock.rlId (placed.eq_of_rlSequence_eq otherIn nextOthers
            (UInt64.le_antisymm (first next nextOthers (nextSame.trans same.symm))
              (nextFirst other otherIn (same.trans nextSame.symm)))))
        exact iff_of_false (fun both => notFirst both.1) notFirst
      · exact and_iff_left fun same' => absurd same'.symm same
  · intro other otherIn isOther
    obtain ⟨otherLocks, otherNe⟩ := (linked.mem_others_iff mem).1 otherIn
    by_cases named : other.rlId = next.rlId
    · obtain rfl := placed.eq_of_rlId_eq otherIn nextOthers named
      simp only [if_true, dropped]
      omega
    · simp only [named, if_false] at isOther ⊢
      have otherRange : other.rlNode ≠ lock.rlNode := fun same =>
        otherNe (linked.node_unique otherLocks mem isOther isNode same)
      have counted := linked.lockCount other otherLocks isOther
      rw [linked.classSize_eq_others mem, if_neg fun same => otherRange same.symm] at counted
      exact counted

/-- range_unlock's first half succeeds on a present lock and leaves the others
linked. -/
theorem Linked.unlink {locks : List RangeLock} (linked : Linked locks) {lock : RangeLock}
    (mem : lock ∈ locks) :
    ∃ result, rangeUnlink locks lock = some result ∧ Unlinked locks lock result := by
  cases isNode : lock.inTree with
  | false => exact linked.rangeUnlink_of_listed mem isNode
  | true =>
    cases mates : (locks.filter (·.rlId ≠ lock.rlId)).filter (sameRange · lock) with
    | nil =>
      refine ⟨_, by simp only [rangeUnlink, mates, isNode, if_true], linked.unlinked_of_alone mem ?_⟩
      intro other otherIn otherNe same
      have mate : other ∈ (locks.filter (·.rlId ≠ lock.rlId)).filter (sameRange · lock) :=
        List.mem_filter.2 ⟨(linked.mem_others_iff mem).2 ⟨otherIn, otherNe⟩, sameRange_eq_true.2 same⟩
      rw [mates] at mate
      cases mate
    | cons next ring =>
      exact ⟨_, by simp only [rangeUnlink, mates, isNode, if_true], linked.unlinked_of_node mem isNode mates⟩

/-- range_unlock_cb at every node that meets the range of `lock` leaves each
present lock as `unblocked` says: only the node of its range can change it,
and does when `lock` blocked it. -/
theorem Linked.foldlM_rangeUnlockCbIter {locks : List RangeLock} (linked : Linked locks)
    (lock : RangeLock) {other : RangeLock} (mem : other ∈ locks)
    (lassert : blocks lock other = true → other.inTree = false →
      2 ≤ other.rlBlockingRanges.toNat) :
    (locks.filter fun overlap => overlap.inTree && overlaps overlap lock).foldlM
      (fun other overlap => rangeUnlockCbIter lock overlap other) other =
        some (unblocked lock other) := by
  obtain ⟨node, nodeIn, isNode, nodeSame⟩ := linked.exists_node mem
  have nodup : (locks.filter fun overlap => overlap.inTree && overlaps overlap lock).Nodup :=
    (List.Nodup.of_map _ linked.ids).filter _
  -- the nodes of other ranges pass over `other`, before and after the change
  have apart : ∀ overlap ∈ locks.filter (fun overlap => overlap.inTree && overlaps overlap lock),
      overlap ≠ node → ∀ iter : RangeLock, iter.rlId = other.rlId → iter.rlNode = other.rlNode →
        rangeUnlockCbIter lock overlap iter = some iter := by
    intro overlap overlapIn notNode iter sameId sameNode
    obtain ⟨overlapLocks, both⟩ := List.mem_filter.1 overlapIn
    have otherRange : overlap.rlNode ≠ other.rlNode := fun same =>
      notNode (linked.node_unique overlapLocks nodeIn (Bool.and_eq_true_iff.1 both).1 isNode
        (same.trans nodeSame.symm))
    have otherId : other.rlId ≠ overlap.rlId := fun same =>
      otherRange (by rw [linked.eq_of_rlId_eq mem overlapLocks same])
    simp [rangeUnlockCbIter, sameId, sameNode, otherId, Ne.symm otherRange]
  have keeps := keepsPlace_unblocked lock
  cases blocked : blocks lock other with
  | false =>
    rw [unblocked, blocked]
    refine foldlM_eq_some_of_fixed fun overlap overlapIn => ?_
    by_cases atNode : overlap = node
    · subst atNode
      -- the node meets `lock`, so `lock` came no earlier than `other`
      have meets : overlaps other lock = true := by
        rw [← (Bool.and_eq_true_iff.1 (List.mem_filter.1 overlapIn).2).2]
        simp only [overlaps_eq, nodeSame]
      have notLater : ¬lock.rlSequence < other.rlSequence := by
        simpa [blocks_eq, overlaps_comm lock other, meets] using blocked
      have notNode : other.rlId = overlap.rlId → ¬lock.rlSequence < overlap.rlSequence := by
        intro same
        rw [← linked.eq_of_rlId_eq mem nodeIn same]
        exact notLater
      simp only [rangeUnlockCbIter, GT.gt, notLater, and_false, if_false, ite_eq_right_iff]
      exact fun both => absurd both.2 (notNode both.1)
    · exact apart overlap overlapIn atNode other rfl rfl
  | true =>
    have nodeMeets : node ∈ locks.filter (fun overlap => overlap.inTree && overlaps overlap lock) := by
      refine List.mem_filter.2 ⟨nodeIn, ?_⟩
      have meets : overlaps lock other = true := (Bool.and_eq_true_iff.1 blocked).1
      rw [isNode, Bool.true_and, overlaps_comm]
      simpa only [overlaps_eq, nodeSame] using meets
    have later : lock.rlSequence < other.rlSequence :=
      of_decide_eq_true (Bool.and_eq_true_iff.1 blocked).2
    have acts : rangeUnlockCbIter lock node other = some (unblocked lock other) := by
      rw [unblocked, blocked, if_pos rfl]
      by_cases atNode : other = node
      · subst atNode
        simp [rangeUnlockCbIter, later]
      · have otherId : other.rlId ≠ node.rlId := fun same =>
          atNode (linked.eq_of_rlId_eq mem nodeIn same)
        have listed : other.inTree = false := by
          cases inTree : other.inTree
          · rfl
          · exact absurd (linked.node_unique mem nodeIn inTree isNode nodeSame.symm) atNode
        -- the LASSERT: `other` is also blocked by its node
        have positive : 0 < other.rlBlockingRanges - 1 := by
          have blockedTwice := lassert blocked listed
          rw [UInt32.lt_iff_toNat_lt, UInt32.toNat_sub_of_le _ _
            (UInt32.le_iff_toNat_le.2 (by rw [UInt32.toNat_one]; omega))]
          simp only [UInt32.toNat_zero, UInt32.toNat_one]
          omega
        simp [rangeUnlockCbIter, otherId, nodeSame, later, positive]
    refine foldlM_eq_some_of_one_acts acts nodup nodeMeets
      (fun overlap overlapIn notNode => apart overlap overlapIn notNode other rfl rfl)
      (fun overlap overlapIn notNode => apart overlap overlapIn notNode _ (keeps.rlId other)
        (keeps.rlNode other))

/-- range_unlock_cb at every node that meets the range of `lock`: each lock
that `lock` blocked loses one blocking range. -/
theorem Linked.foldlM_rangeUnlockCb {locks : List RangeLock} (linked : Linked locks)
    (lock : RangeLock) (lassert : ∀ other ∈ locks, blocks lock other = true →
      other.inTree = false → 2 ≤ other.rlBlockingRanges.toNat) :
    (locks.filter fun overlap => overlap.inTree && overlaps overlap lock).foldlM
      (fun locks overlap => rangeUnlockCb lock overlap locks) locks =
        some (locks.map (unblocked lock)) :=
  (foldlM_mapM (f := rangeUnlockCbIter lock) _ locks).trans
    (mapM_eq_some_map fun other mem => linked.foldlM_rangeUnlockCbIter lock mem (lassert other mem))

/-- range_unlock of a present lock succeeds and keeps the invariant. -/
theorem Sound.unlock {tree : RangeLockTree} (sound : Sound tree) {lock : RangeLock}
    (mem : lock ∈ tree.locks) : ∃ tree', rangeUnlock tree lock = some tree' ∧ Sound tree' := by
  obtain ⟨_, unlinked, G, keeps, fields, rfl, linked⟩ := sound.unlink mem
  have unblocks := keepsPlace_unblocked lock
  -- each other lock counts `lock` among its blockers exactly when `lock` blocked it
  have counted : ∀ other ∈ tree.locks.filter (·.rlId ≠ lock.rlId),
      other.rlBlockingRanges.toNat = (tree.locks.filter (·.rlId ≠ lock.rlId)).countP (blocks · other) +
        if blocks lock other then 1 else 0 := by
    intro other otherIn
    rw [sound.blocking other (List.mem_of_mem_filter otherIn), sound.countP_eq_others mem]
  have lassert : ∀ other ∈ (tree.locks.filter (·.rlId ≠ lock.rlId)).map G,
      blocks lock other = true → other.inTree = false → 2 ≤ other.rlBlockingRanges.toNat := by
    intro other otherIn blocked listed
    obtain ⟨node, nodeIn, isNode, nodeSame⟩ := linked.exists_node otherIn
    obtain ⟨first, firstIn, rfl⟩ := List.mem_map.1 nodeIn
    obtain ⟨later, laterIn, rfl⟩ := List.mem_map.1 otherIn
    have distinct : G first ≠ G later := by
      rintro same
      rw [same, listed] at isNode
      cases isNode
    -- the node of its range came before it, over the same range
    have earlier := linked.lt_of_le_of_ne nodeIn otherIn
      (linked.node_le nodeIn otherIn isNode nodeSame) distinct
    have firstBlocks : blocks first later = true := by
      rw [← keeps.blocks_left, ← keeps.blocks_right, blocks_eq,
        overlaps_of_rlNode_eq nodeSame (linked.ranges _ otherIn)]
      simpa using earlier
    have atLeastOne : 0 < (tree.locks.filter (·.rlId ≠ lock.rlId)).countP (blocks · later) :=
      List.countP_pos_iff.2 ⟨first, firstIn, firstBlocks⟩
    rw [keeps.blocks_right] at blocked
    rw [(fields later).1, counted later laterIn, if_pos blocked]
    omega
  refine ⟨⟨((tree.locks.filter (·.rlId ≠ lock.rlId)).map G).map (unblocked lock), tree.rltSequence⟩,
    ?_, ?_⟩
  · simp only [rangeUnlock, unlinked, Option.bind_some, linked.foldlM_rangeUnlockCb lock lassert,
      Option.map_some]
  · refine ⟨linked.map unblocks (unblocked_links lock), ?_, ?_, ?_⟩
    · simp only [List.mem_map, forall_exists_index, and_imp, forall_apply_eq_imp_iff₂,
        unblocks.rlSequence, keeps.rlSequence]
      exact fun other otherIn => sound.issued other (List.mem_of_mem_filter otherIn)
    · simp only [List.mem_map, forall_exists_index, and_imp, forall_apply_eq_imp_iff₂,
        unblocks.countP_blocks, keeps.countP_blocks]
      intro other otherIn
      have count := counted other otherIn
      rw [unblocked, keeps.blocks_right]
      cases blocked : blocks lock other with
      | false =>
        simp only [blocked, Bool.false_eq_true, if_false, Nat.add_zero, (fields other).1] at count ⊢
        exact count
      | true =>
        simp only [blocked, if_true, (fields other).1] at count ⊢
        rw [UInt32.toNat_sub_of_le _ _ (UInt32.le_iff_toNat_le.2 (by rw [UInt32.toNat_one]; omega)),
          UInt32.toNat_one]
        omega
    · simp only [List.mem_map, forall_exists_index, and_imp, forall_apply_eq_imp_iff₂]
      intro other otherIn isGranted
      have grantKept : (unblocked lock (G other)).granted = other.granted := by
        rw [← (fields other).2]
        unfold unblocked
        split <;> rfl
      rw [grantKept] at isGranted
      have unblockedBefore := sound.granted other (List.mem_of_mem_filter otherIn) isGranted
      have count := counted other otherIn
      rw [unblockedBefore, UInt32.toNat_zero] at count
      -- nothing blocked it, `lock` included
      have notBlocked : blocks lock (G other) = false := by
        rw [keeps.blocks_right]
        cases blocked : blocks lock other
        · rfl
        · simp [blocked] at count
      rw [unblocked, notBlocked, if_neg Bool.false_ne_true, (fields other).1]
      exact unblockedBefore

/-! ## Runs -/

/-- A waiting lock that wakes takes the range when nothing blocks it. -/
theorem Sound.recheck {tree : RangeLockTree} (sound : Sound tree) (id : Nat) :
    Sound (tree.recheck id) := by
  let F := fun lock : RangeLock =>
    if lock.rlId = id ∧ lock.rlBlockingRanges = 0 then { lock with granted := true } else lock
  have keeps : KeepsPlace F := by
    constructor <;> intro lock <;> simp only [F] <;> split <;> rfl
  have fields : ∀ lock, (F lock).inTree = lock.inTree ∧ (F lock).rlLockCount = lock.rlLockCount ∧
      (F lock).rlBlockingRanges = lock.rlBlockingRanges := by
    intro lock
    simp only [F]
    split <;> exact ⟨rfl, rfl, rfl⟩
  rw [RangeLockTree.recheck_eq]
  show Sound ⟨tree.locks.map F, tree.rltSequence⟩
  refine ⟨sound.map keeps fun lock => ⟨(fields lock).1, (fields lock).2.1⟩, ?_, ?_, ?_⟩
  · simp only [List.mem_map, forall_exists_index, and_imp, forall_apply_eq_imp_iff₂, keeps.rlSequence]
    exact sound.issued
  · simp only [List.mem_map, forall_exists_index, and_imp, forall_apply_eq_imp_iff₂,
      keeps.countP_blocks, (fields _).2.2]
    exact sound.blocking
  · simp only [List.mem_map, forall_exists_index, and_imp, forall_apply_eq_imp_iff₂]
    intro lock mem isGranted
    rw [(fields lock).2.2]
    by_cases woken : lock.rlId = id ∧ lock.rlBlockingRanges = 0
    · exact woken.2
    · simp only [F, woken, if_false] at isGranted
      exact sound.granted lock mem isGranted

/-- Every event the callers may offer, while the sequence has room and fewer
than `2^32 - 1` locks are present, succeeds and keeps the invariant. -/
theorem Sound.step {tree : RangeLockTree} (sound : Sound tree) {event : RangeLockEvent}
    (bounded : RangeLockBounded (some tree) event) :
    ∃ tree', rangeLockStep (some tree) event = some tree' ∧ Sound tree' := by
  obtain ⟨allowed, room⟩ := bounded
  cases event with
  | lock id start stop =>
    obtain ⟨fresh, valid⟩ := allowed
    obtain ⟨lock, init⟩ := Option.isSome_iff_exists.1 valid
    obtain ⟨named, range, unlinked⟩ := rangeLockInit_eq_some init
    obtain ⟨sequenceRoom, fewer⟩ := room tree rfl id start stop rfl
    refine ⟨_, by simp only [rangeLockStep, init, Option.map_some], sound.enter ?_ range unlinked
      sequenceRoom fewer⟩
    intro other mem
    rw [named]
    exact fresh other mem
  | recheck id => exact ⟨_, rfl, sound.recheck id⟩
  | interrupt id =>
    obtain ⟨waiting, mem, named, -⟩ := allowed
    obtain ⟨lock, found, present⟩ := RangeLockTree.find_eq_some ⟨waiting, mem, named⟩
    obtain ⟨tree', unlocked, kept⟩ := sound.unlock present
    exact ⟨tree', by simp only [rangeLockStep, found, Option.bind_some, unlocked], kept⟩
  | unlock id =>
    obtain ⟨held, mem, named, -⟩ := allowed
    obtain ⟨lock, found, present⟩ := RangeLockTree.find_eq_some ⟨held, mem, named⟩
    obtain ⟨tree', unlocked, kept⟩ := sound.unlock present
    exact ⟨tree', by simp only [rangeLockStep, found, Option.bind_some, unlocked], kept⟩

theorem sound_rangeLockTreeInit : Sound rangeLockTreeInit where
  ids := List.nodup_nil
  ordered := List.Pairwise.nil
  ranges := by simp [rangeLockTreeInit]
  inTree := by simp [rangeLockTreeInit]
  lockCount := by simp [rangeLockTreeInit]
  issued := by simp [rangeLockTreeInit]
  blocking := by simp [rangeLockTreeInit]
  granted := by simp [rangeLockTreeInit]

/-- Two locks that range_lock returned do not overlap. -/
theorem Sound.granted_disjoint {tree : RangeLockTree} (sound : Sound tree) {a b : RangeLock}
    (aIn : a ∈ tree.locks) (bIn : b ∈ tree.locks) (aGranted : a.granted = true)
    (bGranted : b.granted = true) (distinct : a.rlId ≠ b.rlId) : overlaps a b = false := by
  -- a lock range_lock returned is blocked by no present lock
  have unblocked : ∀ {x y : RangeLock}, x ∈ tree.locks → y ∈ tree.locks → y.granted = true →
      blocks x y = false := by
    intro x y xIn yIn yGranted
    have none := sound.blocking y yIn
    rw [sound.granted y yIn yGranted, UInt32.toNat_zero] at none
    simpa using List.countP_eq_zero.1 none.symm x xIn
  have apart : a.rlSequence ≠ b.rlSequence := fun same =>
    distinct (congrArg RangeLock.rlId (sound.eq_of_rlSequence_eq aIn bIn same))
  rcases UInt64.lt_or_lt_of_ne apart with earlier | earlier
  · simpa [blocks_eq, earlier] using unblocked aIn bIn bGranted
  · simpa [blocks_eq, earlier, overlaps_comm] using unblocked bIn aIn aGranted

/-- Every range of a present lock has exactly one node in the tree. -/
theorem Linked.existsUnique_node {locks : List RangeLock} (linked : Linked locks)
    {lock : RangeLock} (mem : lock ∈ locks) :
    ∃! node, node ∈ locks ∧ node.inTree = true ∧ sameRange node lock = true := by
  obtain ⟨node, nodeIn, isNode, nodeSame⟩ := linked.exists_node mem
  refine ⟨node, ⟨nodeIn, isNode, sameRange_eq_true.2 nodeSame⟩, ?_⟩
  rintro other ⟨otherIn, isOther, otherSame⟩
  exact linked.node_unique otherIn nodeIn isOther isNode
    ((sameRange_eq_true.1 otherSame).trans nodeSame.symm)

/-- While the sequence has room and fewer than `2^32 - 1` locks are present,
every state range lock events reach is a tree in which each lock counts the
earlier locks over its range as blocking it, each range has exactly one node,
which counts the other locks of its range, and no two locks that range_lock
returned overlap. -/
theorem rangeLock_sound_of_run {state : Option RangeLockTree}
    (reachable : Machine.Reachable rangeLockStep RangeLockBounded (some rangeLockTreeInit) state) :
    ∃ tree, state = some tree ∧ Sound tree ∧
      (∀ lock ∈ tree.locks,
        ∃! node, node ∈ tree.locks ∧ node.inTree = true ∧ sameRange node lock = true) ∧
      ∀ a ∈ tree.locks, ∀ b ∈ tree.locks, a.granted = true → b.granted = true →
        a.rlId ≠ b.rlId → overlaps a b = false := by
  obtain ⟨tree, rfl, sound⟩ := reachable.invariant (fun state => ∃ tree, state = some tree ∧ Sound tree)
    ⟨_, rfl, sound_rangeLockTreeInit⟩ (by
      rintro _ event ⟨tree, rfl, sound⟩ bounded
      exact sound.step bounded)
  exact ⟨tree, rfl, sound, fun lock mem => sound.existsUnique_node mem,
    fun a aIn b bIn aGranted bGranted distinct =>
      sound.granted_disjoint aIn bIn aGranted bGranted distinct⟩

theorem rangeLock_sound_after_two_writers :
    ∃ tree, Machine.run rangeLockStep (some rangeLockTreeInit)
        [.lock 1 0 8191, .lock 2 4096 12287] = some tree ∧ Sound tree ∧
      (∀ lock ∈ tree.locks,
        ∃! node, node ∈ tree.locks ∧ node.inTree = true ∧ sameRange node lock = true) ∧
      ∀ a ∈ tree.locks, ∀ b ∈ tree.locks, a.granted = true → b.granted = true →
        a.rlId ≠ b.rlId → overlaps a b = false :=
  rangeLock_sound_of_run
    ((Machine.Reachable.start.step (RangeLockEvent.lock 1 0 8191)
      ⟨by decide, by rintro tree ⟨⟩ id start stop ⟨⟩; decide⟩).step (RangeLockEvent.lock 2 4096 12287)
      ⟨by decide, by rintro tree ⟨⟩ id start stop ⟨⟩; decide⟩)

/-! ## The wrap of the sequence -/

/-- Taking and releasing a one-page lock on an empty tree moves the sequence on. -/
theorem reachable_empty_succ {sequence : UInt64}
    (reachable : Machine.Reachable rangeLockStep RangeLockAllowed (some rangeLockTreeInit)
      (some ⟨[], sequence⟩)) :
    Machine.Reachable rangeLockStep RangeLockAllowed (some rangeLockTreeInit)
      (some ⟨[], sequence + 1⟩) :=
  (reachable.step (RangeLockEvent.lock 0 0 0) ⟨by simp, rfl⟩).step (RangeLockEvent.unlock 0)
    ⟨_, List.mem_singleton_self _, rfl, rfl⟩

theorem reachable_empty : ∀ cycles : Nat,
    Machine.Reachable rangeLockStep RangeLockAllowed (some rangeLockTreeInit)
      (some ⟨[], UInt64.ofNat cycles⟩)
  | 0 => .start
  | cycles + 1 => by
    rw [UInt64.ofNat_add, UInt64.ofNat_one]
    exact reachable_empty_succ (reachable_empty cycles)

/-- After `2^64 - 3` locks taken and released, the sequence wraps: a lock
interrupted while waiting lowers the count of a granted lock below zero and
wakes a lock over a range still held. -/
theorem rangeLock_wrapped_sequence_overlaps :
    ∃ tree, Machine.Reachable rangeLockStep RangeLockAllowed (some rangeLockTreeInit) (some tree) ∧
      ∃ a ∈ tree.locks, ∃ b ∈ tree.locks, a.granted = true ∧ b.granted = true ∧
        a.rlId ≠ b.rlId ∧ overlaps a b = true := by
  -- pages [0, 10] and [5, 15] are taken with the last two sequence numbers, and
  -- pages [0, 20] with the wrapped sequence number 0
  have ran := (((((reachable_empty (2 ^ 64 - 3)).step (RangeLockEvent.lock 1 0 40960) (by decide)).step
    (RangeLockEvent.lock 2 20480 61440) (by decide)).step (RangeLockEvent.lock 3 0 81920)
    (by decide)).step (RangeLockEvent.interrupt 3) (by decide)).step (RangeLockEvent.recheck 2)
    (by decide)
  exact ⟨_, ran, by decide⟩

end Lustre.Llite
