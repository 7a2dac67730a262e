import Lustre.Library.IntervalTree
import Lustre.Library.Run
import Lustre.Ptlrpc.NodemapIdmap
import Mathlib.Data.Prod.Lex
import Mathlib.Data.List.Pairwise

/-!
# NID ranges of nodemaps (ptlrpc/nodemap_range.c, nodemap_handler.c)

A nodemap config keeps the NID ranges of all nodemaps in one interval tree,
ordered by `(start, end)` as `node_compare` orders extents.
`nodemap_add_range_helper` makes a range with `range_create`, which refuses a
range across two LNet networks or with its start address above its end address,
and puts it in with `range_insert`, which refuses a range that meets one already
in the tree.  `nodemap_del_range` finds a range by its exact extent and takes it
out; `nodemap_del` and the config cleanup take out the ranges of a nodemap with
`range_delete`.  `nodemap_classify_nid` gives the nodemap of the first range the
interval search reports for a NID, and the default nodemap when there is none.

A nodemap is named by its `nm_id`, which is what its pointer stands for here.
The tree is the in-order list of its ranges (`Library.SearchTree`); the search is
`Tree.intervalSearch`, with each subtree's `in_max_high` taken exact.

`ValidRanges` is what every run keeps: the tree is ordered, each range lies in
one network with its start address at most its end address, and no two ranges
meet.  From it, `nodemapClassifyNid` gives the nodemap of the one range that
holds a NID, or the default nodemap when none does.
-/

namespace Lustre.Ptlrpc

open SearchTree SearchTree.Tree

/-! ## NIDs -/

/-- lnet_nid_t: the network number in the high 32 bits, the address in the low ones. -/
abbrev LnetNid := UInt64

/-- LNET_NIDADDR -/
def lnetNidaddr (nid : LnetNid) : UInt32 := (nid &&& 0xffffffff).toUInt32

/-- LNET_NIDNET -/
def lnetNidnet (nid : LnetNid) : UInt32 := ((nid >>> 32) &&& 0xffffffff).toUInt32

theorem toNat_lnetNidaddr (nid : LnetNid) : (lnetNidaddr nid).toNat = nid.toNat % 2 ^ 32 := by
  simp only [lnetNidaddr, UInt64.toNat_toUInt32, UInt64.toNat_and]
  rw [show (0xffffffff : UInt64).toNat = 2 ^ 32 - 1 from rfl, Nat.and_two_pow_sub_one_eq_mod,
    Nat.mod_mod]

theorem toNat_lnetNidnet (nid : LnetNid) : (lnetNidnet nid).toNat = nid.toNat / 2 ^ 32 := by
  have below : nid.toNat < 2 ^ 64 := nid.toNat_lt
  simp only [lnetNidnet, UInt64.toNat_toUInt32, UInt64.toNat_and, UInt64.toNat_shiftRight]
  rw [show (0xffffffff : UInt64).toNat = 2 ^ 32 - 1 from rfl, Nat.and_two_pow_sub_one_eq_mod,
    Nat.mod_mod, show (32 : UInt64).toNat % 64 = 32 from rfl, Nat.shiftRight_eq_div_pow]
  omega

/-- Two NIDs of one network are ordered as their addresses are. -/
theorem le_of_lnetNidnet_eq {a b : LnetNid} (sameNet : lnetNidnet a = lnetNidnet b)
    (addrLe : lnetNidaddr a ≤ lnetNidaddr b) : a ≤ b := by
  have nets := congrArg UInt32.toNat sameNet
  rw [UInt32.le_iff_toNat_le] at addrLe
  rw [toNat_lnetNidnet, toNat_lnetNidnet] at nets
  rw [toNat_lnetNidaddr, toNat_lnetNidaddr] at addrLe
  rw [UInt64.le_iff_toNat_le]
  omega

/-! ## Ranges and the config -/

/-- struct lu_nid_range: its id, the nodemap it belongs to, and the extent
`rn_node.in_extent` from `start` to `stop` (the extent's `end`). -/
structure LuNidRange where
  rnId : UInt32
  rnNodemap : Nat
  start : LnetNid
  stop : LnetNid
  deriving DecidableEq, Repr

namespace LuNidRange

/-- interval_low -/
def intervalLow (range : LuNidRange) : Nat := range.start.toNat

/-- interval_high -/
def intervalHigh (range : LuNidRange) : Nat := range.stop.toNat

/-- The order of the tree: extent_compare, on `(start, end)`. -/
def key (range : LuNidRange) : Lex (Nat × Nat) := toLex (range.start.toNat, range.stop.toNat)

/-- extent_overlapped, of the extents of two ranges. -/
def Overlaps (a b : LuNidRange) : Prop := a.start ≤ b.stop ∧ b.start ≤ a.stop

/-- Two ranges that do not meet. -/
def Apart (a b : LuNidRange) : Prop := ¬ a.Overlaps b

/-- The range holds the NID: its extent meets `[nid, nid]`. -/
def Contains (range : LuNidRange) (nid : LnetNid) : Prop := range.start ≤ nid ∧ nid ≤ range.stop

instance : Std.Symm Apart := ⟨fun _ _ apart overlaps => apart ⟨overlaps.2, overlaps.1⟩⟩

theorem intervalLow_le_of_key_lt {a b : LuNidRange} (less : a.key < b.key) :
    a.intervalLow ≤ b.intervalLow := by
  rcases Prod.Lex.toLex_lt_toLex.mp less with lower | ⟨same, _⟩
  · exact Nat.le_of_lt lower
  · exact Nat.le_of_eq same

theorem overlaps_of_contains {a b : LuNidRange} {nid : LnetNid} (inA : a.Contains nid)
    (inB : b.Contains nid) : a.Overlaps b :=
  ⟨UInt64.le_trans inA.1 inB.2, UInt64.le_trans inB.1 inA.2⟩

end LuNidRange

/-- struct nodemap_range_tree -/
structure NodemapRangeTree where
  nmrtRangeIntervalRoot : SearchTree.Tree LuNidRange
  nmrtRangeHighestId : UInt32

/-- The range part of struct nodemap_config, with the default nodemap's `nm_id`. -/
structure NodemapConfig where
  nmcDefaultNodemap : Nat
  nmcRangeTree : NodemapRangeTree

def enomem : Int := 12

def eexist : Int := 17

open LuNidRange

/-! ## The model -/

/-- range_create: `none` for a range across two networks or with its start
address above its end address; otherwise the range, with the on-disk id when
loading from save and the next id otherwise. -/
def rangeCreate (tree : NodemapRangeTree) (startNid endNid : LnetNid) (nodemap : Nat)
    (rangeId : UInt32) : Option (LuNidRange × NodemapRangeTree) :=
  if lnetNidnet startNid ≠ lnetNidnet endNid ∨ lnetNidaddr startNid > lnetNidaddr endNid then none
  else if rangeId ≠ 0 then
    let highest := if tree.nmrtRangeHighestId < rangeId then rangeId else tree.nmrtRangeHighestId
    some (⟨rangeId, nodemap, startNid, endNid⟩, { tree with nmrtRangeHighestId := highest })
  else
    let highest := tree.nmrtRangeHighestId + 1
    some (⟨highest, nodemap, startNid, endNid⟩, { tree with nmrtRangeHighestId := highest })

/-- range_find: interval_find of the exact extent. -/
def rangeFind (tree : NodemapRangeTree) (startNid endNid : LnetNid) : Option LuNidRange :=
  tree.nmrtRangeIntervalRoot.search key (toLex (startNid.toNat, endNid.toNat))

/-- interval_is_overlapped: whether the search for the extent reports anything. -/
def intervalIsOverlapped (root : SearchTree.Tree LuNidRange) (startNid endNid : LnetNid) : Bool :=
  !(root.intervalSearch intervalLow intervalHigh startNid.toNat endNid.toNat).isEmpty

/-- interval_insert: a node of an equal extent is returned and nothing is linked. -/
def intervalInsert (range : LuNidRange) (root : SearchTree.Tree LuNidRange) :
    Option LuNidRange × SearchTree.Tree LuNidRange :=
  match root.search key range.key with
  | some existing => (some existing, root)
  | none => (none, root.link key range)

/-- range_insert -/
def rangeInsert (tree : NodemapRangeTree) (range : LuNidRange) : Int × NodemapRangeTree :=
  if intervalIsOverlapped tree.nmrtRangeIntervalRoot range.start range.stop then (-eexist, tree)
  else (0, { tree with nmrtRangeIntervalRoot := (intervalInsert range tree.nmrtRangeIntervalRoot).2 })

/-- range_delete: the node of the range is erased; a range not in the tree is
left alone.  Ranges of the tree have distinct extents, so the range's value
names its node. -/
def rangeDelete (tree : NodemapRangeTree) (range : LuNidRange) : NodemapRangeTree :=
  { tree with nmrtRangeIntervalRoot := tree.nmrtRangeIntervalRoot.erase (· == range) }

/-- range_search: the first range the search reports, where range_cb stops it. -/
def rangeSearch (tree : NodemapRangeTree) (nid : LnetNid) : Option LuNidRange :=
  (tree.nmrtRangeIntervalRoot.intervalSearch intervalLow intervalHigh nid.toNat nid.toNat).head?

/-- nodemap_classify_nid -/
def nodemapClassifyNid (config : NodemapConfig) (nid : LnetNid) : Nat :=
  match rangeSearch config.nmcRangeTree nid with
  | some range => range.rnNodemap
  | none => config.nmcDefaultNodemap

/-- nodemap_add_range_helper.  `idxRangeAdd` is what the index write
nodemap_idx_range_add returns; it is only made for a new range (`range_id` 0). -/
def nodemapAddRangeHelper (config : NodemapConfig) (nodemap : LuNodemap) (nid : LnetNid × LnetNid)
    (rangeId : UInt32) (idxRangeAdd : Int) : Int × NodemapConfig :=
  match rangeCreate config.nmcRangeTree nid.1 nid.2 nodemap.nmId rangeId with
  | none => (-enomem, config)
  | some (range, tree) =>
    -- the id taken by range_create stays taken when the insertion fails
    if (rangeInsert tree range).1 ≠ 0 then (-enomem, { config with nmcRangeTree := (rangeInsert tree range).2 })
    else (if rangeId = 0 then idxRangeAdd else 0, { config with nmcRangeTree := (rangeInsert tree range).2 })

/-- nodemap_del_range.  `idxRangeDel` is what the index write
nodemap_idx_range_del returns.  The range found is not checked to belong to
`nodemap`. -/
def nodemapDelRange (config : NodemapConfig) (nodemap : LuNodemap) (nid : LnetNid × LnetNid)
    (idxRangeDel : Int) : Int × NodemapConfig :=
  if isDefaultNodemap nodemap then (-einval, config)
  else match rangeFind config.nmcRangeTree nid.1 nid.2 with
    | none => (-einval, config)
    | some range =>
      (idxRangeDel, { config with nmcRangeTree := rangeDelete config.nmcRangeTree range })

/-- The requests that change the range tree. -/
inductive RangeEvent
  /-- nodemap_add_range_helper, from nodemap_add_range or a load from save -/
  | add (nodemap : LuNodemap) (nid : LnetNid × LnetNid) (rangeId : UInt32) (idxRangeAdd : Int)
  /-- nodemap_del_range -/
  | del (nodemap : LuNodemap) (nid : LnetNid × LnetNid) (idxRangeDel : Int)
  /-- range_delete, from nodemap_del and nodemap_config_cleanup -/
  | delete (range : LuNidRange)

def NodemapConfig.step (config : NodemapConfig) : RangeEvent → NodemapConfig
  | .add nodemap nid rangeId idxRangeAdd => (nodemapAddRangeHelper config nodemap nid rangeId idxRangeAdd).2
  | .del nodemap nid idxRangeDel => (nodemapDelRange config nodemap nid idxRangeDel).2
  | .delete range => { config with nmcRangeTree := rangeDelete config.nmcRangeTree range }

/-! ## Spec lemmas -/

theorem nodemapAddRangeHelper_nmcDefaultNodemap (config : NodemapConfig) (nodemap : LuNodemap)
    (nid : LnetNid × LnetNid) (rangeId : UInt32) (idxRangeAdd : Int) :
    (nodemapAddRangeHelper config nodemap nid rangeId idxRangeAdd).2.nmcDefaultNodemap =
      config.nmcDefaultNodemap := by
  unfold nodemapAddRangeHelper
  split
  · rfl
  · split <;> rfl

theorem nodemapDelRange_nmcDefaultNodemap (config : NodemapConfig) (nodemap : LuNodemap)
    (nid : LnetNid × LnetNid) (idxRangeDel : Int) :
    (nodemapDelRange config nodemap nid idxRangeDel).2.nmcDefaultNodemap = config.nmcDefaultNodemap := by
  unfold nodemapDelRange
  split
  · rfl
  · split <;> rfl

/-- No request changes the default nodemap. -/
theorem NodemapConfig.step_nmcDefaultNodemap (config : NodemapConfig) :
    ∀ event, (config.step event).nmcDefaultNodemap = config.nmcDefaultNodemap
  | .add nodemap nid rangeId idxRangeAdd =>
    nodemapAddRangeHelper_nmcDefaultNodemap config nodemap nid rangeId idxRangeAdd
  | .del nodemap nid idxRangeDel => nodemapDelRange_nmcDefaultNodemap config nodemap nid idxRangeDel
  | .delete _ => rfl

theorem nmcDefaultNodemap_run (config : NodemapConfig) (events : List RangeEvent) :
    (Machine.run NodemapConfig.step config events).nmcDefaultNodemap = config.nmcDefaultNodemap := by
  induction events generalizing config with
  | nil => rfl
  | cons event events ih => rw [Machine.run_cons, ih, NodemapConfig.step_nmcDefaultNodemap]

theorem rangeCreate_spec {tree tree' : NodemapRangeTree} {startNid endNid : LnetNid} {nodemap : Nat}
    {rangeId : UInt32} {range : LuNidRange}
    (created : rangeCreate tree startNid endNid nodemap rangeId = some (range, tree')) :
    range.start = startNid ∧ range.stop = endNid ∧ range.rnNodemap = nodemap ∧
      lnetNidnet startNid = lnetNidnet endNid ∧ lnetNidaddr startNid ≤ lnetNidaddr endNid ∧
      tree'.nmrtRangeIntervalRoot = tree.nmrtRangeIntervalRoot := by
  unfold rangeCreate at created
  split at created
  · cases created
  · next accepted =>
    have checks := not_or.mp accepted
    split at created <;>
    · cases created
      exact ⟨rfl, rfl, rfl, not_not.mp checks.1, UInt32.not_lt.mp checks.2, rfl⟩

theorem rangeInsert_root_of_ne_zero {tree : NodemapRangeTree} {range : LuNidRange}
    (failed : (rangeInsert tree range).1 ≠ 0) :
    (rangeInsert tree range).2.nmrtRangeIntervalRoot = tree.nmrtRangeIntervalRoot := by
  unfold rangeInsert at failed ⊢
  split
  · rfl
  · next free => simp [free] at failed

/-- A failed insertion leaves the tree as it was: `range_create` only takes an id. -/
theorem nodemapAddRangeHelper_root_of_failed {config : NodemapConfig} {nodemap : LuNodemap}
    {nid : LnetNid × LnetNid} {rangeId : UInt32} (idxRangeAdd : Int)
    (failed : ∀ created, rangeCreate config.nmcRangeTree nid.1 nid.2 nodemap.nmId rangeId = some created →
      (rangeInsert created.2 created.1).1 ≠ 0) :
    (nodemapAddRangeHelper config nodemap nid rangeId idxRangeAdd).2.nmcRangeTree.nmrtRangeIntervalRoot =
      config.nmcRangeTree.nmrtRangeIntervalRoot := by
  unfold nodemapAddRangeHelper
  split
  · rfl
  · next range tree created =>
    have insertFailed := failed _ created
    simp only [insertFailed, ne_eq, not_false_eq_true, if_true]
    rw [rangeInsert_root_of_ne_zero insertFailed]
    exact (rangeCreate_spec created).2.2.2.2.2

/-! ## The invariant -/

/-- What the range tree of every config keeps. -/
structure ValidRanges (root : SearchTree.Tree LuNidRange) : Prop where
  ordered : Ordered key root
  oneNet : ∀ range ∈ root.toList,
    lnetNidnet range.start = lnetNidnet range.stop ∧ lnetNidaddr range.start ≤ lnetNidaddr range.stop
  disjoint : root.toList.Pairwise Apart

theorem validRanges_leaf : ValidRanges .leaf :=
  ⟨List.Pairwise.nil, fun _ absent => absurd absent List.not_mem_nil, List.Pairwise.nil⟩

namespace ValidRanges

variable {root : SearchTree.Tree LuNidRange}

theorem lowsSorted (valid : ValidRanges root) : LowsSorted intervalLow root :=
  valid.ordered.imp intervalLow_le_of_key_lt

/-- The search reports the ranges of the tree that meet the extent. -/
theorem mem_intervalSearch (valid : ValidRanges root) {startNid endNid : LnetNid} {range : LuNidRange} :
    range ∈ root.intervalSearch intervalLow intervalHigh startNid.toNat endNid.toNat ↔
      range ∈ root.toList ∧ startNid ≤ range.stop ∧ range.start ≤ endNid := by
  rw [Tree.mem_intervalSearch valid.lowsSorted, UInt64.le_iff_toNat_le, UInt64.le_iff_toNat_le]
  rfl

theorem intervalIsOverlapped_eq_false (valid : ValidRanges root) {range : LuNidRange}
    (free : intervalIsOverlapped root range.start range.stop = false) :
    ∀ other ∈ root.toList, Apart range other := by
  intro other mem overlaps
  have reported := valid.mem_intervalSearch.mpr ⟨mem, overlaps.1, overlaps.2⟩
  simp only [intervalIsOverlapped, Bool.not_eq_false', List.isEmpty_iff] at free
  rw [free] at reported
  exact List.not_mem_nil reported

/-- Inserting a range of one network that meets no range keeps the tree valid. -/
theorem rangeInsert (valid : ValidRanges root) {highest : UInt32} {range : LuNidRange}
    (oneNet : lnetNidnet range.start = lnetNidnet range.stop ∧ lnetNidaddr range.start ≤ lnetNidaddr range.stop) :
    ValidRanges (rangeInsert ⟨root, highest⟩ range).2.nmrtRangeIntervalRoot := by
  unfold Lustre.Ptlrpc.rangeInsert
  split
  · exact valid
  · next overlapped =>
    have apart := valid.intervalIsOverlapped_eq_false (Bool.not_eq_true _ ▸ overlapped)
    simp only [intervalInsert]
    split
    · exact valid
    · next missing =>
      -- the range is new: no range of its key, so `link` keeps the order
      have fresh : ∀ other ∈ root.toList, key other ≠ key range := by
        intro other mem same
        rw [← same, valid.ordered.search_of_mem mem] at missing
        cases missing
      have linked : (root.link key range).toList.Perm (range :: root.toList) := toList_link_perm range root
      refine ⟨valid.ordered.link fresh, ?_, ?_⟩
      · intro other mem
        rcases mem_link.mp mem with rfl | old
        · exact oneNet
        · exact valid.oneNet other old
      · rw [linked.pairwise_iff (fun apart => Std.Symm.symm _ _ apart), List.pairwise_cons]
        exact ⟨apart, valid.disjoint⟩

/-- Erasing ranges keeps the tree valid. -/
theorem erase (valid : ValidRanges root) (p : LuNidRange → Bool) : ValidRanges (root.erase p) := by
  have kept : (root.erase p).toList.Sublist root.toList := by
    rw [toList_erase]
    exact List.filter_sublist
  exact ⟨valid.ordered.erase p, fun range mem => valid.oneNet range (kept.subset mem),
    valid.disjoint.sublist kept⟩

theorem nodemapAddRangeHelper {config : NodemapConfig}
    (valid : ValidRanges config.nmcRangeTree.nmrtRangeIntervalRoot) (nodemap : LuNodemap)
    (nid : LnetNid × LnetNid) (rangeId : UInt32) (idxRangeAdd : Int) :
    ValidRanges (nodemapAddRangeHelper config nodemap nid rangeId idxRangeAdd).2.nmcRangeTree.nmrtRangeIntervalRoot := by
  unfold Lustre.Ptlrpc.nodemapAddRangeHelper
  split
  · exact valid
  · next range tree created =>
    obtain ⟨isStart, isStop, -, sameNet, addrLe, sameRoot⟩ := rangeCreate_spec created
    have inserted : ValidRanges (Lustre.Ptlrpc.rangeInsert ⟨tree.nmrtRangeIntervalRoot,
        tree.nmrtRangeHighestId⟩ range).2.nmrtRangeIntervalRoot := by
      rw [sameRoot]
      exact valid.rangeInsert (isStart ▸ isStop ▸ ⟨sameNet, addrLe⟩)
    split <;> exact inserted

theorem nodemapDelRange {config : NodemapConfig}
    (valid : ValidRanges config.nmcRangeTree.nmrtRangeIntervalRoot) (nodemap : LuNodemap)
    (nid : LnetNid × LnetNid) (idxRangeDel : Int) :
    ValidRanges (nodemapDelRange config nodemap nid idxRangeDel).2.nmcRangeTree.nmrtRangeIntervalRoot := by
  unfold Lustre.Ptlrpc.nodemapDelRange
  split
  · exact valid
  · split
    · exact valid
    · exact valid.erase _

theorem step {config : NodemapConfig} (valid : ValidRanges config.nmcRangeTree.nmrtRangeIntervalRoot) :
    ∀ event, ValidRanges (config.step event).nmcRangeTree.nmrtRangeIntervalRoot
  | .add nodemap nid rangeId idxRangeAdd => valid.nodemapAddRangeHelper nodemap nid rangeId idxRangeAdd
  | .del nodemap nid idxRangeDel => valid.nodemapDelRange nodemap nid idxRangeDel
  | .delete _ => valid.erase _

/-- Two ranges of a valid tree that hold one NID are one range. -/
theorem eq_of_contains (valid : ValidRanges root) {a b : LuNidRange} (memA : a ∈ root.toList)
    (memB : b ∈ root.toList) {nid : LnetNid} (inA : a.Contains nid) (inB : b.Contains nid) : a = b := by
  by_contra differ
  exact valid.disjoint.forall memA memB differ (overlaps_of_contains inA inB)

/-- The search for a NID reports the ranges that hold it. -/
theorem mem_search_nid (valid : ValidRanges root) {nid : LnetNid} {range : LuNidRange} :
    range ∈ root.intervalSearch intervalLow intervalHigh nid.toNat nid.toNat ↔
      range ∈ root.toList ∧ range.Contains nid := by
  rw [valid.mem_intervalSearch]
  exact and_congr_right fun _ => And.comm

end ValidRanges

/-- The ranges of every config a run reaches from an empty tree are valid. -/
theorem validRanges_of_run (defaultNodemap : Nat) (highestId : UInt32) (events : List RangeEvent) :
    ValidRanges (Machine.run NodemapConfig.step ⟨defaultNodemap, ⟨.leaf, highestId⟩⟩ events).nmcRangeTree.nmrtRangeIntervalRoot :=
  (Machine.Reachable.start.run events).invariant
    (fun config : NodemapConfig => ValidRanges config.nmcRangeTree.nmrtRangeIntervalRoot)
    validRanges_leaf (fun _ event valid _ => valid.step event)

/-! ## Classification -/

section Classify

variable {config : NodemapConfig} (valid : ValidRanges config.nmcRangeTree.nmrtRangeIntervalRoot)
include valid

/-- A NID that a range holds is classified into that range's nodemap. -/
theorem ValidRanges.nodemapClassifyNid_of_contains {range : LuNidRange} {nid : LnetNid}
    (mem : range ∈ config.nmcRangeTree.nmrtRangeIntervalRoot.toList) (holds : range.Contains nid) :
    nodemapClassifyNid config nid = range.rnNodemap := by
  have reported := valid.mem_search_nid.mpr ⟨mem, holds⟩
  unfold nodemapClassifyNid rangeSearch
  cases first : (config.nmcRangeTree.nmrtRangeIntervalRoot.intervalSearch intervalLow intervalHigh
      nid.toNat nid.toNat).head? with
  | none =>
    rw [List.head?_eq_none_iff] at first
    rw [first] at reported
    cases reported
  | some found =>
    obtain ⟨foundMem, foundHolds⟩ := valid.mem_search_nid.mp (List.mem_of_head? first)
    rw [valid.eq_of_contains foundMem mem foundHolds holds]

/-- A NID that no range holds is classified into the default nodemap. -/
theorem ValidRanges.nodemapClassifyNid_of_uncovered {nid : LnetNid}
    (uncovered : ∀ range ∈ config.nmcRangeTree.nmrtRangeIntervalRoot.toList, ¬ range.Contains nid) :
    nodemapClassifyNid config nid = config.nmcDefaultNodemap := by
  unfold nodemapClassifyNid rangeSearch
  cases first : (config.nmcRangeTree.nmrtRangeIntervalRoot.intervalSearch intervalLow intervalHigh
      nid.toNat nid.toNat).head? with
  | none => rfl
  | some found =>
    obtain ⟨foundMem, foundHolds⟩ := valid.mem_search_nid.mp (List.mem_of_head? first)
    exact absurd foundHolds (uncovered found foundMem)

end Classify

/-- Over every run of range requests from an empty tree, the ranges are pairwise
disjoint and each lies in one network with start address at most end address; a
failed insertion leaves the tree as it was; and every NID is classified into the
nodemap of the one range that holds it, or into the default nodemap. -/
theorem nodemapClassifyNid_unambiguous (defaultNodemap : Nat) (highestId : UInt32)
    (events : List RangeEvent) :
    let config := Machine.run NodemapConfig.step ⟨defaultNodemap, ⟨.leaf, highestId⟩⟩ events
    let ranges := config.nmcRangeTree.nmrtRangeIntervalRoot.toList
    ranges.Pairwise Apart ∧
    (∀ range ∈ ranges, lnetNidnet range.start = lnetNidnet range.stop ∧
      lnetNidaddr range.start ≤ lnetNidaddr range.stop) ∧
    (∀ nodemap nid rangeId idxRangeAdd,
      (∀ created, rangeCreate config.nmcRangeTree nid.1 nid.2 nodemap.nmId rangeId = some created →
        (rangeInsert created.2 created.1).1 ≠ 0) →
      (nodemapAddRangeHelper config nodemap nid rangeId idxRangeAdd).2.nmcRangeTree.nmrtRangeIntervalRoot =
        config.nmcRangeTree.nmrtRangeIntervalRoot) ∧
    (∀ nid, (∀ range ∈ ranges, range.Contains nid →
        nodemapClassifyNid config nid = range.rnNodemap ∧
          ∀ other ∈ ranges, other.Contains nid → other = range) ∧
      ((∀ range ∈ ranges, ¬ range.Contains nid) → nodemapClassifyNid config nid = defaultNodemap)) := by
  intro config ranges
  have valid := validRanges_of_run defaultNodemap highestId events
  have keepsDefault : config.nmcDefaultNodemap = defaultNodemap := nmcDefaultNodemap_run _ events
  refine ⟨valid.disjoint, valid.oneNet, fun _ _ _ idxRangeAdd failed =>
    nodemapAddRangeHelper_root_of_failed idxRangeAdd failed, fun nid => ⟨?_, ?_⟩⟩
  · intro range mem holds
    exact ⟨valid.nodemapClassifyNid_of_contains mem holds,
      fun other otherMem otherHolds => valid.eq_of_contains otherMem mem otherHolds holds⟩
  · intro uncovered
    rw [valid.nodemapClassifyNid_of_uncovered uncovered, keepsDefault]

end Lustre.Ptlrpc
