import Lustre.Libcfs.HeapLayout
import Lustre.Library.BinaryHeap
import Lustre.Library.Loop

/-!
# The operations of a libcfs binary heap (libcfs/heap.c)

`cfs_binheap_bubble` and `cfs_binheap_sink` move a node towards the root or
the leaves by moving a hole: each round copies the parent, or the child that
ranks first, into the slot of the hole, rewrites its `chn_index` and moves the
hole there; the node is written into the hole when the loop stops.
`cfs_binheap_insert` writes the node into a new last slot and bubbles it,
`cfs_binheap_remove` writes the last node into the slot of the removed one and
relocates it, and `cfs_binheap_relocate` bubbles a node and sinks it when the
bubble did not move it.  Every slot is read and written through
`cfs_binheap_pointer`, so a run that dereferences NULL or fails an assertion
returns `none`.

A heap is `WellFormed` for a `hop_compare` when the slots below
`cbh_nelements` hold nodes whose `chn_index` is their slot, hence distinct
nodes, and each ranks at or after its parent.  Nodes are ranked as cells
(`CellRanks`), so that the order of `BinaryHeap` applies to the slots as the
code reads them.  For a `hop_compare` that is a `TotalPreorder`, each round of
a sift is a `move` of the library and the end of each loop its `finish`, so
that the three operations keep a heap well formed with the contents they
promise, and the root ranks at or before every node.
-/

namespace Lustre
namespace Libcfs

open CfsBinheap BinaryHeap

variable {ι : Type}

/-- `*cfs_binheap_pointer(h, idx)`: the cell of slot `idx`, NULL for a slot
without one. -/
def slotCell (h : CfsBinheap ι) (idx : Nat) : Cell ι :=
  match cfsBinheapPointer h idx with
  | some addr => h.read addr
  | none => .null

theorem slotCell_eq (h : CfsBinheap ι) (idx : Nat) :
    slotCell h idx =
      match cfsBinheapPointer h idx with
      | some addr => h.read addr
      | none => .null := rfl

/-- `h->cbh_nelements = n`. -/
def CfsBinheap.setNelements (h : CfsBinheap ι) (n : Nat) : CfsBinheap ι :=
  { h with cbhNelements := n }

@[simp] theorem CfsBinheap.setNelements_cbhNelements (h : CfsBinheap ι) (n : Nat) :
    (h.setNelements n).cbhNelements = n := rfl

@[simp] theorem CfsBinheap.setNelements_chnIndex (h : CfsBinheap ι) (n : Nat) :
    (h.setNelements n).chnIndex = h.chnIndex := rfl

@[simp] theorem CfsBinheap.setNelements_cbhHwm (h : CfsBinheap ι) (n : Nat) :
    (h.setNelements n).cbhHwm = h.cbhHwm := rfl

@[simp] theorem CfsBinheap.slotCell_setNelements (h : CfsBinheap ι) (n : Nat) :
    slotCell (h.setNelements n) = slotCell h := rfl

@[simp] theorem CfsBinheap.read_setNelements (h : CfsBinheap ι) (n : Nat) :
    (h.setNelements n).read = h.read := rfl

@[simp] theorem CfsBinheap.cfsBinheapPointer_setNelements (h : CfsBinheap ι) (n : Nat) :
    cfsBinheapPointer (h.setNelements n) = cfsBinheapPointer h := rfl

section Model

variable [DecidableEq ι]

/-- `e->chn_index = idx`. -/
def CfsBinheap.setIndex (h : CfsBinheap ι) (e : ι) (idx : Nat) : CfsBinheap ι :=
  { h with chnIndex := Function.update h.chnIndex e idx }

@[simp] theorem CfsBinheap.setIndex_chnIndex (h : CfsBinheap ι) (e : ι) (idx : Nat) :
    (h.setIndex e idx).chnIndex = Function.update h.chnIndex e idx := rfl

@[simp] theorem CfsBinheap.setIndex_cbhNelements (h : CfsBinheap ι) (e : ι) (idx : Nat) :
    (h.setIndex e idx).cbhNelements = h.cbhNelements := rfl

@[simp] theorem CfsBinheap.setIndex_cbhHwm (h : CfsBinheap ι) (e : ι) (idx : Nat) :
    (h.setIndex e idx).cbhHwm = h.cbhHwm := rfl

@[simp] theorem CfsBinheap.slotCell_setIndex (h : CfsBinheap ι) (e : ι) (idx : Nat) :
    slotCell (h.setIndex e idx) = slotCell h := rfl

@[simp] theorem CfsBinheap.read_setIndex (h : CfsBinheap ι) (e : ι) (idx : Nat) :
    (h.setIndex e idx).read = h.read := rfl

@[simp] theorem CfsBinheap.cfsBinheapPointer_setIndex (h : CfsBinheap ι) (e : ι) (idx : Nat) :
    cfsBinheapPointer (h.setIndex e idx) = cfsBinheapPointer h := rfl

/-! ## The operations -/

/-- The variables the loops of `cfs_binheap_bubble` and `cfs_binheap_sink`
carry: the heap, `cur_idx`, `cur_ptr` and `did_sth`. -/
structure SiftState (ι : Type) where
  heap : CfsBinheap ι
  curIdx : Nat
  curPtr : Nat × Nat
  didSth : Bool

/-- The end of both sifts, `e->chn_index = cur_idx; *cur_ptr = e;`, and
`did_sth`. -/
def SiftState.place (st : SiftState ι) (e : ι) : CfsBinheap ι × Bool :=
  ((st.heap.setIndex e st.curIdx).store st.curPtr (.node e), st.didSth)

theorem SiftState.place_eq (st : SiftState ι) (e : ι) :
    st.place e = ((st.heap.setIndex e st.curIdx).store st.curPtr (.node e), st.didSth) := rfl

/-- A round of either sift that moves `next`, found at `nextIdx` and
`nextPtr`, into the hole: `next->chn_index = cur_idx; *cur_ptr = next;`, and
the hole moves to `nextIdx`. -/
def SiftState.move (st : SiftState ι) (next : ι) (nextIdx : Nat) (nextPtr : Nat × Nat) : SiftState ι :=
  ⟨(st.heap.setIndex next st.curIdx).store st.curPtr (.node next), nextIdx, nextPtr, true⟩

theorem SiftState.move_eq (st : SiftState ι) (next : ι) (nextIdx : Nat) (nextPtr : Nat × Nat) :
    st.move next nextIdx nextPtr =
      ⟨(st.heap.setIndex next st.curIdx).store st.curPtr (.node next), nextIdx, nextPtr, true⟩ := rfl

/-- The start of both sifts: `cur_ptr = cfs_binheap_pointer(h, e->chn_index)`
and `LASSERT(*cur_ptr == e)`. -/
def siftStart (h : CfsBinheap ι) (e : ι) : Option (SiftState ι) :=
  match cfsBinheapPointer h (h.chnIndex e) with
  | none => none
  | some curPtr => if h.read curPtr = .node e then some ⟨h, h.chnIndex e, curPtr, false⟩ else none

theorem siftStart_eq (h : CfsBinheap ι) (e : ι) :
    siftStart h e =
      match cfsBinheapPointer h (h.chnIndex e) with
      | none => none
      | some curPtr => if h.read curPtr = .node e then some ⟨h, h.chnIndex e, curPtr, false⟩ else none := rfl

/-- A round of the loop of `cfs_binheap_bubble` for node `e`. -/
def bubbleBody (compare : ι → ι → Bool) (e : ι) (st : SiftState ι) :
    Option (CfsBinheap ι × Bool) ⊕ SiftState ι :=
  if 0 < st.curIdx then
    let parentIdx := (st.curIdx - 1) >>> 1
    match cfsBinheapPointer st.heap parentIdx with
    | none => .inl none
    | some parentPtr =>
      match (st.heap.read parentPtr).node? with
      | none => .inl none
      | some parent =>
        -- LASSERT((*parent_ptr)->chn_index == parent_idx)
        if st.heap.chnIndex parent ≠ parentIdx then .inl none
        else if compare parent e then .inl (some (st.place e))
        else .inr (st.move parent parentIdx parentPtr)
  else .inl (some (st.place e))

/-- `cfs_binheap_bubble(h, e)`: the heap and `did_sth`.  The hole moves up at
every round, so `cur_idx + 1` rounds are enough. -/
def cfsBinheapBubble (compare : ι → ι → Bool) (h : CfsBinheap ι) (e : ι) : Option (CfsBinheap ι × Bool) :=
  (siftStart h e).bind fun st => (Loop.run (bubbleBody compare e) (st.curIdx + 1) st).join

theorem cfsBinheapBubble_eq (compare : ι → ι → Bool) (h : CfsBinheap ι) (e : ι) :
    cfsBinheapBubble compare h e =
      (siftStart h e).bind fun st => (Loop.run (bubbleBody compare e) (st.curIdx + 1) st).join := rfl

/-- The child of the hole that the loop of `cfs_binheap_sink` compares with:
`child_idx`, `child_ptr` and `child`, which become those of the second child
when `hop_compare(child2, child)`. -/
def sinkChild (compare : ι → ι → Bool) (h : CfsBinheap ι) (n childIdx : Nat) : Option (Nat × (Nat × Nat) × ι) :=
  match cfsBinheapPointer h childIdx with
  | none => none
  | some childPtr =>
    match (h.read childPtr).node? with
    | none => none
    | some child =>
      if childIdx + 1 < n then
        match cfsBinheapPointer h (childIdx + 1) with
        | none => none
        | some child2Ptr =>
          match (h.read child2Ptr).node? with
          | none => none
          | some child2 =>
            if compare child2 child then some (childIdx + 1, child2Ptr, child2)
            else some (childIdx, childPtr, child)
      else some (childIdx, childPtr, child)

/-- A round of the loop of `cfs_binheap_sink` for node `e`, with
`n = h->cbh_nelements` read before the loop. -/
def sinkBody (compare : ι → ι → Bool) (e : ι) (n : Nat) (st : SiftState ι) :
    Option (CfsBinheap ι × Bool) ⊕ SiftState ι :=
  if st.curIdx < n then
    let childIdx := (st.curIdx <<< 1) + 1
    if n ≤ childIdx then .inl (some (st.place e))
    else
      match sinkChild compare st.heap n childIdx with
      | none => .inl none
      | some (childIdx, childPtr, child) =>
        -- LASSERT(child->chn_index == child_idx)
        if st.heap.chnIndex child ≠ childIdx then .inl none
        else if compare e child then .inl (some (st.place e))
        else .inr (st.move child childIdx childPtr)
  else .inl (some (st.place e))

/-- `cfs_binheap_sink(h, e)`: the heap and `did_sth`.  The hole moves down at
every round and stays below `n`, so `n + 1` rounds are enough. -/
def cfsBinheapSink (compare : ι → ι → Bool) (h : CfsBinheap ι) (e : ι) : Option (CfsBinheap ι × Bool) :=
  (siftStart h e).bind fun st =>
    (Loop.run (sinkBody compare e h.cbhNelements) (h.cbhNelements + 1) st).join

/-- `cfs_binheap_relocate(h, e)`: sink `e` when bubbling did not move it. -/
def cfsBinheapRelocate (compare : ι → ι → Bool) (h : CfsBinheap ι) (e : ι) : Option (CfsBinheap ι) :=
  match cfsBinheapBubble compare h e with
  | none => none
  | some (h, true) => some h
  | some (h, false) => (cfsBinheapSink compare h e).map Prod.fst

theorem cfsBinheapRelocate_eq (compare : ι → ι → Bool) (h : CfsBinheap ι) (e : ι) :
    cfsBinheapRelocate compare h e =
      match cfsBinheapBubble compare h e with
      | none => none
      | some (h, true) => some h
      | some (h, false) => (cfsBinheapSink compare h e).map Prod.fst := rfl

/-- `cfs_binheap_insert(h, e)`: the return code and the heap.  `oom` says which
page allocations of a grow fail, and `enterRc` is what `hop_enter` returns (0
when there is none). -/
def cfsBinheapInsert (compare : ι → ι → Bool) (h : CfsBinheap ι) (e : ι) (oom : List Bool) (enterRc : Int) :
    Option (Int × CfsBinheap ι) :=
  let newIdx := h.cbhNelements
  match (if newIdx = h.cbhHwm then cfsBinheapGrow h oom else some (0, h)) with
  | none => none
  | some (rc, h) =>
    if rc ≠ 0 then some (rc, h)
    else if enterRc ≠ 0 then some (enterRc, h)
    else
      let h := h.setIndex e newIdx
      match cfsBinheapPointer h newIdx with
      | none => none
      | some newPtr =>
        let h := (h.setNelements (h.cbhNelements + 1)).store newPtr (.node e)
        (cfsBinheapBubble compare h e).map fun bubbled => (0, bubbled.1)

/-- `cfs_binheap_remove(h, e)`: the last node takes the slot of `e` and is
relocated, and `e` gets `CBH_POISON`; nothing moves when `e` is the last. -/
def cfsBinheapRemove (compare : ι → ι → Bool) (h : CfsBinheap ι) (e : ι) : Option (CfsBinheap ι) :=
  let n := h.cbhNelements
  let curIdx := h.chnIndex e
  -- LASSERT(cur_idx != CBH_POISON); LASSERT(cur_idx < n)
  if curIdx = cbhPoison ∨ n ≤ curIdx then none
  else
    match cfsBinheapPointer h curIdx with
    | none => none
    | some curPtr =>
      -- LASSERT(*cur_ptr == e)
      if h.read curPtr ≠ .node e then none
      else
        match cfsBinheapPointer h (n - 1) with
        | none => none
        | some lastPtr =>
          let h' := h.setNelements (n - 1)
          match h.read lastPtr with
          | .node last =>
            if last = e then some h'
            else
              ((cfsBinheapRelocate compare ((h'.setIndex last curIdx).store curPtr (.node last)) last)).map
                fun h => h.setIndex e cbhPoison
          | _ => none

/-- `cfs_binheap_find(h, idx)`: the node of slot `idx`, NULL past the last. -/
def cfsBinheapFind (h : CfsBinheap ι) (idx : Nat) : Option (Cell ι) :=
  if h.cbhNelements ≤ idx then some .null
  else (cfsBinheapPointer h idx).map h.read

/-- `cfs_binheap_root(h)`. -/
def cfsBinheapRoot (h : CfsBinheap ι) : Option (Cell ι) := cfsBinheapFind h 0

end Model

/-! ## Slots under a layout -/

/-- The cell of slot `i` under a layout: the cell `i % 512` of the page of its
run. -/
def slotPtr (pageOf : PageRole → Nat) (i : Nat) : Nat × Nat := (pageOf (.leaf (i / cbhSize)), i % cbhSize)

section Slots

variable {h : CfsBinheap ι} {pageOf : PageRole → Nat}

theorem Layout.pointer_of_lt (laid : Layout h pageOf) {i : Nat} (inside : i < h.cbhHwm) :
    cfsBinheapPointer h i = some (slotPtr pageOf i) := by
  rw [laid.cfsBinheapPointer_eq, if_pos inside]
  rfl

theorem Layout.slotCell_of_lt (laid : Layout h pageOf) {i : Nat} (inside : i < h.cbhHwm) :
    slotCell h i = h.read (slotPtr pageOf i) := by
  rw [slotCell_eq, laid.pointer_of_lt inside]

theorem Layout.slotCell_of_le (laid : Layout h pageOf) {i : Nat} (outside : h.cbhHwm ≤ i) :
    slotCell h i = .null := by
  rw [slotCell_eq, laid.cfsBinheapPointer_eq, if_neg (by omega)]

theorem Layout.run_lt (laid : Layout h pageOf) {i : Nat} (inside : i < h.cbhHwm) : i / cbhSize < h.runs := by
  have := laid.hwm_eq
  rw [cbhSize_eq]
  omega

/-- Distinct slots below the mark have distinct cells. -/
theorem Layout.slotPtr_injective (laid : Layout h pageOf) {i j : Nat} (iInside : i < h.cbhHwm)
    (jInside : j < h.cbhHwm) (same : slotPtr pageOf i = slotPtr pageOf j) : i = j := by
  have runs : PageRole.leaf (i / cbhSize) = .leaf (j / cbhSize) :=
    laid.distinct _ _ (laid.run_lt iInside) (laid.run_lt jInside) (congrArg Prod.fst same)
  have offsets : i % cbhSize = j % cbhSize := congrArg Prod.snd same
  rw [PageRole.leaf.injEq] at runs
  rw [cbhSize_eq] at runs offsets
  omega

theorem Layout.store_slot (laid : Layout h pageOf) {i : Nat} (inside : i < h.cbhHwm) (c : Cell ι) :
    Layout (h.store (slotPtr pageOf i) c) pageOf :=
  laid.store_leaf (laid.run_lt inside) _ c

/-- A store into the cell of slot `i` changes slot `i` and no other. -/
theorem Layout.slotCell_store (laid : Layout h pageOf) {i : Nat} (inside : i < h.cbhHwm) (c : Cell ι) :
    slotCell (h.store (slotPtr pageOf i) c) = Function.update (slotCell h) i c := by
  funext j
  have stored := laid.store_slot inside c
  by_cases below : j < h.cbhHwm
  · rw [stored.slotCell_of_lt (by rwa [store_cbhHwm])]
    rcases eq_or_ne j i with rfl | other
    · rw [read_store_self, Function.update_self]
    · rw [read_store_of_ne _ _ (fun same => other (laid.slotPtr_injective below inside same)),
        Function.update_of_ne other, laid.slotCell_of_lt below]
  · rw [stored.slotCell_of_le (by rw [store_cbhHwm]; omega), Function.update_of_ne (by omega),
      laid.slotCell_of_le (by omega)]

/-- Below the mark `cfs_binheap_pointer` gives distinct slots distinct cells,
in pages handed out before `cbh_next`. -/
theorem Layout.pointer_distinct (laid : Layout h pageOf) {i j : Nat} (iInside : i < h.cbhHwm)
    (jInside : j < h.cbhHwm) (different : i ≠ j) :
    ∃ a b, cfsBinheapPointer h i = some a ∧ cfsBinheapPointer h j = some b ∧ a ≠ b ∧
      a.1 < h.cbhNext ∧ b.1 < h.cbhNext :=
  ⟨_, _, laid.pointer_of_lt iInside, laid.pointer_of_lt jInside,
    fun same => different (laid.slotPtr_injective iInside jInside same), laid.allocated _ (laid.run_lt iInside),
    laid.allocated _ (laid.run_lt jInside)⟩

/-- A grow that returns 0 raises the mark by `CBH_SIZE` and keeps a layout. -/
theorem Layout.cfsBinheapGrow_raises (laid : Layout h pageOf) {oom : List Bool} {rc : Int} {h' : CfsBinheap ι}
    (grew : cfsBinheapGrow h oom = some (rc, h')) (zero : rc = 0) :
    h'.cbhHwm = h.cbhHwm + cbhSize ∧ ∃ pageOf', Layout h' pageOf' := by
  rcases laid.cfsBinheapGrow_cases oom with failed | ⟨h₁, pageOf₁, grown, parts⟩
  · rw [failed, Option.some.injEq, Prod.mk.injEq] at grew
    rw [← grew.1] at zero
    exact absurd zero (by decide)
  · rw [grown, Option.some.injEq, Prod.mk.injEq] at grew
    rw [← grew.2]
    exact ⟨parts.hwm, pageOf₁, parts.laid⟩

/-- The cells of the slots below the old mark stay through a grow. -/
theorem Grown.slotCell {h' : CfsBinheap ι} {pageOf' : PageRole → Nat} (grown : Grown h pageOf h' pageOf')
    (laid : Layout h pageOf) {i : Nat} (inside : i < h.cbhHwm) : slotCell h' i = slotCell h i := by
  have run := laid.run_lt inside
  rw [grown.laid.slotCell_of_lt (by rw [grown.hwm]; omega), laid.slotCell_of_lt inside, slotPtr, slotPtr,
    grown.leaves _ run, grown.cells _ run]

theorem Layout.setNelements (laid : Layout h pageOf) (n : Nat) : Layout (h.setNelements n) pageOf :=
  ⟨laid.1, laid.2, laid.3, laid.4, laid.5, laid.6, laid.7, laid.8, laid.9, laid.10, laid.11⟩

theorem Layout.setIndex [DecidableEq ι] (laid : Layout h pageOf) (e : ι) (idx : Nat) :
    Layout (h.setIndex e idx) pageOf :=
  ⟨laid.1, laid.2, laid.3, laid.4, laid.5, laid.6, laid.7, laid.8, laid.9, laid.10, laid.11⟩

end Slots

/-! ## Ranks and well-formed heaps -/

/-- `hop_compare` ranks nodes by a total preorder: it returns true iff its
first argument ranks at or before the second. -/
structure TotalPreorder (compare : ι → ι → Bool) : Prop where
  total : ∀ a b, compare a b = true ∨ compare b a = true
  trans : ∀ a b c, compare a b = true → compare b c = true → compare a c = true

/-- The rank of the cells of a heap: nodes as `hop_compare` ranks them, and
every node before NULL and page pointers, which no slot of a well-formed heap
holds. -/
def CellRanks (compare : ι → ι → Bool) (c d : Cell ι) : Prop :=
  match c.node?, d.node? with
  | some a, some b => compare a b = true
  | some _, none => True
  | none, some _ => False
  | none, none => True

@[simp] theorem cellRanks_node (compare : ι → ι → Bool) (a b : ι) :
    CellRanks compare (.node a) (.node b) ↔ compare a b = true := Iff.rfl

section Ranks

variable {compare : ι → ι → Bool}

theorem TotalPreorder.isTrans (preorder : TotalPreorder compare) : IsTrans (Cell ι) (CellRanks compare) := by
  constructor
  intro c d f
  unfold CellRanks
  cases c.node? <;> cases d.node? <;> cases f.node? <;> simp only [imp_self, implies_true, false_implies]
  exact preorder.trans _ _ _

theorem TotalPreorder.isTotal (preorder : TotalPreorder compare) : Std.Total (CellRanks compare) := by
  constructor
  intro c d
  unfold CellRanks
  cases c.node? <;> cases d.node? <;> simp only [or_true, true_or, or_self]
  exact preorder.total _ _

end Ranks

/-- The slots below `n` hold nodes whose `chn_index` is their slot. -/
def Indexed (h : CfsBinheap ι) (n : Nat) : Prop :=
  ∀ i, i < n → ∃ x, slotCell h i = .node x ∧ h.chnIndex x = i

/-- A well-formed heap for `hop_compare`: laid out, and the slots below
`cbh_nelements` hold nodes whose `chn_index` is their slot (so distinct nodes,
`Indexed.injective`), each ranked at or after its parent. -/
structure WellFormed (compare : ι → ι → Bool) (h : CfsBinheap ι) (pageOf : PageRole → Nat) : Prop where
  laid : Layout h pageOf
  within : h.cbhNelements ≤ h.cbhHwm
  indexed : Indexed h h.cbhNelements
  ordered : Ordered (CellRanks compare) (slotCell h) h.cbhNelements

section Indexed

variable {h : CfsBinheap ι} {n : Nat}

/-- Nodes that know their slot are distinct. -/
theorem Indexed.injective (indexed : Indexed h n) {i j : Nat} (iInside : i < n) (jInside : j < n)
    (same : slotCell h i = slotCell h j) : i = j := by
  obtain ⟨x, atI, indexI⟩ := indexed i iInside
  obtain ⟨y, atJ, indexJ⟩ := indexed j jInside
  rw [atI, atJ, Cell.node.injEq] at same
  rw [← indexI, ← indexJ, same]

theorem Indexed.index_of_slot (indexed : Indexed h n) {i : Nat} (inside : i < n) {x : ι}
    (atI : slotCell h i = .node x) : h.chnIndex x = i := by
  obtain ⟨y, atI', index⟩ := indexed i inside
  rw [atI, Cell.node.injEq] at atI'
  rwa [atI']

end Indexed

theorem TotalPreorder.refl {compare : ι → ι → Bool} (preorder : TotalPreorder compare) (a : ι) :
    compare a a = true :=
  (preorder.total a a).elim id id

/-! ## The sifts -/

/-- `(i - 1) >> 1` is the parent of slot `i`. -/
theorem parent_eq_shiftRight (i : Nat) : (i - 1) >>> 1 = parent i := by
  rw [Nat.shiftRight_eq_div_pow, pow_one]
  rfl

/-- `(i << 1) + 1` is the first child of slot `i`. -/
theorem shiftLeft_one_add_one (i : Nat) : (i <<< 1) + 1 = 2 * i + 1 := by
  rw [Nat.shiftLeft_eq, pow_one, mul_comm]

section Sift

variable [DecidableEq ι] {compare : ι → ι → Bool} {pageOf : PageRole → Nat} {e : ι} {n : Nat}
  {st : SiftState ι}

/-- A sift of `e` over `n` slots with the hole at `cur_idx`: `cur_ptr` is the
cell of the hole, and the other slots below `n` hold nodes other than `e`
that know their slot. -/
structure Sifting (pageOf : PageRole → Nat) (e : ι) (n : Nat) (st : SiftState ι) : Prop where
  laid : Layout st.heap pageOf
  nelements : st.heap.cbhNelements = n
  within : n ≤ st.heap.cbhHwm
  holeInside : st.curIdx < n
  ptr : st.curPtr = slotPtr pageOf st.curIdx
  others : ∀ i, i < n → i ≠ st.curIdx → ∃ x, slotCell st.heap i = .node x ∧ x ≠ e ∧ st.heap.chnIndex x = i

omit [DecidableEq ι] in
theorem Sifting.holeBelow (sifting : Sifting pageOf e n st) : st.curIdx < st.heap.cbhHwm :=
  Nat.lt_of_lt_of_le sifting.holeInside sifting.within

/-- Writing a node into the hole changes the slot of the hole and no other. -/
theorem Sifting.write (sifting : Sifting pageOf e n st) (y : ι) :
    Layout ((st.heap.setIndex y st.curIdx).store st.curPtr (.node y)) pageOf ∧
      slotCell ((st.heap.setIndex y st.curIdx).store st.curPtr (.node y)) =
        Function.update (slotCell st.heap) st.curIdx (.node y) := by
  have laid := sifting.laid.setIndex y st.curIdx
  rw [sifting.ptr]
  exact ⟨laid.store_slot sifting.holeBelow _, by rw [laid.slotCell_store sifting.holeBelow, slotCell_setIndex]⟩

/-- Writing `e` into the hole leaves the slots below `n` indexed. -/
theorem Sifting.place (sifting : Sifting pageOf e n st) :
    Layout (st.place e).1 pageOf ∧ (st.place e).1.cbhNelements = n ∧ (st.place e).1.cbhHwm = st.heap.cbhHwm ∧
      slotCell (st.place e).1 = Function.update (slotCell st.heap) st.curIdx (.node e) ∧
      Indexed (st.place e).1 n := by
  obtain ⟨laid, slots⟩ := sifting.write e
  refine ⟨laid, sifting.nelements, rfl, slots, ?_⟩
  intro i inside
  simp only [SiftState.place_eq, slots, store_chnIndex, setIndex_chnIndex]
  rcases eq_or_ne i st.curIdx with rfl | other
  · exact ⟨e, Function.update_self .., Function.update_self ..⟩
  · obtain ⟨x, atI, notE, index⟩ := sifting.others i inside other
    exact ⟨x, by rw [Function.update_of_ne other, atI], by rw [Function.update_of_ne notE, index]⟩

/-- Writing `e` into the hole of a sift that may stop there leaves a
well-formed heap. -/
theorem Sifting.place_wellFormed (sifting : Sifting pageOf e n st)
    (ordered : Ordered (CellRanks compare) (Function.update (slotCell st.heap) st.curIdx (.node e)) n) :
    WellFormed compare (st.place e).1 pageOf := by
  obtain ⟨laid, nelements, hwm, slots, indexed⟩ := sifting.place
  refine ⟨laid, ?_, by rwa [nelements], by rwa [nelements, slots]⟩
  rw [nelements, hwm]
  exact sifting.within

/-- Moving the node of slot `j` into the hole keeps a sift, with the hole at
`j`. -/
theorem Sifting.move (sifting : Sifting pageOf e n st) {j : Nat} (inside : j < n) (other : j ≠ st.curIdx)
    {x : ι} (atJ : slotCell st.heap j = .node x) :
    Sifting pageOf e n (st.move x j (slotPtr pageOf j)) ∧
      slotCell (st.move x j (slotPtr pageOf j)).heap =
        Function.update (slotCell st.heap) st.curIdx (slotCell st.heap j) := by
  obtain ⟨y, atJ', notE, index⟩ := sifting.others j inside other
  rw [atJ, Cell.node.injEq] at atJ'
  subst atJ'
  obtain ⟨laid, slots⟩ := sifting.write x
  refine ⟨⟨laid, sifting.nelements, sifting.within, inside, rfl, ?_⟩, by rw [atJ]; exact slots⟩
  intro i inside' notJ
  simp only [SiftState.move_eq, slots, store_chnIndex, setIndex_chnIndex]
  rcases eq_or_ne i st.curIdx with rfl | notHole
  · exact ⟨x, Function.update_self .., notE, Function.update_self ..⟩
  · obtain ⟨z, atI, notE', index'⟩ := sifting.others i inside' notHole
    have notX : z ≠ x := fun same => notJ (show i = j by rw [← index', same, index])
    exact ⟨z, by rw [Function.update_of_ne notHole, atI], notE', by rw [Function.update_of_ne notX, index']⟩

/-- What a round of the loop of `cfs_binheap_bubble` does: stop, at the root
or below a parent ranked at or before `e`, or move the parent into the hole. -/
theorem Sifting.bubbleBody_cases (compare : ι → ι → Bool) (sifting : Sifting pageOf e n st) :
    ((0 < st.curIdx → CellRanks compare (slotCell st.heap (parent st.curIdx)) (.node e)) ∧
        bubbleBody compare e st = .inl (some (st.place e))) ∨
      (0 < st.curIdx ∧ ∃ p, slotCell st.heap (parent st.curIdx) = .node p ∧ compare p e = false ∧
        bubbleBody compare e st = .inr (st.move p (parent st.curIdx) (slotPtr pageOf (parent st.curIdx)))) := by
  unfold bubbleBody
  by_cases pos : 0 < st.curIdx
  · have up := parent_lt pos
    have upBelow : parent st.curIdx < st.heap.cbhHwm := by have := sifting.holeBelow; omega
    obtain ⟨p, atParent, -, index⟩ :=
      sifting.others (parent st.curIdx) (by have := sifting.holeInside; omega) (by omega)
    rw [if_pos pos]
    simp only [parent_eq_shiftRight, sifting.laid.pointer_of_lt upBelow, ← sifting.laid.slotCell_of_lt upBelow,
      atParent, Cell.node?_node, index, ne_eq, not_true_eq_false, if_false]
    cases compares : compare p e
    · exact .inr ⟨pos, p, rfl, compares, rfl⟩
    · exact .inl ⟨fun _ => compares, rfl⟩
  · rw [if_neg pos]
    exact .inl ⟨fun pos' => absurd pos' pos, rfl⟩

/-- The loop of `cfs_binheap_bubble` from a hole that `e` may be sifted up
from leaves within `cur_idx + 1` rounds, with a well-formed heap that holds
what the slots hold with `e` in the hole. -/
theorem Sifting.bubble_run (preorder : TotalPreorder compare) (sifting : Sifting pageOf e n st)
    (order : UpOrder (CellRanks compare) (slotCell st.heap) n st.curIdx (.node e)) {fuel : Nat}
    (enough : st.curIdx < fuel) :
    ∃ h' did, Loop.run (bubbleBody compare e) fuel st = some (some (h', did)) ∧ WellFormed compare h' pageOf ∧
      h'.cbhNelements = n ∧
      contents (slotCell h') n = contents (Function.update (slotCell st.heap) st.curIdx (.node e)) n ∧
      (st.didSth = true → did = true) := by
  have := preorder.isTrans
  have := preorder.isTotal
  -- on the fuel, for every state: each round moves the hole up
  induction fuel generalizing st with
  | zero => exact absurd enough (Nat.not_lt_zero _)
  | succ fuel ih =>
    rcases sifting.bubbleBody_cases compare with ⟨stop, leaves⟩ | ⟨pos, p, atParent, before, goesOn⟩
    · obtain ⟨-, nelements, -, slots, -⟩ := sifting.place
      exact ⟨_, _, Loop.run_succ_of_leave leaves fuel, sifting.place_wellFormed (order.finish stop), nelements,
        congrArg (contents · n) slots, id⟩
    · have up := parent_lt pos
      have upInside : parent st.curIdx < n := by have := sifting.holeInside; omega
      obtain ⟨moved, slots⟩ := sifting.move upInside (by omega) atParent
      have notFirst : ¬ CellRanks compare (slotCell st.heap (parent st.curIdx)) (.node e) := by
        rw [atParent, cellRanks_node, before]
        exact Bool.false_ne_true
      have movedOrder := order.move pos sifting.holeInside notFirst
      rw [← slots] at movedOrder
      obtain ⟨h', did, ran, wellFormed, nelements, kept, didMove⟩ :=
        ih moved movedOrder (by simp only [SiftState.move_eq]; omega)
      refine ⟨h', did, by rw [Loop.run_succ_of_next goesOn]; exact ran, wellFormed, nelements, ?_,
        fun _ => didMove rfl⟩
      rw [kept, slots]
      exact contents_move _ _ sifting.holeInside upInside (by omega)

omit [DecidableEq ι] in
/-- The child that `cfs_binheap_sink` picks below a hole that has children: a
child below `n`, read at the cell of its slot, that knows its slot and ranks
at or before its sibling. -/
theorem Sifting.sinkChild_eq (preorder : TotalPreorder compare) (sifting : Sifting pageOf e n st)
    (hasChild : 2 * st.curIdx + 1 < n) :
    ∃ c x, sinkChild compare st.heap n (2 * st.curIdx + 1) = some (c, slotPtr pageOf c, x) ∧
      IsChild c st.curIdx ∧ c < n ∧ slotCell st.heap c = .node x ∧ st.heap.chnIndex x = c ∧
      ∀ d, IsChild d st.curIdx → d < n → CellRanks compare (.node x) (slotCell st.heap d) := by
  have within := sifting.within
  have first : IsChild (2 * st.curIdx + 1) st.curIdx := isChild_iff.2 (.inl rfl)
  have second : IsChild (2 * st.curIdx + 1 + 1) st.curIdx := isChild_iff.2 (.inr rfl)
  obtain ⟨x, atFirst, -, indexFirst⟩ := sifting.others (2 * st.curIdx + 1) hasChild (by omega)
  unfold sinkChild
  simp only [sifting.laid.pointer_of_lt (show 2 * st.curIdx + 1 < st.heap.cbhHwm by omega),
    ← sifting.laid.slotCell_of_lt (show 2 * st.curIdx + 1 < st.heap.cbhHwm by omega), atFirst, Cell.node?_node]
  by_cases hasSecond : 2 * st.curIdx + 1 + 1 < n
  · obtain ⟨y, atSecond, -, indexSecond⟩ := sifting.others (2 * st.curIdx + 1 + 1) hasSecond (by omega)
    simp only [if_pos hasSecond, sifting.laid.pointer_of_lt (show 2 * st.curIdx + 1 + 1 < st.heap.cbhHwm by omega),
      ← sifting.laid.slotCell_of_lt (show 2 * st.curIdx + 1 + 1 < st.heap.cbhHwm by omega), atSecond,
      Cell.node?_node]
    -- the two children are the only ones, and the one picked ranks first
    cases compares : compare y x
    · refine ⟨_, x, rfl, first, hasChild, atFirst, indexFirst, fun d child _ => ?_⟩
      rcases isChild_iff.1 child with rfl | rfl
      · rw [atFirst, cellRanks_node]
        exact preorder.refl x
      · rw [atSecond, cellRanks_node]
        exact (preorder.total x y).resolve_right (by rw [compares]; exact Bool.false_ne_true)
    · refine ⟨_, y, rfl, second, hasSecond, atSecond, indexSecond, fun d child _ => ?_⟩
      rcases isChild_iff.1 child with rfl | rfl
      · rw [atFirst, cellRanks_node]
        exact compares
      · rw [atSecond, cellRanks_node]
        exact preorder.refl y
  · rw [if_neg hasSecond]
    refine ⟨_, x, rfl, first, hasChild, atFirst, indexFirst, fun d child inside => ?_⟩
    rcases isChild_iff.1 child with rfl | rfl
    · rw [atFirst, cellRanks_node]
      exact preorder.refl x
    · exact absurd inside hasSecond

/-- What a round of the loop of `cfs_binheap_sink` does: stop, where `e`
ranks at or before every child of the hole, or move the child that ranks
first into the hole. -/
theorem Sifting.sinkBody_cases (preorder : TotalPreorder compare) (sifting : Sifting pageOf e n st) :
    ((∀ c, IsChild c st.curIdx → c < n → CellRanks compare (.node e) (slotCell st.heap c)) ∧
        sinkBody compare e n st = .inl (some (st.place e))) ∨
      (∃ c x, IsChild c st.curIdx ∧ c < n ∧ slotCell st.heap c = .node x ∧
        (∀ d, IsChild d st.curIdx → d < n → CellRanks compare (slotCell st.heap c) (slotCell st.heap d)) ∧
        compare e x = false ∧ sinkBody compare e n st = .inr (st.move x c (slotPtr pageOf c))) := by
  have := preorder.isTrans
  unfold sinkBody
  rw [if_pos sifting.holeInside]
  simp only [shiftLeft_one_add_one]
  by_cases leaf : n ≤ 2 * st.curIdx + 1
  · rw [if_pos leaf]
    refine .inl ⟨fun c child inside => absurd inside ?_, rfl⟩
    rcases isChild_iff.1 child with rfl | rfl <;> omega
  · rw [if_neg leaf]
    obtain ⟨c, x, chosen, child, inside, atC, index, least⟩ := sifting.sinkChild_eq preorder (by omega)
    simp only [chosen, index, ne_eq, not_true_eq_false, if_false]
    cases compares : compare e x
    · exact .inr ⟨c, x, child, inside, atC, by rw [atC]; exact least, compares, rfl⟩
    · refine .inl ⟨fun d child' inside' => ?_, rfl⟩
      exact trans_of (CellRanks compare) (show CellRanks compare (.node e) (.node x) from compares)
        (least d child' inside')

/-- The loop of `cfs_binheap_sink` from a hole that `e` may be sifted down
from leaves within `n - cur_idx` rounds, with a well-formed heap that holds
what the slots hold with `e` in the hole. -/
theorem Sifting.sink_run (preorder : TotalPreorder compare) (sifting : Sifting pageOf e n st)
    (order : DownOrder (CellRanks compare) (slotCell st.heap) n st.curIdx (.node e)) {fuel : Nat}
    (enough : n - st.curIdx < fuel) :
    ∃ h' did, Loop.run (sinkBody compare e n) fuel st = some (some (h', did)) ∧ WellFormed compare h' pageOf ∧
      h'.cbhNelements = n ∧
      contents (slotCell h') n = contents (Function.update (slotCell st.heap) st.curIdx (.node e)) n := by
  have := preorder.isTrans
  have := preorder.isTotal
  -- on the fuel, for every state: each round moves the hole down, and it stays below `n`
  induction fuel generalizing st with
  | zero => exact absurd enough (Nat.not_lt_zero _)
  | succ fuel ih =>
    rcases sifting.sinkBody_cases preorder with ⟨stop, leaves⟩ | ⟨c, x, child, inside, atC, least, before, goesOn⟩
    · obtain ⟨-, nelements, -, slots, -⟩ := sifting.place
      exact ⟨_, _, Loop.run_succ_of_leave leaves fuel, sifting.place_wellFormed (order.finish stop), nelements,
        congrArg (contents · n) slots⟩
    · have down := child.lt
      obtain ⟨moved, slots⟩ := sifting.move inside (by omega) atC
      have notFirst : ¬ CellRanks compare (.node e) (slotCell st.heap c) := by
        rw [atC, cellRanks_node, before]
        exact Bool.false_ne_true
      have movedOrder := order.move child inside least notFirst
      rw [← slots] at movedOrder
      obtain ⟨h', did, ran, wellFormed, nelements, kept⟩ :=
        ih moved movedOrder (by simp only [SiftState.move_eq]; omega)
      refine ⟨h', did, by rw [Loop.run_succ_of_next goesOn]; exact ran, wellFormed, nelements, ?_⟩
      rw [kept, slots]
      exact contents_move _ _ sifting.holeInside inside (by omega)

end Sift

/-! ## Bubble, sink and relocate -/

section Operations

variable [DecidableEq ι] {compare : ι → ι → Bool} {h : CfsBinheap ι} {pageOf : PageRole → Nat} {e : ι}

/-- A laid-out heap whose slots below `cbh_nelements` are indexed, with `e` in
the slot its `chn_index` names: where a sift of `e` starts. -/
structure Placed (h : CfsBinheap ι) (pageOf : PageRole → Nat) (e : ι) : Prop where
  laid : Layout h pageOf
  within : h.cbhNelements ≤ h.cbhHwm
  indexed : Indexed h h.cbhNelements
  inside : h.chnIndex e < h.cbhNelements
  atSlot : slotCell h (h.chnIndex e) = .node e

/-- A sift of a placed node starts with the hole at its slot. -/
theorem Placed.started (placed : Placed h pageOf e) :
    siftStart h e = some ⟨h, h.chnIndex e, slotPtr pageOf (h.chnIndex e), false⟩ ∧
      Sifting pageOf e h.cbhNelements ⟨h, h.chnIndex e, slotPtr pageOf (h.chnIndex e), false⟩ := by
  have below : h.chnIndex e < h.cbhHwm := Nat.lt_of_lt_of_le placed.inside placed.within
  refine ⟨?_, ⟨placed.laid, rfl, placed.within, placed.inside, rfl, ?_⟩⟩
  · simp only [siftStart_eq, placed.laid.pointer_of_lt below, ← placed.laid.slotCell_of_lt below, placed.atSlot,
      if_true]
  · intro i inside other
    obtain ⟨x, atI, index⟩ := placed.indexed i inside
    exact ⟨x, atI, fun same => other (by rw [← index, same]), index⟩

/-- `cfs_binheap_bubble` of a node whose slot it may be sifted up from leaves a
well-formed heap with the same nodes. -/
theorem Placed.bubble (preorder : TotalPreorder compare) (placed : Placed h pageOf e)
    (order : UpOrder (CellRanks compare) (slotCell h) h.cbhNelements (h.chnIndex e) (.node e)) :
    ∃ h' did, cfsBinheapBubble compare h e = some (h', did) ∧ WellFormed compare h' pageOf ∧
      h'.cbhNelements = h.cbhNelements ∧
      contents (slotCell h') h.cbhNelements = contents (slotCell h) h.cbhNelements := by
  obtain ⟨started, sifting⟩ := placed.started
  obtain ⟨h', did, ran, wellFormed, nelements, kept, -⟩ := sifting.bubble_run preorder order (Nat.lt_succ_self _)
  refine ⟨h', did, ?_, wellFormed, nelements, ?_⟩
  · rw [cfsBinheapBubble_eq, started, Option.bind_some, ran, Option.join_some]
  · rw [kept, Function.update_eq_self_iff.2 placed.atSlot.symm]

/-- `cfs_binheap_sink` of a node whose slot it may be sifted down from leaves a
well-formed heap with the same nodes. -/
theorem Placed.sink (preorder : TotalPreorder compare) (placed : Placed h pageOf e)
    (order : DownOrder (CellRanks compare) (slotCell h) h.cbhNelements (h.chnIndex e) (.node e)) :
    ∃ h' did, cfsBinheapSink compare h e = some (h', did) ∧ WellFormed compare h' pageOf ∧
      h'.cbhNelements = h.cbhNelements ∧
      contents (slotCell h') h.cbhNelements = contents (slotCell h) h.cbhNelements := by
  obtain ⟨started, sifting⟩ := placed.started
  obtain ⟨h', did, ran, wellFormed, nelements, kept⟩ :=
    sifting.sink_run preorder order (show h.cbhNelements - h.chnIndex e < h.cbhNelements + 1 by omega)
  refine ⟨h', did, ?_, wellFormed, nelements, ?_⟩
  · rw [cfsBinheapSink, started, Option.bind_some, ran, Option.join_some]
  · rw [kept, Function.update_eq_self_iff.2 placed.atSlot.symm]

/-- `cfs_binheap_relocate` of a node whose slot the other slots are ordered
around leaves a well-formed heap with the same nodes: either the bubble moves
the node, or it writes it back where it was and the sink moves it. -/
theorem Placed.relocate (preorder : TotalPreorder compare) (placed : Placed h pageOf e)
    (around : Around (CellRanks compare) (slotCell h) h.cbhNelements (h.chnIndex e)) :
    ∃ h', cfsBinheapRelocate compare h e = some h' ∧ WellFormed compare h' pageOf ∧
      h'.cbhNelements = h.cbhNelements ∧
      contents (slotCell h') h.cbhNelements = contents (slotCell h) h.cbhNelements := by
  have := preorder.isTrans
  have := preorder.isTotal
  obtain ⟨started, sifting⟩ := placed.started
  set st : SiftState ι := ⟨h, h.chnIndex e, slotPtr pageOf (h.chnIndex e), false⟩ with hst
  have unchanged : Function.update (slotCell h) (h.chnIndex e) (.node e) = slotCell h :=
    Function.update_eq_self_iff.2 placed.atSlot.symm
  rcases sifting.bubbleBody_cases compare with ⟨stop, leaves⟩ | ⟨pos, p, atParent, before, goesOn⟩
  · -- `e` ranks at or after its parent: the bubble writes it back where it was, and it sinks
    obtain ⟨laid, nelements, hwm, slots, indexed⟩ := sifting.place
    rw [unchanged] at slots
    have indexSame : (st.place e).1.chnIndex e = h.chnIndex e := by
      simp [SiftState.place_eq, st]
    have placed' : Placed (st.place e).1 pageOf e :=
      ⟨laid, by rw [nelements, hwm]; exact placed.within, by rw [nelements]; exact indexed,
        by rw [indexSame, nelements]; exact placed.inside, by rw [indexSame, slots]; exact placed.atSlot⟩
    obtain ⟨h', did, sunk, wellFormed, nelements', kept⟩ :=
      placed'.sink preorder (by rw [slots, indexSame, nelements]; exact around.down stop)
    rw [nelements, slots] at kept
    refine ⟨h', ?_, wellFormed, by rw [nelements', nelements], kept⟩
    have bubbled : cfsBinheapBubble compare h e = some ((st.place e).1, false) := by
      rw [cfsBinheapBubble_eq, started, Option.bind_some, Loop.run_succ_of_leave leaves, Option.join_some]
      rfl
    rw [cfsBinheapRelocate_eq, bubbled]
    simp only [sunk, Option.map_some]
  · -- `e` ranks before its parent: the bubble moves it, and relocate stops there
    have up := parent_lt pos
    have upInside : parent st.curIdx < h.cbhNelements := by have := sifting.holeInside; omega
    obtain ⟨moved, slots⟩ := sifting.move upInside (by omega) atParent
    have notFirst : ¬ CellRanks compare (slotCell h (parent st.curIdx)) (.node e) := by
      rw [atParent, cellRanks_node, before]
      exact Bool.false_ne_true
    have movedOrder := (around.up pos notFirst).move pos sifting.holeInside notFirst
    rw [← slots] at movedOrder
    obtain ⟨h', did, ran, wellFormed, nelements, kept, didMove⟩ :=
      moved.bubble_run preorder movedOrder (show parent st.curIdx < st.curIdx from up)
    have bubbled : cfsBinheapBubble compare h e = some (h', true) := by
      rw [cfsBinheapBubble_eq, started, Option.bind_some, Loop.run_succ_of_next goesOn, ran, Option.join_some,
        didMove rfl]
    refine ⟨h', by rw [cfsBinheapRelocate_eq, bubbled], wellFormed, nelements, ?_⟩
    rw [kept, slots]
    exact (contents_move _ _ sifting.holeInside upInside (by omega)).trans
      (congrArg (contents · h.cbhNelements) unchanged)

end Operations

/-! ## The operations on a well-formed heap -/

section WellFormed

variable [DecidableEq ι] {compare : ι → ι → Bool} {h : CfsBinheap ι} {pageOf : PageRole → Nat} {e : ι}

omit [DecidableEq ι] in
theorem WellFormed.below (wellFormed : WellFormed compare h pageOf) {i : Nat} (inside : i < h.cbhNelements) :
    i < h.cbhHwm :=
  Nat.lt_of_lt_of_le inside wellFormed.within

omit [DecidableEq ι] in
/-- A node of a well-formed heap is in the slot its `chn_index` names. -/
theorem WellFormed.placed (wellFormed : WellFormed compare h pageOf) {i : Nat} (inside : i < h.cbhNelements)
    (atI : slotCell h i = .node e) : Placed h pageOf e := by
  have index := wellFormed.indexed.index_of_slot inside atI
  exact ⟨wellFormed.laid, wellFormed.within, wellFormed.indexed, by rwa [index], by rwa [index]⟩

/-- `cfs_binheap_relocate` of a node after its rank changed, from `compare` to
`compare'`, leaves a heap well formed for `compare'` with the same nodes. -/
theorem WellFormed.relocate {compare' : ι → ι → Bool} (preorder : TotalPreorder compare)
    (preorder' : TotalPreorder compare') (wellFormed : WellFormed compare h pageOf)
    (agree : ∀ a b, a ≠ e → b ≠ e → compare' a b = compare a b) {i : Nat} (inside : i < h.cbhNelements)
    (atI : slotCell h i = .node e) :
    ∃ h', cfsBinheapRelocate compare' h e = some h' ∧ WellFormed compare' h' pageOf ∧
      h'.cbhNelements = h.cbhNelements ∧
      contents (slotCell h') h.cbhNelements = contents (slotCell h) h.cbhNelements := by
  have := preorder.isTrans
  have placed := wellFormed.placed inside atI
  -- the nodes other than `e` keep their ranks among themselves
  have around : Around (CellRanks compare') (slotCell h) h.cbhNelements (h.chnIndex e) := by
    refine wellFormed.ordered.around_of_agree fun j k jInside kInside notJ notK => ?_
    obtain ⟨x, atJ, indexJ⟩ := wellFormed.indexed j jInside
    obtain ⟨y, atK, indexK⟩ := wellFormed.indexed k kInside
    have xNe : x ≠ e := fun same => notJ (by rw [← indexJ, same])
    have yNe : y ≠ e := fun same => notK (by rw [← indexK, same])
    rw [atJ, atK, cellRanks_node, cellRanks_node, agree x y xNe yNe]
  exact placed.relocate preorder' around

/-- `cfs_binheap_remove` of a node of a well-formed heap leaves a well-formed
heap of one node less, without that node. -/
theorem WellFormed.remove (preorder : TotalPreorder compare) (wellFormed : WellFormed compare h pageOf) {i : Nat}
    (inside : i < h.cbhNelements) (atI : slotCell h i = .node e) :
    ∃ h', cfsBinheapRemove compare h e = some h' ∧ WellFormed compare h' pageOf ∧
      h'.cbhNelements = h.cbhNelements - 1 ∧
      contents (slotCell h') h'.cbhNelements + {.node e} = contents (slotCell h) h.cbhNelements := by
  have := preorder.isTrans
  have laid := wellFormed.laid
  have index := wellFormed.indexed.index_of_slot inside atI
  obtain ⟨m, count⟩ : ∃ m, h.cbhNelements = m + 1 := ⟨h.cbhNelements - 1, by omega⟩
  have lastInside : m < h.cbhNelements := by omega
  obtain ⟨x, atLast, indexLast⟩ := wellFormed.indexed m lastInside
  -- the slot of `e` lies below the mark, far from `CBH_POISON`
  have guard : ¬(i = cbhPoison ∨ h.cbhNelements ≤ i) := by
    have bound := laid.bounded
    have := wellFormed.below inside
    have poison : cbhPoison = 3735928559 := rfl
    simp only [cbhSize_eq] at bound
    omega
  have lastIdx : h.cbhNelements - 1 = m := by omega
  unfold cfsBinheapRemove
  simp only [index, guard, if_false, laid.pointer_of_lt (wellFormed.below inside), lastIdx,
    laid.pointer_of_lt (wellFormed.below lastInside), ← laid.slotCell_of_lt (wellFormed.below inside),
    ← laid.slotCell_of_lt (wellFormed.below lastInside), atI, atLast, ne_eq, not_true_eq_false]
  by_cases last : x = e
  · -- `e` is the last node: the heap only shrinks
    rw [if_pos last]
    subst last
    have atEnd : i = m := wellFormed.indexed.injective inside lastInside (atI.trans atLast.symm)
    subst atEnd
    refine ⟨_, rfl, ⟨laid.setNelements _, ?_, fun j jInside => wellFormed.indexed j (by
      rw [setNelements_cbhNelements] at jInside; omega), wellFormed.ordered.mono (by rw [setNelements_cbhNelements]; omega)⟩,
      setNelements_cbhNelements _ _, ?_⟩
    · have := wellFormed.within
      rw [setNelements_cbhNelements, setNelements_cbhHwm]
      omega
    · rw [setNelements_cbhNelements, slotCell_setNelements, count, contents_succ, atLast]
  · -- the last node takes the slot of `e` and is relocated from there
    rw [if_neg last]
    have notLast : i ≠ m := fun same => last (by rw [same, atLast] at atI; exact Cell.node.inj atI)
    have laid₁ := (laid.setNelements m).setIndex x i
    set h₁ := ((h.setNelements m).setIndex x i).store (slotPtr pageOf i) (.node x) with hh₁
    have slots₁ : slotCell h₁ = Function.update (slotCell h) i (.node x) := by
      rw [hh₁, laid₁.slotCell_store (wellFormed.below inside), slotCell_setIndex, slotCell_setNelements]
    have nelements₁ : h₁.cbhNelements = m := by simp [hh₁]
    have hwm₁ : h₁.cbhHwm = h.cbhHwm := by simp [hh₁]
    have index₁ : h₁.chnIndex = Function.update h.chnIndex x i := by simp [hh₁]
    have indexed₁ : Indexed h₁ m := by
      intro j jInside
      rw [slots₁, index₁]
      rcases eq_or_ne j i with rfl | other
      · exact ⟨x, Function.update_self .., Function.update_self ..⟩
      · obtain ⟨y, atJ, indexJ⟩ := wellFormed.indexed j (by omega)
        have notX : y ≠ x := fun same => by rw [same, indexLast] at indexJ; omega
        exact ⟨y, by rw [Function.update_of_ne other, atJ], by rw [Function.update_of_ne notX, indexJ]⟩
    have placed₁ : Placed h₁ pageOf x :=
      ⟨laid₁.store_slot (wellFormed.below inside) _, by rw [nelements₁, hwm₁]; have := wellFormed.within; omega,
        by rw [nelements₁]; exact indexed₁, by rw [index₁, Function.update_self, nelements₁]; omega,
        by rw [index₁, Function.update_self, slots₁, Function.update_self]⟩
    have around₁ : Around (CellRanks compare) (slotCell h₁) h₁.cbhNelements (h₁.chnIndex x) := by
      rw [nelements₁, index₁, Function.update_self]
      exact (wellFormed.ordered.around i).of_agree (by omega)
        fun j _ other => by rw [slots₁, Function.update_of_ne other]
    obtain ⟨h₂, relocated, wellFormed₂, nelements₂, kept₂⟩ := placed₁.relocate preorder around₁
    rw [nelements₁] at kept₂
    -- `e` is in no slot of what the relocation leaves, so its poisoned index disturbs none
    have gone : ∀ j, j < m → slotCell h₂ j ≠ .node e := by
      intro j jInside atJ
      have member : Cell.node e ∈ contents (slotCell h₁) m := by
        rw [← kept₂]
        exact mem_contents.2 ⟨j, jInside, atJ⟩
      obtain ⟨k, kInside, atK⟩ := mem_contents.1 member
      rw [slots₁] at atK
      rcases eq_or_ne k i with rfl | other
      · rw [Function.update_self, Cell.node.injEq] at atK
        exact last atK
      · rw [Function.update_of_ne other] at atK
        exact other ((wellFormed.indexed.index_of_slot (by omega) atK).symm.trans index)
    refine ⟨h₂.setIndex e cbhPoison, by rw [relocated, Option.map_some], ⟨wellFormed₂.laid.setIndex _ _,
      wellFormed₂.within, fun j jInside => ?_, wellFormed₂.ordered⟩, by rw [setIndex_cbhNelements, nelements₂,
        nelements₁], ?_⟩
    · obtain ⟨y, atJ, indexJ⟩ := wellFormed₂.indexed j jInside
      have notE : y ≠ e := fun same => gone j
        (by rw [setIndex_cbhNelements, nelements₂, nelements₁] at jInside; exact jInside)
        (by rw [atJ, same])
      exact ⟨y, atJ, by rw [setIndex_chnIndex, Function.update_of_ne notE, indexJ]⟩
    · rw [setIndex_cbhNelements, slotCell_setIndex, nelements₂, nelements₁, kept₂, slots₁, count, ← atI, ← atLast]
      exact contents_replace_last _ (by omega)

omit [DecidableEq ι] in
/-- The grow at the start of `cfs_binheap_insert` leaves the heap as it was
with `-ENOMEM`, or a well-formed heap with the same nodes and a slot free for
one more. -/
theorem WellFormed.growStage (wellFormed : WellFormed compare h pageOf) (oom : List Bool) :
    ∃ rc h₁ pageOf₁, (if h.cbhNelements = h.cbhHwm then cfsBinheapGrow h oom else some (0, h)) = some (rc, h₁) ∧
      WellFormed compare h₁ pageOf₁ ∧ h₁.cbhNelements = h.cbhNelements ∧ h₁.chnIndex = h.chnIndex ∧
      (∀ i, i < h.cbhNelements → slotCell h₁ i = slotCell h i) ∧ (rc = 0 → h.cbhNelements < h₁.cbhHwm) := by
  by_cases full : h.cbhNelements = h.cbhHwm
  · rw [if_pos full]
    rcases wellFormed.laid.cfsBinheapGrow_cases oom with failed | ⟨h₁, pageOf₁, grew, grown⟩
    · exact ⟨_, h, pageOf, failed, wellFormed, rfl, rfl, fun _ _ => rfl, fun zero => absurd zero (by decide)⟩
    · have same : ∀ i, i < h.cbhNelements → slotCell h₁ i = slotCell h i :=
        fun i inside => grown.slotCell wellFormed.laid (wellFormed.below inside)
      refine ⟨0, h₁, pageOf₁, grew, ⟨grown.laid, ?_, ?_, ?_⟩, grown.nelements, grown.index, same, fun _ => ?_⟩
      · rw [grown.nelements, grown.hwm]
        omega
      · intro i inside
        rw [grown.nelements] at inside
        rw [same i inside, grown.index]
        exact wellFormed.indexed i inside
      · rw [grown.nelements]
        exact wellFormed.ordered.of_agree same
      · rw [grown.hwm, cbhSize_eq]
        omega
  · rw [if_neg full]
    exact ⟨0, h, pageOf, rfl, wellFormed, rfl, rfl, fun _ _ => rfl, fun _ => lt_of_le_of_ne wellFormed.within full⟩

/-- `cfs_binheap_insert` of a node that is not in a well-formed heap returns a
well-formed heap: with the node added when it returns 0, and with the nodes it
had otherwise. -/
theorem WellFormed.insert (preorder : TotalPreorder compare) (wellFormed : WellFormed compare h pageOf)
    (fresh : ∀ i, i < h.cbhNelements → slotCell h i ≠ .node e) (oom : List Bool) (enterRc : Int) :
    ∃ rc h', cfsBinheapInsert compare h e oom enterRc = some (rc, h') ∧ (∃ pageOf', WellFormed compare h' pageOf') ∧
      (rc = 0 → h'.cbhNelements = h.cbhNelements + 1 ∧
        contents (slotCell h') h'.cbhNelements = contents (slotCell h) h.cbhNelements + {.node e}) ∧
      (rc ≠ 0 → h'.cbhNelements = h.cbhNelements ∧
        contents (slotCell h') h'.cbhNelements = contents (slotCell h) h.cbhNelements) := by
  obtain ⟨rc, h₁, pageOf₁, grew, wellFormed₁, nelements₁, index₁, same, room⟩ := wellFormed.growStage oom
  have kept₁ : contents (slotCell h₁) h₁.cbhNelements = contents (slotCell h) h.cbhNelements := by
    rw [nelements₁]
    exact contents_congr same
  unfold cfsBinheapInsert
  simp only [grew]
  by_cases failed : rc ≠ 0
  · rw [if_pos failed]
    exact ⟨rc, h₁, rfl, ⟨pageOf₁, wellFormed₁⟩, fun zero => absurd zero failed, fun _ => ⟨nelements₁, kept₁⟩⟩
  rw [if_neg failed]
  by_cases refused : enterRc ≠ 0
  · rw [if_pos refused]
    exact ⟨enterRc, h₁, rfl, ⟨pageOf₁, wellFormed₁⟩, fun zero => absurd zero refused,
      fun _ => ⟨nelements₁, kept₁⟩⟩
  rw [if_neg refused]
  -- the node goes into a new last slot and bubbles up from there
  have below : h.cbhNelements < h₁.cbhHwm := room (not_not.1 failed)
  have laid₁ := (wellFormed₁.laid.setIndex e h.cbhNelements).setNelements (h.cbhNelements + 1)
  simp only [cfsBinheapPointer_setIndex, wellFormed₁.laid.pointer_of_lt below, setIndex_cbhNelements, nelements₁]
  set h₃ := ((h₁.setIndex e h.cbhNelements).setNelements (h.cbhNelements + 1)).store
    (slotPtr pageOf₁ h.cbhNelements) (.node e) with hh₃
  have slots₃ : slotCell h₃ = Function.update (slotCell h₁) h.cbhNelements (.node e) := by
    rw [hh₃, laid₁.slotCell_store below, slotCell_setNelements, slotCell_setIndex]
  have nelements₃ : h₃.cbhNelements = h.cbhNelements + 1 := by simp [hh₃]
  have index₃ : h₃.chnIndex = Function.update h₁.chnIndex e h.cbhNelements := by simp [hh₃]
  have indexed₃ : Indexed h₃ (h.cbhNelements + 1) := by
    intro j jInside
    rw [slots₃, index₃]
    rcases eq_or_ne j h.cbhNelements with rfl | other
    · exact ⟨e, Function.update_self .., Function.update_self ..⟩
    · have old : j < h.cbhNelements := by omega
      obtain ⟨y, atJ, indexJ⟩ := wellFormed₁.indexed j (by rw [nelements₁]; exact old)
      have notE : y ≠ e := fun isE => fresh j old (by rw [← same j old, atJ, isE])
      exact ⟨y, by rw [Function.update_of_ne other, atJ], by rw [Function.update_of_ne notE, indexJ]⟩
  have hwm₃ : h₃.cbhHwm = h₁.cbhHwm := by simp [hh₃]
  have placed₃ : Placed h₃ pageOf₁ e :=
    ⟨laid₁.store_slot below _, by rw [nelements₃, hwm₃]; omega, by rw [nelements₃]; exact indexed₃,
      by rw [index₃, Function.update_self, nelements₃]; omega,
      by rw [index₃, Function.update_self, slots₃, Function.update_self]⟩
  have ordered₁ := wellFormed₁.ordered
  rw [nelements₁] at ordered₁
  have order₃ : UpOrder (CellRanks compare) (slotCell h₃) h₃.cbhNelements (h₃.chnIndex e) (.node e) := by
    rw [nelements₃, index₃, Function.update_self, slots₃]
    exact (ordered₁.upOrder_last (.node e)).of_agree le_rfl fun j _ other => Function.update_of_ne other _ _
  obtain ⟨h₄, did, bubbled, wellFormed₄, nelements₄, kept₄⟩ := placed₃.bubble preorder order₃
  refine ⟨0, h₄, by rw [bubbled, Option.map_some], ⟨pageOf₁, wellFormed₄⟩,
    fun _ => ⟨by rw [nelements₄, nelements₃], ?_⟩, fun nonzero => absurd rfl nonzero⟩
  rw [nelements₄, kept₄, nelements₃, slots₃, contents_update_last, contents_congr same]

omit [DecidableEq ι] in
/-- `cfs_binheap_root` of a well-formed heap: NULL when it is empty, and
otherwise a node that ranks at or before every node of the heap. -/
theorem WellFormed.root (preorder : TotalPreorder compare) (wellFormed : WellFormed compare h pageOf) :
    (h.cbhNelements = 0 → cfsBinheapRoot h = some .null) ∧
      (0 < h.cbhNelements → ∃ r, cfsBinheapRoot h = some (.node r) ∧
        ∀ i, i < h.cbhNelements → ∀ x, slotCell h i = .node x → compare r x = true) := by
  have := preorder.isTrans
  have := preorder.isTotal
  refine ⟨fun empty => by rw [cfsBinheapRoot, cfsBinheapFind, if_pos (by omega)], fun nonempty => ?_⟩
  obtain ⟨r, atRoot, -⟩ := wellFormed.indexed 0 nonempty
  refine ⟨r, ?_, fun i inside x atI => ?_⟩
  · rw [cfsBinheapRoot, cfsBinheapFind, if_neg (by omega), wellFormed.laid.pointer_of_lt (wellFormed.below nonempty),
      Option.map_some, ← wellFormed.laid.slotCell_of_lt (wellFormed.below nonempty), atRoot]
  · have first := wellFormed.ordered.root i inside
    rwa [atRoot, atI, cellRanks_node] at first

end WellFormed

/-! ## The contract of the heap -/

/-- The heap `cfs_binheap_create` returns for a count of 0, in a memory with
no page handed out: no pages and no slots. -/
def cfsBinheapCreated (chnIndex : ι → Nat) : CfsBinheap ι :=
  ⟨none, none, none, 0, 0, fun _ _ => .null, 0, chnIndex⟩

/-- A heap just created is well formed for every `hop_compare`. -/
theorem wellFormed_cfsBinheapCreated (compare : ι → ι → Bool) (chnIndex : ι → Nat) (pageOf : PageRole → Nat) :
    WellFormed compare (cfsBinheapCreated chnIndex) pageOf := by
  -- no run is in use, so every part of the layout but the first two is vacuous
  have noRuns : (cfsBinheapCreated chnIndex).runs = 0 := by simp [CfsBinheap.runs, cfsBinheapCreated]
  have unused : ∀ a : PageRole, ¬ a.InUse (cfsBinheapCreated chnIndex).runs := by
    intro a
    rw [noRuns]
    cases a <;> simp
  refine ⟨⟨rfl, by simp [cfsBinheapCreated], by simp [CfsBinheap.runs, cfsBinheapCreated],
    by simp [CfsBinheap.runs, cfsBinheapCreated], by simp [CfsBinheap.runs, cfsBinheapCreated],
    fun used => absurd used (unused .double), fun used => absurd used (unused .triple),
    fun q used => absurd used (unused (.middle q)), fun a _ used => absurd used (unused a),
    fun a used => absurd used (unused a), fun _ _ _ => rfl⟩, le_rfl,
    fun i inside => absurd inside (Nat.not_lt_zero i), fun i _ inside => absurd inside (Nat.not_lt_zero i)⟩

section Contract

variable [DecidableEq ι] {compare : ι → ι → Bool} {h : CfsBinheap ι} {pageOf : PageRole → Nat}

/-- The contract of libcfs/heap.c for a `hop_compare` that is a total
preorder, from a well-formed heap: inserting a node that is not in the heap,
removing a node of it and relocating a node whose rank changed leave a
well-formed heap with the nodes they promise; the root ranks at or before
every node; the slots below the mark have distinct cells in pages handed
out, and a grow that returns 0 adds `CBH_SIZE` slots. -/
theorem cfsBinheap_wellFormed_contract (preorder : TotalPreorder compare)
    (wellFormed : WellFormed compare h pageOf) :
    (∀ e oom enterRc, (∀ i, i < h.cbhNelements → slotCell h i ≠ .node e) →
      ∃ rc h', cfsBinheapInsert compare h e oom enterRc = some (rc, h') ∧
        (rc = 0 → (∃ pageOf', WellFormed compare h' pageOf') ∧
          contents (slotCell h') h'.cbhNelements = contents (slotCell h) h.cbhNelements + {.node e})) ∧
    (∀ e i, i < h.cbhNelements → slotCell h i = .node e →
      ∃ h', cfsBinheapRemove compare h e = some h' ∧ WellFormed compare h' pageOf ∧
        contents (slotCell h') h'.cbhNelements + {.node e} = contents (slotCell h) h.cbhNelements) ∧
    (∀ e compare', TotalPreorder compare' → (∀ a b, a ≠ e → b ≠ e → compare' a b = compare a b) →
      ∀ i, i < h.cbhNelements → slotCell h i = .node e →
      ∃ h', cfsBinheapRelocate compare' h e = some h' ∧ WellFormed compare' h' pageOf ∧
        contents (slotCell h') h'.cbhNelements = contents (slotCell h) h.cbhNelements) ∧
    (0 < h.cbhNelements → ∃ r, cfsBinheapRoot h = some (.node r) ∧
      ∀ i, i < h.cbhNelements → ∀ x, slotCell h i = .node x → compare r x = true) ∧
    (∀ i j, i < h.cbhHwm → j < h.cbhHwm → i ≠ j → ∃ a b, cfsBinheapPointer h i = some a ∧
      cfsBinheapPointer h j = some b ∧ a ≠ b ∧ a.1 < h.cbhNext ∧ b.1 < h.cbhNext) ∧
    (∀ oom rc h', cfsBinheapGrow h oom = some (rc, h') → rc = 0 → h'.cbhHwm = h.cbhHwm + cbhSize) := by
  refine ⟨?insert, ?remove, ?relocate, wellFormed.root preorder |>.2, ?pointer, ?grow⟩
  case insert =>
    intro e oom enterRc fresh
    obtain ⟨rc, h', inserted, wellFormed', added, -⟩ := wellFormed.insert preorder fresh oom enterRc
    exact ⟨rc, h', inserted, fun zero => ⟨wellFormed', (added zero).2⟩⟩
  case remove =>
    intro e i inside atI
    obtain ⟨h', removed, wellFormed', -, kept⟩ := wellFormed.remove preorder inside atI
    exact ⟨h', removed, wellFormed', kept⟩
  case relocate =>
    intro e compare' preorder' agree i inside atI
    obtain ⟨h', relocated, wellFormed', nelements, kept⟩ := wellFormed.relocate preorder preorder' agree inside atI
    exact ⟨h', relocated, wellFormed', by rw [nelements, kept]⟩
  case pointer =>
    intro i j iInside jInside different
    exact wellFormed.laid.pointer_distinct iInside jInside different
  case grow =>
    intro oom rc h' grew zero
    exact (wellFormed.laid.cfsBinheapGrow_raises grew zero).1

end Contract

/-- `hop_compare` of nodes numbered by their rank. -/
def natRanks (a b : Nat) : Bool := decide (a ≤ b)

theorem natRanks_totalPreorder : TotalPreorder natRanks where
  total a b := by
    simp only [natRanks, decide_eq_true_eq]
    exact Nat.le_total a b
  trans a b c := by
    simp only [natRanks, decide_eq_true_eq]
    exact Nat.le_trans

theorem cfsBinheap_wellFormed_contract_created :
    TotalPreorder natRanks ∧ WellFormed natRanks (cfsBinheapCreated fun _ => 0) (fun _ => 0) ∧
      ∃ rc h', cfsBinheapInsert natRanks (cfsBinheapCreated fun _ => 0) 1 [] 0 = some (rc, h') ∧
        (rc = 0 → (∃ pageOf', WellFormed natRanks h' pageOf') ∧
          contents (slotCell h') h'.cbhNelements =
            contents (slotCell (cfsBinheapCreated fun _ => 0)) 0 + {.node 1}) :=
  ⟨natRanks_totalPreorder, wellFormed_cfsBinheapCreated _ _ _,
    (cfsBinheap_wellFormed_contract natRanks_totalPreorder
      (wellFormed_cfsBinheapCreated natRanks (fun _ => 0) (fun _ => 0))).1 1 [] 0
      fun i inside => absurd inside (Nat.not_lt_zero i)⟩

/-- Inserting a node that is already in a well-formed heap returns 0 and
leaves the node in two slots: after inserting 1 and 2 into a new heap,
inserting 2 again puts it in slot 2 beside slot 1. -/
theorem cfsBinheapInsert_duplicate_not_wellFormed :
    ∃ h pageOf, WellFormed natRanks h pageOf ∧ 1 < h.cbhNelements ∧ slotCell h 1 = .node 2 ∧
      ∃ h', cfsBinheapInsert natRanks h 2 [] 0 = some (0, h') ∧ ¬ ∃ pageOf', WellFormed natRanks h' pageOf' := by
  obtain ⟨rc₁, h₁, inserted₁, ⟨pageOf₁, wellFormed₁⟩, -, -⟩ :=
    (wellFormed_cfsBinheapCreated natRanks (fun _ => 0) (fun _ => 0)).insert natRanks_totalPreorder (e := 1)
      (fun i inside => absurd inside (Nat.not_lt_zero i)) [] 0
  have first : (cfsBinheapInsert natRanks (cfsBinheapCreated fun _ => 0) 1 [] 0).map
      (fun r => (slotCell r.2 0, r.2.cbhNelements)) = some (.node 1, 1) := by decide
  rw [inserted₁, Option.map_some, Option.some.injEq, Prod.mk.injEq] at first
  have fresh₂ : ∀ i, i < h₁.cbhNelements → slotCell h₁ i ≠ .node 2 := by
    intro i inside
    rw [first.2] at inside
    rw [show i = 0 by omega, first.1]
    decide
  obtain ⟨rc₂, h₂, inserted₂, ⟨pageOf₂, wellFormed₂⟩, -, -⟩ := wellFormed₁.insert natRanks_totalPreorder fresh₂ [] 0
  have second : ((cfsBinheapInsert natRanks (cfsBinheapCreated fun _ => 0) 1 [] 0).bind
      fun r => cfsBinheapInsert natRanks r.2 2 [] 0).map
      (fun r => (slotCell r.2 1, r.2.cbhNelements)) = some (.node 2, 2) := by decide
  rw [inserted₁, Option.bind_some, inserted₂, Option.map_some, Option.some.injEq, Prod.mk.injEq] at second
  have third : (((cfsBinheapInsert natRanks (cfsBinheapCreated fun _ => 0) 1 [] 0).bind
      fun r => cfsBinheapInsert natRanks r.2 2 [] 0).bind fun r => cfsBinheapInsert natRanks r.2 2 [] 0).map
      (fun r => (r.1, slotCell r.2 1, slotCell r.2 2, r.2.cbhNelements)) = some (0, .node 2, .node 2, 3) := by
    decide
  rw [inserted₁, Option.bind_some, inserted₂, Option.bind_some] at third
  obtain ⟨⟨rc₃, h₃⟩, inserted₃, ran⟩ := Option.map_eq_some_iff.1 third
  simp only [Prod.mk.injEq] at ran
  obtain ⟨zero, atOne, atTwo, count⟩ := ran
  refine ⟨h₂, pageOf₂, wellFormed₂, by rw [second.2]; omega, second.1, h₃, by rw [inserted₃, zero], ?_⟩
  rintro ⟨pageOf', wellFormed'⟩
  -- slots 1 and 2 both hold node 2, which cannot know both slots
  have same := wellFormed'.indexed.injective (i := 1) (j := 2) (by omega) (by omega) (atOne.trans atTwo.symm)
  omega

end Libcfs
end Lustre
