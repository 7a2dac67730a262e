import Lustre.Library.SearchTree

/-!
# Interval search

A search tree of closed intervals `[low x, high x]`, ordered by their low ends,
in which each subtree knows the largest high end it holds.  The search for the
intervals that meet `[lo, hi]` goes left past a node whose low end is above `hi`,
and gives up a subtree whose largest high end is below `lo`; it reports the
intervals that meet, node first, then the left and the right subtree.

`mem_intervalSearch` says the search is exact: on a tree whose low ends do not
decrease in order, it reports exactly the intervals of the tree that meet
`[lo, hi]`.  The largest high end is taken exact here; a bound above it only
makes the search look into subtrees where nothing meets, so it reports the same.
-/

namespace SearchTree

namespace Tree

variable {α : Type*} (low high : α → Nat)

/-- The largest high end in a tree, 0 for none. -/
def maxHigh : Tree α → Nat
  | leaf => 0
  | node left value right => max (high value) (max (maxHigh left) (maxHigh right))

/-- The intervals that meet `[lo, hi]`, in the order the search reports them. -/
def intervalSearch (lo hi : Nat) : Tree α → List α
  | leaf => []
  | node left value right =>
    if hi < low value then intervalSearch lo hi left
    else if lo ≤ max (high value) (max (maxHigh high left) (maxHigh high right)) then
      (if lo ≤ high value ∧ low value ≤ hi then [value] else []) ++
        intervalSearch lo hi left ++ intervalSearch lo hi right
    else []

/-- The low ends do not decrease in order. -/
def LowsSorted (t : Tree α) : Prop := t.toList.Pairwise fun a b => low a ≤ low b

variable {low high}

@[simp] theorem maxHigh_leaf : (leaf : Tree α).maxHigh high = 0 := rfl

theorem maxHigh_node (left : Tree α) (value : α) (right : Tree α) :
    (node left value right).maxHigh high =
      max (high value) (max (left.maxHigh high) (right.maxHigh high)) := rfl

@[simp] theorem intervalSearch_leaf (lo hi : Nat) :
    (leaf : Tree α).intervalSearch low high lo hi = [] := rfl

/-- One node of the search: left only when the node starts above `hi`, and
nothing when every high end below it is under `lo`. -/
theorem intervalSearch_node (lo hi : Nat) (left : Tree α) (value : α) (right : Tree α) :
    (node left value right).intervalSearch low high lo hi =
      if hi < low value then left.intervalSearch low high lo hi
      else if lo ≤ max (high value) (max (left.maxHigh high) (right.maxHigh high)) then
        (if lo ≤ high value ∧ low value ≤ hi then [value] else []) ++
          left.intervalSearch low high lo hi ++ right.intervalSearch low high lo hi
      else [] := rfl

theorem le_maxHigh {t : Tree α} {x : α} (mem : x ∈ t.toList) : high x ≤ t.maxHigh high := by
  induction t with
  | leaf => cases mem
  | node left value right ihLeft ihRight =>
    simp only [toList_node, List.mem_append, List.mem_cons] at mem
    rw [maxHigh_node]
    rcases mem with inLeft | rfl | inRight
    · have := ihLeft inLeft
      omega
    · omega
    · have := ihRight inRight
      omega

theorem lowsSorted_node_iff {left right : Tree α} {value : α} :
    LowsSorted low (node left value right) ↔ LowsSorted low left ∧ LowsSorted low right ∧
      (∀ y ∈ left.toList, low y ≤ low value) ∧ (∀ y ∈ right.toList, low value ≤ low y) ∧
      (∀ y ∈ left.toList, ∀ z ∈ right.toList, low y ≤ low z) := by
  simp only [LowsSorted, toList_node, List.pairwise_append, List.pairwise_cons, List.mem_cons]
  constructor
  · rintro ⟨sortedLeft, ⟨above, sortedRight⟩, across⟩
    exact ⟨sortedLeft, sortedRight, fun y mem => across y mem value (.inl rfl), above,
      fun y memY z memZ => across y memY z (.inr memZ)⟩
  · rintro ⟨sortedLeft, sortedRight, below, above, across⟩
    refine ⟨sortedLeft, ⟨above, sortedRight⟩, ?_⟩
    rintro y memY z (rfl | memZ)
    · exact below y memY
    · exact across y memY z memZ

/-- The search reports exactly the intervals that meet `[lo, hi]`. -/
theorem mem_intervalSearch {t : Tree α} (sorted : LowsSorted low t) {lo hi : Nat} {x : α} :
    x ∈ t.intervalSearch low high lo hi ↔ x ∈ t.toList ∧ lo ≤ high x ∧ low x ≤ hi := by
  induction t with
  | leaf => simp
  | node left value right ihLeft ihRight =>
    obtain ⟨sortedLeft, sortedRight, -, above, -⟩ := lowsSorted_node_iff.mp sorted
    rw [intervalSearch_node]
    split
    · -- everything from the node on starts above `hi`
      next past =>
      rw [ihLeft sortedLeft]
      simp only [toList_node, List.mem_append, List.mem_cons]
      constructor
      · rintro ⟨mem, meets⟩
        exact ⟨.inl mem, meets⟩
      · rintro ⟨inLeft | rfl | inRight, lower, upper⟩
        · exact ⟨inLeft, lower, upper⟩
        · omega
        · have := above x inRight
          omega
    · split
      · simp only [List.mem_append, ihLeft sortedLeft, ihRight sortedRight, toList_node,
          List.mem_cons]
        constructor
        · rintro ((reported | ⟨mem, meets⟩) | ⟨mem, meets⟩)
          · split at reported
            · simp only [List.mem_singleton] at reported
              subst reported
              exact ⟨.inr (.inl rfl), ‹_›⟩
            · cases reported
          · exact ⟨.inl mem, meets⟩
          · exact ⟨.inr (.inr mem), meets⟩
        · rintro ⟨inLeft | rfl | inRight, meets⟩
          · exact .inl (.inr ⟨inLeft, meets⟩)
          · exact .inl (.inl (by simp [meets]))
          · exact .inr ⟨inRight, meets⟩
      · -- every high end in the subtree is below `lo`
        next below =>
        simp only [List.not_mem_nil, false_iff, not_and]
        intro mem lower
        have bounded : high x ≤ (node left value right).maxHigh high := le_maxHigh mem
        rw [maxHigh_node] at bounded
        omega

/-- The search reports only intervals of the tree. -/
theorem mem_toList_of_mem_intervalSearch {t : Tree α} {lo hi : Nat} {x : α}
    (reported : x ∈ t.intervalSearch low high lo hi) : x ∈ t.toList := by
  induction t with
  | leaf => cases reported
  | node left value right ihLeft ihRight =>
    rw [intervalSearch_node] at reported
    simp only [toList_node, List.mem_append, List.mem_cons]
    split at reported
    · exact .inl (ihLeft reported)
    · split at reported
      · simp only [List.mem_append] at reported
        rcases reported with (here | inLeft) | inRight
        · split at here
          · exact .inr (.inl (List.mem_singleton.mp here))
          · cases here
        · exact .inl (ihLeft inLeft)
        · exact .inr (.inr (ihRight inRight))
      · cases reported

/-- On a tree that holds no interval twice, the search reports each at most once. -/
theorem nodup_intervalSearch {t : Tree α} (distinct : t.toList.Nodup) (lo hi : Nat) :
    (t.intervalSearch low high lo hi).Nodup := by
  induction t with
  | leaf => exact List.nodup_nil
  | node left value right ihLeft ihRight =>
    simp only [toList_node, List.nodup_append, List.nodup_cons, List.mem_cons] at distinct
    obtain ⟨distinctLeft, ⟨valueNotRight, distinctRight⟩, across⟩ := distinct
    rw [intervalSearch_node]
    split
    · exact ihLeft distinctLeft
    · split
      · -- the node, then the left and the right subtree, which share nothing
        have valueNotLeft : value ∉ left.toList := fun mem => across value mem value (.inl rfl) rfl
        have here : (if lo ≤ high value ∧ low value ≤ hi then [value] else []).Nodup := by
          split <;> simp
        refine List.nodup_append.mpr ⟨List.nodup_append.mpr ⟨here, ihLeft distinctLeft, ?_⟩,
          ihRight distinctRight, ?_⟩
        · intro a inHere b inLeft same
          split at inHere
          · obtain rfl : a = value := List.mem_singleton.mp inHere
            subst same
            exact valueNotLeft (mem_toList_of_mem_intervalSearch inLeft)
          · cases inHere
        · intro a inFirst b inRight same
          have bInRight := mem_toList_of_mem_intervalSearch inRight
          rcases List.mem_append.mp inFirst with inHere | inLeft
          · split at inHere
            · rw [List.mem_singleton.mp inHere] at same
              exact valueNotRight (same ▸ bInRight)
            · cases inHere
          · exact across a (mem_toList_of_mem_intervalSearch inLeft) b (.inr bInRight) same
      · exact List.nodup_nil

end Tree

end SearchTree
