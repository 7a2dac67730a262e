import Mathlib

/-!
# Binary search trees

A binary tree whose nodes hold values with a key, searched by descending from
the root: left on a smaller key, right on a greater one.  The operations are
those of an intrusive tree whose nodes stay where they are put: `search`
descends to a key, `link` hangs a new node on the leaf where the descent for its
key ends, `replace` puts a new node where an old one was, and `erase` takes a
node out, a child or the successor taking its place.  Rebalancing is not
modelled: a rotation keeps the in-order sequence `toList`, and every statement
here is about that sequence.

A tree is `Ordered` when the keys increase strictly along `toList`.  `search`
only ever finds a value of the key it looks for; on an ordered tree it finds
every one.  `link` of a missing key, `replace` by a value of the same key and
`erase` keep a tree ordered.
-/

namespace SearchTree

/-- A binary tree. -/
inductive Tree (α : Type*) where
  | leaf
  | node (left : Tree α) (value : α) (right : Tree α)
  deriving DecidableEq

variable {α κ : Type*}

namespace Tree

/-- The values in order: the left subtree, the node, the right subtree. -/
def toList : Tree α → List α
  | leaf => []
  | node left value right => left.toList ++ value :: right.toList

@[simp] theorem toList_leaf : (leaf : Tree α).toList = [] := rfl

@[simp] theorem toList_node (left : Tree α) (value : α) (right : Tree α) :
    (node left value right).toList = left.toList ++ value :: right.toList := rfl

/-- Put `y` in place of every node that `p` picks. -/
def replace (p : α → Bool) (y : α) : Tree α → Tree α
  | leaf => leaf
  | node left value right =>
    node (replace p y left) (if p value then y else value) (replace p y right)

theorem replace_node (p : α → Bool) (y : α) (left : Tree α) (value : α) (right : Tree α) :
    (node left value right).replace p y =
      node (left.replace p y) (if p value then y else value) (right.replace p y) := rfl

/-- The leftmost value, and the tree without it. -/
def popMin : Tree α → Option (α × Tree α)
  | leaf => none
  | node left value right =>
    match popMin left with
    | none => some (value, right)
    | some (least, rest) => some (least, node rest value right)

theorem popMin_node_of_none {left : Tree α} (leftEmpty : left.popMin = none) (value : α)
    (right : Tree α) : (node left value right).popMin = some (value, right) := by
  show (match left.popMin with
    | none => some (value, right)
    | some (least, rest) => some (least, node rest value right)) = _
  rw [leftEmpty]

theorem popMin_node_of_some {left rest : Tree α} {least : α}
    (leftPopped : left.popMin = some (least, rest)) (value : α) (right : Tree α) :
    (node left value right).popMin = some (least, node rest value right) := by
  show (match left.popMin with
    | none => some (value, right)
    | some (least, rest) => some (least, node rest value right)) = _
  rw [leftPopped]

/-- What takes the place of a node taken out: its only child, or the least
value of its right subtree. -/
def join : Tree α → Tree α → Tree α
  | leaf, right => right
  | left, leaf => left
  | left, right@(node _ _ _) =>
    match popMin right with
    | none => left
    | some (least, rest) => node left least rest

/-- Take out the nodes that `p` picks. -/
def erase (p : α → Bool) : Tree α → Tree α
  | leaf => leaf
  | node left value right =>
    if p value then join (erase p left) (erase p right)
    else node (erase p left) value (erase p right)

theorem erase_node (p : α → Bool) (left : Tree α) (value : α) (right : Tree α) :
    (node left value right).erase p =
      if p value then join (left.erase p) (right.erase p)
      else node (left.erase p) value (right.erase p) := rfl

theorem toList_replace (p : α → Bool) (y : α) (t : Tree α) :
    (t.replace p y).toList = t.toList.map fun x => if p x then y else x := by
  induction t with
  | leaf => rfl
  | node left value right ihLeft ihRight => simp [replace_node, ihLeft, ihRight]

theorem popMin_node (left : Tree α) (value : α) (right : Tree α) :
    ∃ least rest, (node left value right).popMin = some (least, rest) := by
  cases leftPopped : left.popMin with
  | none => exact ⟨_, _, popMin_node_of_none leftPopped value right⟩
  | some found => exact ⟨_, _, popMin_node_of_some leftPopped value right⟩

theorem toList_of_popMin {t rest : Tree α} {least : α} (popped : t.popMin = some (least, rest)) :
    t.toList = least :: rest.toList := by
  induction t generalizing least rest with
  | leaf => cases popped
  | node left value right ihLeft _ =>
    cases leftPopped : left.popMin with
    | none =>
      rw [popMin_node_of_none leftPopped] at popped
      cases popped
      cases left with
      | leaf => rfl
      | node _ _ _ =>
        obtain ⟨_, _, popped'⟩ := popMin_node _ _ _
        rw [popped'] at leftPopped
        cases leftPopped
    | some found =>
      obtain ⟨least', rest'⟩ := found
      rw [popMin_node_of_some leftPopped] at popped
      cases popped
      simp [ihLeft leftPopped]

theorem toList_join (left right : Tree α) : (join left right).toList = left.toList ++ right.toList := by
  cases right with
  | leaf => cases left <;> simp [join]
  | node rLeft rValue rRight =>
    obtain ⟨least, rest, popped⟩ := popMin_node rLeft rValue rRight
    cases left with
    | leaf => simp [join]
    | node _ _ _ => simp [join, popped, toList_of_popMin popped]

theorem toList_erase (p : α → Bool) (t : Tree α) :
    (t.erase p).toList = t.toList.filter fun x => !p x := by
  induction t with
  | leaf => rfl
  | node left value right ihLeft ihRight =>
    by_cases picked : p value
    · simp [erase_node, picked, toList_join, ihLeft, ihRight, List.filter_append]
    · simp [erase_node, picked, ihLeft, ihRight, List.filter_append]

section Keyed

variable [LinearOrder κ] (key : α → κ)

/-- Descend from the root to a node of key `k`. -/
def search (k : κ) : Tree α → Option α
  | leaf => none
  | node left value right =>
    if k < key value then search k left
    else if key value < k then search k right
    else some value

theorem search_node (k : κ) (left : Tree α) (value : α) (right : Tree α) :
    (node left value right).search key k =
      if k < key value then left.search key k
      else if key value < k then right.search key k
      else some value := rfl

/-- Hang `x` on the leaf where the descent for its key ends. -/
def link (x : α) : Tree α → Tree α
  | leaf => node leaf x leaf
  | node left value right =>
    if key x < key value then node (link x left) value right
    else node left value (link x right)

theorem link_leaf (x : α) : (leaf : Tree α).link key x = node leaf x leaf := rfl

theorem link_node (x : α) (left : Tree α) (value : α) (right : Tree α) :
    (node left value right).link key x =
      if key x < key value then node (left.link key x) value right
      else node left value (right.link key x) := rfl

/-- The keys increase strictly in order. -/
def Ordered (t : Tree α) : Prop := t.toList.Pairwise fun a b => key a < key b

theorem ordered_iff (t : Tree α) : Ordered key t ↔ t.toList.Pairwise fun a b => key a < key b :=
  Iff.rfl

instance (t : Tree α) : Decidable (Ordered key t) :=
  inferInstanceAs (Decidable (t.toList.Pairwise _))

variable {key}

theorem toList_link_perm (x : α) (t : Tree α) : (t.link key x).toList.Perm (x :: t.toList) := by
  induction t with
  | leaf => rfl
  | node left value right ihLeft ihRight =>
    rw [link_node]
    split
    · simpa using ihLeft.append_right (value :: right.toList)
    · rw [toList_node, toList_node]
      refine (List.Perm.append_left left.toList (ihRight.cons value)).trans ?_
      rw [show left.toList ++ value :: x :: right.toList =
        (left.toList ++ [value]) ++ x :: right.toList by simp]
      refine List.perm_middle.trans ?_
      simp

theorem mem_link {x y : α} {t : Tree α} : y ∈ (t.link key x).toList ↔ y = x ∨ y ∈ t.toList := by
  rw [(toList_link_perm x t).mem_iff, List.mem_cons]

/-- What `search` finds is in the tree and has the key looked for. -/
theorem search_spec {k : κ} {t : Tree α} {y : α} (found : t.search key k = some y) :
    y ∈ t.toList ∧ key y = k := by
  induction t with
  | leaf => cases found
  | node left value right ihLeft ihRight =>
    rw [search_node] at found
    split at found
    · exact ⟨by simp [(ihLeft found).1], (ihLeft found).2⟩
    · split at found
      · exact ⟨by simp [(ihRight found).1], (ihRight found).2⟩
      · cases found
        exact ⟨by simp, le_antisymm (not_lt.mp ‹_›) (not_lt.mp ‹_›)⟩

/-- `search` misses a key no value has. -/
theorem search_eq_none {k : κ} {t : Tree α} (missing : ∀ y ∈ t.toList, key y ≠ k) :
    t.search key k = none := by
  cases found : t.search key k with
  | none => rfl
  | some y =>
    obtain ⟨present, hasKey⟩ := search_spec found
    exact absurd hasKey (missing y present)

theorem ordered_node_iff {left right : Tree α} {value : α} :
    Ordered key (node left value right) ↔ Ordered key left ∧ Ordered key right ∧
      (∀ y ∈ left.toList, key y < key value) ∧ (∀ y ∈ right.toList, key value < key y) := by
  simp only [ordered_iff, toList_node, List.pairwise_append, List.pairwise_cons, List.mem_cons]
  constructor
  · rintro ⟨orderedLeft, ⟨below, orderedRight⟩, across⟩
    exact ⟨orderedLeft, orderedRight, fun y mem => across y mem value (.inl rfl), below⟩
  · rintro ⟨orderedLeft, orderedRight, below, above⟩
    refine ⟨orderedLeft, ⟨above, orderedRight⟩, ?_⟩
    rintro a memA b (rfl | memB)
    · exact below a memA
    · exact (below a memA).trans (above b memB)

/-- An ordered tree holds one value of each key. -/
theorem Ordered.eq_of_key_eq {t : Tree α} (ordered : Ordered key t) {x y : α} (memX : x ∈ t.toList)
    (memY : y ∈ t.toList) (sameKey : key x = key y) : x = y := by
  have distinct : (t.toList.map key).Nodup := by
    rw [ordered_iff] at ordered
    rw [List.Nodup, List.pairwise_map]
    exact ordered.imp ne_of_lt
  exact List.inj_on_of_nodup_map distinct memX memY sameKey

/-- On an ordered tree `search` finds every value by its key. -/
theorem Ordered.search_of_mem {t : Tree α} (ordered : Ordered key t) {y : α} (present : y ∈ t.toList) :
    t.search key (key y) = some y := by
  induction t with
  | leaf => cases present
  | node left value right ihLeft ihRight =>
    obtain ⟨orderedLeft, orderedRight, below, above⟩ := ordered_node_iff.mp ordered
    simp only [toList_node, List.mem_append, List.mem_cons] at present
    rcases present with inLeft | rfl | inRight
    · simp [search_node, below y inLeft, ihLeft orderedLeft inLeft]
    · simp [search_node]
    · simp [search_node, not_lt.mpr (above y inRight).le, above y inRight, ihRight orderedRight inRight]

/-- `link` of a key the tree does not have keeps it ordered. -/
theorem Ordered.link {t : Tree α} (ordered : Ordered key t) {x : α}
    (fresh : ∀ y ∈ t.toList, key y ≠ key x) : Ordered key (t.link key x) := by
  induction t with
  | leaf => simp [link_leaf, ordered_iff]
  | node left value right ihLeft ihRight =>
    obtain ⟨orderedLeft, orderedRight, below, above⟩ := ordered_node_iff.mp ordered
    have freshLeft : ∀ y ∈ left.toList, key y ≠ key x := fun y mem => fresh y (by simp [mem])
    have freshRight : ∀ y ∈ right.toList, key y ≠ key x := fun y mem => fresh y (by simp [mem])
    rw [link_node]
    split
    · next smaller =>
      refine ordered_node_iff.mpr ⟨ihLeft orderedLeft freshLeft, orderedRight, ?_, above⟩
      intro y mem
      rcases mem_link.mp mem with rfl | inLeft
      · exact smaller
      · exact below y inLeft
    · next notSmaller =>
      have larger : key value < key x :=
        lt_of_le_of_ne (not_lt.mp notSmaller) (fresh value (by simp))
      refine ordered_node_iff.mpr ⟨orderedLeft, ihRight orderedRight freshRight, below, ?_⟩
      intro y mem
      rcases mem_link.mp mem with rfl | inRight
      · exact larger
      · exact above y inRight

/-- Putting values of the same key in place of nodes keeps a tree ordered. -/
theorem Ordered.replace {t : Tree α} (ordered : Ordered key t) {p : α → Bool} {y : α}
    (sameKey : ∀ z ∈ t.toList, p z → key z = key y) : Ordered key (t.replace p y) := by
  rw [ordered_iff] at ordered ⊢
  rw [toList_replace, List.pairwise_map]
  refine ordered.imp_of_mem fun {a b} memA memB less => ?_
  have keyOf : ∀ z ∈ t.toList, key (if p z then y else z) = key z := by
    intro z mem
    split
    · exact (sameKey z mem ‹_›).symm
    · rfl
  rw [keyOf a memA, keyOf b memB]
  exact less

/-- Taking nodes out keeps a tree ordered. -/
theorem Ordered.erase {t : Tree α} (ordered : Ordered key t) (p : α → Bool) :
    Ordered key (t.erase p) := by
  rw [ordered_iff] at ordered ⊢
  rw [toList_erase]
  exact ordered.sublist List.filter_sublist

end Keyed

end Tree

end SearchTree
