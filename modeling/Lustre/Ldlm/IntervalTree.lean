import Lustre.Library.IntervalTree
import Lustre.Library.Loop
import Mathlib.Data.Prod.Lex
import Mathlib.Data.Finset.Max

/-!
# Interval trees (ldlm/interval_tree.c)

The granted extent locks of a resource are indexed by red-black interval
trees: each node holds an extent, the nodes are ordered by `extent_compare`
(start first, then end), and each node keeps the largest end in its subtree,
`in_max_high`.  A tree is a `SearchTree.Tree` of nodes.  The parent links of
the C nodes are the way back up from a subtree, a list of `Frame`s: following
`in_parent` from a node and going back down always gives the tree it came
from (`plug`).

`interval_search` is the recursive pruned search of its comment, written as a
loop that goes down the tree and then climbs back up the parent links.  Its
model runs that loop for as many rounds as the tree has nodes.
`intervalSearch_eq_callEach` says that on a tree whose starts do not decrease
in order, the loop calls the callback on the nodes that the recursive search
visits (`searchOrder`), in the same order, until the callback says stop; on an
ordered tree with exact `in_max_high`, `searchOrder` holds every node that
meets the extent, once.  `interval_expand` grows an extent that meets no node
as far as the tree lets it: its start down to 0 only in an empty tree, its end
up to just below the nearest start above it.
-/

namespace Lustre.Ldlm

open SearchTree

/-! ## Nodes -/

/-- struct interval_node_extent: the closed range from `start` to `stop` (its `end`). -/
structure IntervalNodeExtent where
  start : UInt64
  stop : UInt64
  deriving DecidableEq, Repr

/-- INTERVAL_RED and INTERVAL_BLACK -/
inductive IntervalColor
  | red
  | black
  deriving DecidableEq, Repr

/-- struct interval_node: its colour, its extent and the largest end in its
subtree; its links are those of the tree it is in. -/
structure IntervalNode where
  inColor : IntervalColor
  inExtent : IntervalNodeExtent
  inMaxHigh : UInt64
  deriving DecidableEq, Repr

namespace IntervalNode

/-- interval_low -/
def intervalLow (node : IntervalNode) : UInt64 := node.inExtent.start

/-- interval_high -/
def intervalHigh (node : IntervalNode) : UInt64 := node.inExtent.stop

/-- The order of the tree, extent_compare's: by start, then by end. -/
def key (node : IntervalNode) : Lex (Nat × Nat) :=
  toLex (node.intervalLow.toNat, node.intervalHigh.toNat)

theorem intervalLow_le_of_key_lt {a b : IntervalNode} (less : a.key < b.key) :
    a.intervalLow.toNat ≤ b.intervalLow.toNat := by
  rcases Prod.Lex.toLex_lt_toLex.mp less with lower | ⟨same, _⟩
  · exact Nat.le_of_lt lower
  · exact Nat.le_of_eq same

end IntervalNode

open IntervalNode

/-- max_u64 -/
def maxU64 (x y : UInt64) : UInt64 := if x > y then x else y

/-- min_u64 -/
def minU64 (x y : UInt64) : UInt64 := if x < y then x else y

/-- extent_compare -/
def extentCompare (e1 e2 : IntervalNodeExtent) : Int :=
  if e1.start = e2.start then
    if e1.stop < e2.stop then -1 else if e1.stop > e2.stop then 1 else 0
  else if e1.start < e2.start then -1 else 1

/-- extent_overlapped -/
def extentOverlapped (e1 e2 : IntervalNodeExtent) : Bool :=
  e1.start ≤ e2.stop && e2.start ≤ e1.stop

/-- interval_may_overlap: the subtree of `node` may hold an extent that meets `ext`. -/
def intervalMayOverlap (node : IntervalNode) (ext : IntervalNodeExtent) : Bool :=
  ext.start ≤ node.inMaxHigh && ext.stop ≥ node.intervalLow

theorem extentOverlapped_eq_true {e1 e2 : IntervalNodeExtent} :
    extentOverlapped e1 e2 = true ↔ e1.start ≤ e2.stop ∧ e2.start ≤ e1.stop := by
  simp [extentOverlapped]

/-! ## The tree and the way up from a subtree -/

/-- Where a subtree hangs: it is the left child of `parent`, whose right
subtree is `sibling`, or its right child, with `sibling` on the left. -/
inductive Frame
  | leftOf (parent : IntervalNode) (sibling : SearchTree.Tree IntervalNode)
  | rightOf (sibling : SearchTree.Tree IntervalNode) (parent : IntervalNode)
  deriving DecidableEq

/-- The tree a subtree is part of: going up the parent links from its head
and back down. -/
def plug : SearchTree.Tree IntervalNode → List Frame → SearchTree.Tree IntervalNode
  | t, [] => t
  | t, .leftOf parent sibling :: up => plug (.node t parent sibling) up
  | t, .rightOf sibling parent :: up => plug (.node sibling parent t) up

/-- The nodes before a subtree in order, on the way up. -/
def before : List Frame → List IntervalNode
  | [] => []
  | .leftOf _ _ :: up => before up
  | .rightOf sibling parent :: up => before up ++ sibling.toList ++ [parent]

/-- The nodes after a subtree in order, on the way up. -/
def after : List Frame → List IntervalNode
  | [] => []
  | .leftOf parent sibling :: up => parent :: sibling.toList ++ after up
  | .rightOf _ _ :: up => after up

section Frames

variable (t : SearchTree.Tree IntervalNode) (parent : IntervalNode)
  (sibling : SearchTree.Tree IntervalNode) (up : List Frame)

theorem plug_nil : plug t [] = t := rfl

theorem plug_leftOf : plug t (.leftOf parent sibling :: up) = plug (.node t parent sibling) up := rfl

theorem plug_rightOf : plug t (.rightOf sibling parent :: up) = plug (.node sibling parent t) up :=
  rfl

theorem before_nil : before [] = [] := rfl

theorem before_leftOf : before (.leftOf parent sibling :: up) = before up := rfl

theorem before_rightOf :
    before (.rightOf sibling parent :: up) = before up ++ sibling.toList ++ [parent] := rfl

theorem after_nil : after [] = [] := rfl

theorem after_leftOf :
    after (.leftOf parent sibling :: up) = parent :: sibling.toList ++ after up := rfl

theorem after_rightOf : after (.rightOf sibling parent :: up) = after up := rfl

end Frames

theorem toList_plug (t : SearchTree.Tree IntervalNode) (up : List Frame) :
    (plug t up).toList = before up ++ t.toList ++ after up := by
  induction up generalizing t with
  | nil => simp [plug_nil, before_nil, after_nil]
  | cons frame up ih =>
    cases frame with
    | leftOf parent sibling => simp [plug_leftOf, before_leftOf, after_leftOf, ih]
    | rightOf sibling parent => simp [plug_rightOf, before_rightOf, after_rightOf, ih]

/-- In a tree whose starts do not decrease in order, what comes after a
subtree starts no lower than anything in it. -/
theorem le_of_mem_after {t : SearchTree.Tree IntervalNode} {up : List Frame}
    (sorted : Tree.LowsSorted (fun n => n.intervalLow.toNat) (plug t up))
    {x m : IntervalNode} (inside : x ∈ t.toList) (later : m ∈ after up) :
    x.intervalLow.toNat ≤ m.intervalLow.toNat := by
  rw [Tree.LowsSorted, toList_plug, List.pairwise_append] at sorted
  exact sorted.2.2 x (List.mem_append_right _ inside) m later

/-! ## interval_search -/

/-- enum interval_iter: what a callback tells the search. -/
inductive IntervalIter
  | cont
  | stop
  deriving DecidableEq, Repr

/-- The nodes that the recursive search of interval_search's comment passes to
the callback, in order. -/
def searchOrder (ext : IntervalNodeExtent) : SearchTree.Tree IntervalNode → List IntervalNode
  | .leaf => []
  | .node left n right =>
    if ext.stop < n.intervalLow then searchOrder ext left
    else if intervalMayOverlap n ext then
      (if extentOverlapped ext n.inExtent then [n] else []) ++ searchOrder ext left ++
        searchOrder ext right
    else []

theorem searchOrder_leaf (ext : IntervalNodeExtent) : searchOrder ext .leaf = [] := rfl

theorem searchOrder_node (ext : IntervalNodeExtent) (left : SearchTree.Tree IntervalNode)
    (n : IntervalNode) (right : SearchTree.Tree IntervalNode) :
    searchOrder ext (.node left n right) =
      if ext.stop < n.intervalLow then searchOrder ext left
      else if intervalMayOverlap n ext then
        (if extentOverlapped ext n.inExtent then [n] else []) ++ searchOrder ext left ++
          searchOrder ext right
      else [] := rfl

/-- The climb of interval_search once a subtree is done: up the parent links
while the node is a right child or its parent has no right child.  The parent
that has one is returned with that right child, where the search goes on. -/
def climb : SearchTree.Tree IntervalNode → List Frame →
    Option (SearchTree.Tree IntervalNode × IntervalNode × List Frame)
  | _, [] => none
  | t, .leftOf parent .leaf :: up => climb (.node t parent .leaf) up
  | t, .leftOf parent (.node left value right) :: up =>
    some (.node left value right, parent, .rightOf t parent :: up)
  | t, .rightOf sibling parent :: up => climb (.node sibling parent t) up

/-- The nodes the recursive search still passes to the callback after a subtree. -/
def pathOrder (ext : IntervalNodeExtent) : List Frame → List IntervalNode
  | [] => []
  | .leftOf _ .leaf :: up => pathOrder ext up
  | .leftOf parent (.node left value right) :: up =>
    if intervalMayOverlap parent ext then
      searchOrder ext (.node left value right) ++ pathOrder ext up
    else []
  | .rightOf _ _ :: up => pathOrder ext up

section Frames

variable (ext : IntervalNodeExtent) (parent : IntervalNode) (sibling : SearchTree.Tree IntervalNode)
  (up : List Frame)

theorem pathOrder_nil : pathOrder ext [] = [] := rfl

theorem pathOrder_leftOf_leaf : pathOrder ext (.leftOf parent .leaf :: up) = pathOrder ext up := rfl

theorem pathOrder_leftOf_node (left : SearchTree.Tree IntervalNode) (value : IntervalNode)
    (right : SearchTree.Tree IntervalNode) :
    pathOrder ext (.leftOf parent (.node left value right) :: up) =
      if intervalMayOverlap parent ext then
        searchOrder ext (.node left value right) ++ pathOrder ext up
      else [] := rfl

theorem pathOrder_rightOf : pathOrder ext (.rightOf sibling parent :: up) = pathOrder ext up := rfl

end Frames

/-- The right subtrees on the way up that the loop has not entered yet. -/
def pending : List Frame → Nat
  | [] => 0
  | .leftOf _ sibling :: up => sibling.toList.length + pending up
  | .rightOf _ _ :: up => pending up

section Frames

variable (parent : IntervalNode) (sibling : SearchTree.Tree IntervalNode) (up : List Frame)

theorem pending_nil : pending [] = 0 := rfl

theorem pending_leftOf : pending (.leftOf parent sibling :: up) = sibling.toList.length + pending up :=
  rfl

theorem pending_rightOf : pending (.rightOf sibling parent :: up) = pending up := rfl

end Frames

variable {δ : Type}

/-- Calling the callback on a list of nodes in turn, until it says stop. -/
def callEach (func : IntervalNode → δ → IntervalIter × δ) :
    List IntervalNode → δ → IntervalIter × δ
  | [], data => (.cont, data)
  | n :: rest, data =>
    match func n data with
    | (.stop, data) => (.stop, data)
    | (.cont, data) => callEach func rest data

theorem callEach_nil (func : IntervalNode → δ → IntervalIter × δ) (data : δ) :
    callEach func [] data = (.cont, data) := rfl

theorem callEach_cons (func : IntervalNode → δ → IntervalIter × δ) (n : IntervalNode)
    (rest : List IntervalNode) (data : δ) :
    callEach func (n :: rest) data =
      match func n data with
      | (.stop, data) => (.stop, data)
      | (.cont, data) => callEach func rest data := rfl

/-- The end of a round at a node whose subtree is done: climb to the next
right subtree, and stop there if its parent cannot hold a meeting extent. -/
def climbStep (ext : IntervalNodeExtent) (t : SearchTree.Tree IntervalNode) (up : List Frame)
    (data : δ) : (IntervalIter × δ) ⊕ (SearchTree.Tree IntervalNode × List Frame × δ) :=
  match climb t up with
  | none => .inl (.cont, data)
  | some (next, parent, up') =>
    if intervalMayOverlap parent ext then .inr (next, up', data) else .inl (.cont, data)

/-- One round of the loop of interval_search, at the head of `t`. -/
def searchBody (ext : IntervalNodeExtent) (func : IntervalNode → δ → IntervalIter × δ) :
    SearchTree.Tree IntervalNode × List Frame × δ →
      (IntervalIter × δ) ⊕ (SearchTree.Tree IntervalNode × List Frame × δ)
  | (.leaf, _, data) => .inl (.cont, data)
  | (.node left n right, up, data) =>
    if ext.stop < n.intervalLow then
      match left with
      | .leaf => climbStep ext (.node .leaf n right) up data
      | .node _ _ _ => .inr (left, .leftOf n right :: up, data)
    else if intervalMayOverlap n ext then
      let called := if extentOverlapped ext n.inExtent then func n data else (.cont, data)
      if called.1 = .stop then .inl called
      else
        match left, right with
        | .node _ _ _, _ => .inr (left, .leftOf n right :: up, called.2)
        | .leaf, .node _ _ _ => .inr (right, .rightOf .leaf n :: up, called.2)
        | .leaf, .leaf => climbStep ext (.node .leaf n .leaf) up called.2
    else climbStep ext (.node left n right) up data

/-- interval_search: the loop, for at most one round more than the tree has nodes. -/
def intervalSearch (root : SearchTree.Tree IntervalNode) (ext : IntervalNodeExtent)
    (func : IntervalNode → δ → IntervalIter × δ) (data : δ) : Option (IntervalIter × δ) :=
  Loop.run (searchBody ext func) (root.toList.length + 1) (root, [], data)

/-- interval_overlap_cb: note the overlap and stop. -/
def intervalOverlapCb (_ : IntervalNode) (_ : Bool) : IntervalIter × Bool := (.stop, true)

/-- interval_is_overlapped -/
def intervalIsOverlapped (root : SearchTree.Tree IntervalNode) (ext : IntervalNodeExtent) :
    Option Bool :=
  (intervalSearch root ext intervalOverlapCb false).map (·.2)

/-! ### The loop follows the recursive search -/

section Search

variable (ext : IntervalNodeExtent) (func : IntervalNode → δ → IntervalIter × δ)

theorem callEach_append (first rest : List IntervalNode) (data : δ) :
    callEach func (first ++ rest) data =
      match callEach func first data with
      | (.stop, data) => (.stop, data)
      | (.cont, data) => callEach func rest data := by
  induction first generalizing data with
  | nil => rfl
  | cons n first ih =>
    simp only [List.cons_append, callEach_cons]
    cases func n data with
    | mk rc data' => cases rc <;> simp [ih]

/-- The callback at a node that may meet the extent, then the rest. -/
theorem callEach_here (n : IntervalNode) (rest : List IntervalNode) (data : δ) :
    callEach func ((if extentOverlapped ext n.inExtent then [n] else []) ++ rest) data =
      let called := if extentOverlapped ext n.inExtent then func n data else (.cont, data)
      if called.1 = .stop then called else callEach func rest called.2 := by
  by_cases meets : extentOverlapped ext n.inExtent
  · simp only [meets, if_true, List.singleton_append, callEach_cons]
    cases func n data with
    | mk rc data' => cases rc <;> rfl
  · simp [meets]

/-- A walk whose calls either go on and leave the data as it was, or stop:
either every call goes on, or the walk ends where the first one stops. -/
theorem callEach_cont_or_stop (nodes : List IntervalNode) (data : δ)
    (each : ∀ n ∈ nodes, (func n data).1 = .cont → (func n data).2 = data) :
    (callEach func nodes data = (.cont, data) ∧ ∀ n ∈ nodes, (func n data).1 = .cont) ∨
      ∃ n ∈ nodes, (func n data).1 = .stop ∧ callEach func nodes data = func n data := by
  induction nodes with
  | nil => exact .inl ⟨rfl, by simp⟩
  | cons n rest ih =>
    rcases called : func n data with ⟨_ | _, after⟩
    · -- the call goes on, with the data as it was
      have same : after = data := by simpa [called] using each n List.mem_cons_self
      subst same
      rcases ih (fun m mem => each m (List.mem_cons_of_mem n mem)) with
        ⟨walked, wentOn⟩ | ⟨m, mem, stopped, walked⟩
      · left
        refine ⟨by simp [callEach_cons, called, walked], ?_⟩
        intro m mem
        rcases List.mem_cons.mp mem with rfl | later
        · simp [called]
        · exact wentOn m later
      · right
        exact ⟨m, List.mem_cons_of_mem n mem, stopped, by simp [callEach_cons, called, walked]⟩
    · right
      exact ⟨n, List.mem_cons_self, by simp [called], by simp [callEach_cons, called]⟩

/-- What the search has left to do from a round at the head of `t`. -/
def searchRest (t : SearchTree.Tree IntervalNode) (up : List Frame) (data : δ) :
    IntervalIter × δ :=
  callEach func (searchOrder ext t ++ pathOrder ext up) data

theorem searchRest_eq (t : SearchTree.Tree IntervalNode) (up : List Frame) (data : δ) :
    searchRest ext func t up data = callEach func (searchOrder ext t ++ pathOrder ext up) data :=
  rfl

variable {ext}

theorem pathOrder_of_climb_eq_none {t : SearchTree.Tree IntervalNode} {up : List Frame}
    (top : climb t up = none) : pathOrder ext up = [] := by
  induction up generalizing t with
  | nil => rfl
  | cons frame up ih =>
    match frame with
    | .leftOf parent .leaf => exact ih top
    | .leftOf parent (.node _ _ _) => cases top
    | .rightOf sibling parent => exact ih top

/-- Climbing keeps the tree, takes one pending right subtree, and the search
goes on in it exactly when its parent may meet the extent. -/
theorem climb_eq_some {t : SearchTree.Tree IntervalNode} {up : List Frame}
    {next : SearchTree.Tree IntervalNode} {parent : IntervalNode} {up' : List Frame}
    (climbed : climb t up = some (next, parent, up')) :
    plug next up' = plug t up ∧ next ≠ .leaf ∧
      pending up = next.toList.length + pending up' ∧
      pathOrder ext up =
        if intervalMayOverlap parent ext then searchOrder ext next ++ pathOrder ext up' else [] := by
  induction up generalizing t with
  | nil => cases climbed
  | cons frame up ih =>
    match frame with
    | .leftOf parent' .leaf =>
      simpa [plug_leftOf, pending_leftOf, pathOrder_leftOf_leaf] using ih climbed
    | .leftOf parent' (.node left value right) =>
      simp only [climb, Option.some.injEq, Prod.mk.injEq] at climbed
      obtain ⟨rfl, rfl, rfl⟩ := climbed
      exact ⟨rfl, (fun isLeaf => by cases isLeaf), rfl, rfl⟩
    | .rightOf sibling parent' =>
      simpa [plug_rightOf, pending_rightOf, pathOrder_rightOf] using ih climbed

theorem climbStep_spec {t : SearchTree.Tree IntervalNode} {up : List Frame} (data : δ)
    (started : t ≠ .leaf) :
    climbStep ext t up data = .inl (callEach func (pathOrder ext up) data) ∨
      ∃ next up', climbStep ext t up data = .inr (next, up', data) ∧ plug next up' = plug t up ∧
        next ≠ .leaf ∧ next.toList.length + pending up' < t.toList.length + pending up ∧
        searchRest ext func next up' data = callEach func (pathOrder ext up) data := by
  have nonempty : 0 < t.toList.length := by
    cases t with
    | leaf => exact absurd rfl started
    | node left value right =>
      simp only [Tree.toList_node, List.length_append, List.length_cons]
      omega
  unfold climbStep
  cases climbed : climb t up with
  | none =>
    left
    rw [pathOrder_of_climb_eq_none climbed]
    rfl
  | some found =>
    obtain ⟨next, parent, up'⟩ := found
    obtain ⟨plugged, nextNode, pendingEq, rest⟩ := climb_eq_some climbed
    by_cases may : intervalMayOverlap parent ext
    · right
      refine ⟨next, up', by simp [may], plugged, nextNode, by omega, ?_⟩
      rw [rest, if_pos may]
      rfl
    · left
      rw [rest, if_neg may]
      simp [may, callEach_nil]

/-- The recursive search passes only nodes of the tree that meet the extent. -/
theorem mem_searchOrder {t : SearchTree.Tree IntervalNode} {m : IntervalNode}
    (reported : m ∈ searchOrder ext t) : m ∈ t.toList ∧ extentOverlapped ext m.inExtent := by
  induction t with
  | leaf => cases reported
  | node left n right ihLeft ihRight =>
    rw [searchOrder_node] at reported
    simp only [Tree.toList_node, List.mem_append, List.mem_cons]
    split at reported
    · exact ⟨.inl (ihLeft reported).1, (ihLeft reported).2⟩
    · split at reported
      · simp only [List.mem_append] at reported
        rcases reported with (here | inLeft) | inRight
        · split at here
          · obtain rfl := List.mem_singleton.mp here
            exact ⟨.inr (.inl rfl), ‹_›⟩
          · cases here
        · exact ⟨.inl (ihLeft inLeft).1, (ihLeft inLeft).2⟩
        · exact ⟨.inr (.inr (ihRight inRight).1), (ihRight inRight).2⟩
      · cases reported

theorem mem_pathOrder {up : List Frame} {m : IntervalNode} (reported : m ∈ pathOrder ext up) :
    m ∈ after up ∧ extentOverlapped ext m.inExtent := by
  induction up with
  | nil => cases reported
  | cons frame up ih =>
    match frame with
    | .leftOf parent .leaf =>
      have := ih reported
      exact ⟨by simp [after_leftOf, this.1], this.2⟩
    | .leftOf parent (.node left value right) =>
      rw [pathOrder_leftOf_node] at reported
      split at reported
      · rcases List.mem_append.mp reported with inSibling | inRest
        · have found := mem_searchOrder inSibling
          exact ⟨by simp only [after_leftOf, List.mem_cons, List.mem_append]; exact .inl (.inr found.1),
            found.2⟩
        · have := ih inRest
          exact ⟨by simp [after_leftOf, this.1], this.2⟩
      · cases reported
    | .rightOf sibling parent => exact ih reported

/-- After a subtree whose nodes all start above the extent, the recursive
search passes nothing more to the callback. -/
theorem pathOrder_eq_nil_of_above {t : SearchTree.Tree IntervalNode} {up : List Frame}
    (sorted : Tree.LowsSorted (fun n => n.intervalLow.toNat) (plug t up))
    {x : IntervalNode} (inside : x ∈ t.toList) (above : ext.stop < x.intervalLow) :
    pathOrder ext up = [] := by
  rw [List.eq_nil_iff_forall_not_mem]
  intro m reported
  obtain ⟨later, meets⟩ := mem_pathOrder reported
  have ordered := le_of_mem_after sorted inside later
  have startBelow := (extentOverlapped_eq_true.mp meets).2
  rw [UInt64.lt_iff_toNat_lt] at above
  rw [UInt64.le_iff_toNat_le] at startBelow
  simp only [intervalLow] at ordered above
  omega

/-- One round of the loop either ends with what the search had left to do, or
goes on in the same tree, with fewer nodes ahead of it and the same left to do. -/
theorem searchBody_step {t : SearchTree.Tree IntervalNode} {up : List Frame} (data : δ)
    (sorted : Tree.LowsSorted (fun n => n.intervalLow.toNat) (plug t up))
    (started : t ≠ .leaf ∨ up = []) :
    searchBody ext func (t, up, data) = .inl (searchRest ext func t up data) ∨
      ∃ t' up' data', searchBody ext func (t, up, data) = .inr (t', up', data') ∧
        plug t' up' = plug t up ∧ t' ≠ .leaf ∧
        t'.toList.length + pending up' < t.toList.length + pending up ∧
        searchRest ext func t' up' data' = searchRest ext func t up data := by
  cases t with
  | leaf =>
    -- only the first round starts at no node, and the search ends there
    obtain rfl : up = [] := started.resolve_left (fun notLeaf => notLeaf rfl)
    exact .inl rfl
  | node left n right =>
    have headed : SearchTree.Tree.node left n right ≠ .leaf := fun isLeaf => by cases isLeaf
    have inside : n ∈ (SearchTree.Tree.node left n right).toList := by simp
    by_cases below : ext.stop < n.intervalLow
    · -- the node and all that follows it in order start above the extent
      have mayNot : intervalMayOverlap n ext = false := by
        simp [intervalMayOverlap, UInt64.not_le.mpr below]
      cases left with
      | leaf =>
        rcases climbStep_spec func data headed with ends | ⟨next, up', goes, plugged, nextNode,
          smaller, rest⟩
        · left
          simpa [searchBody, below, searchRest_eq, searchOrder_node, searchOrder_leaf] using ends
        · right
          exact ⟨next, up', data, by simpa [searchBody, below] using goes, plugged, nextNode,
            smaller, by simp [rest, searchRest_eq, searchOrder_node, searchOrder_leaf, below]⟩
      | node leftLeft leftValue leftRight =>
        right
        refine ⟨.node leftLeft leftValue leftRight, .leftOf n right :: up, data,
          by simp [searchBody, below], rfl, (fun isLeaf => by cases isLeaf), ?_, ?_⟩
        · simp only [pending_leftOf, Tree.toList_node, List.length_append, List.length_cons]
          omega
        · -- the loop stops after the left subtree; the recursive search finds nothing more
          have nothingAfter := pathOrder_eq_nil_of_above sorted inside below
          cases right with
          | leaf => simp [searchRest_eq, searchOrder_node, below, pathOrder_leftOf_leaf]
          | node _ _ _ =>
            simp [searchRest_eq, searchOrder_node, below, pathOrder_leftOf_node, mayNot, nothingAfter]
    · by_cases may : intervalMayOverlap n ext
      · -- the callback sees the node if it meets the extent, then the subtrees in turn
        have rest : searchRest ext func (.node left n right) up data =
            callEach func ((if extentOverlapped ext n.inExtent then [n] else []) ++
              (searchOrder ext left ++ searchOrder ext right ++ pathOrder ext up)) data := by
          simp only [searchRest_eq, searchOrder_node, below, may, if_false, if_true, List.append_assoc]
        rw [rest, callEach_here]
        simp only [searchBody, below, may, if_false, if_true]
        generalize (if extentOverlapped ext n.inExtent = true then func n data
          else (IntervalIter.cont, data)) = called
        by_cases stopped : called.1 = .stop
        · exact .inl (by simp [stopped])
        · simp only [stopped, if_false]
          cases left with
          | node leftLeft leftValue leftRight =>
            right
            refine ⟨.node leftLeft leftValue leftRight, .leftOf n right :: up, called.2, rfl, rfl,
              (fun isLeaf => by cases isLeaf), ?_, ?_⟩
            · simp only [pending_leftOf, Tree.toList_node, List.length_append, List.length_cons]
              omega
            · cases right with
              | leaf => simp [searchRest_eq, searchOrder_leaf, pathOrder_leftOf_leaf]
              | node _ _ _ => simp [searchRest_eq, pathOrder_leftOf_node, may]
          | leaf =>
            cases right with
            | node rightLeft rightValue rightRight =>
              right
              refine ⟨.node rightLeft rightValue rightRight, .rightOf .leaf n :: up, called.2, rfl,
                rfl, (fun isLeaf => by cases isLeaf), ?_, ?_⟩
              · simp only [pending_rightOf, Tree.toList_node, List.length_append, List.length_cons,
                  Tree.toList_leaf, List.length_nil]
                omega
              · simp [searchRest_eq, searchOrder_leaf, pathOrder_rightOf]
            | leaf =>
              rcases climbStep_spec func called.2 headed with ends | ⟨next, up', goes, plugged,
                nextNode, smaller, rest⟩
              · left
                simpa [searchOrder_leaf] using ends
              · right
                exact ⟨next, up', called.2, goes, plugged, nextNode, smaller,
                  by simpa [searchOrder_leaf] using rest⟩
      · -- nothing in the subtree meets the extent
        have nothing : searchOrder ext (.node left n right) = [] := by
          simp [searchOrder_node, below, may]
        rcases climbStep_spec func data headed with ends | ⟨next, up', goes, plugged, nextNode,
          smaller, rest⟩
        · left
          simpa [searchBody, below, may, searchRest_eq, nothing] using ends
        · right
          exact ⟨next, up', data, by simpa [searchBody, below, may] using goes, plugged, nextNode,
            smaller, by simpa [searchRest_eq, nothing] using rest⟩

/-- interval_search calls the callback on the nodes that the recursive search
of its comment visits, in the same order, until the callback says stop; on
every tree whose starts do not decrease in order. -/
theorem intervalSearch_eq_callEach {root : SearchTree.Tree IntervalNode}
    (sorted : Tree.LowsSorted (fun n => n.intervalLow.toNat) root) (data : δ) :
    intervalSearch root ext func data = some (callEach func (searchOrder ext root) data) := by
  -- every round keeps the tree and what is left to do, with fewer nodes ahead
  let inside : Nat → SearchTree.Tree IntervalNode × List Frame × δ → Prop :=
    fun ahead state => plug state.1 state.2.1 = root ∧ (state.1 ≠ .leaf ∨ state.2.1 = []) ∧
      ahead = state.1.toList.length + pending state.2.1 ∧
      searchRest ext func state.1 state.2.1 state.2.2 = callEach func (searchOrder ext root) data
  have step : ∀ ahead state, inside ahead state →
      (∃ result, searchBody ext func state = .inl result ∧
          result = callEach func (searchOrder ext root) data) ∨
        ∃ lower next, lower < ahead ∧ searchBody ext func state = .inr next ∧ inside lower next := by
    rintro ahead ⟨t, up, current⟩ ⟨plugged, started, rfl, rest⟩
    have sortedHere : Tree.LowsSorted (fun n => n.intervalLow.toNat) (plug t up) := by
      rw [plugged]
      exact sorted
    rcases searchBody_step func current sortedHere started with ends | ⟨t', up', current', goes,
      plugged', nextNode, smaller, rest'⟩
    · exact .inl ⟨_, ends, rest⟩
    · exact .inr ⟨_, (t', up', current'), smaller, goes, plugged'.trans plugged, .inl nextNode, rfl,
        rest'.trans rest⟩
  have start : inside root.toList.length (root, [], data) :=
    ⟨rfl, .inr rfl, by simp [pending_nil], by simp [searchRest_eq, pathOrder_nil]⟩
  obtain ⟨result, isTarget, ran⟩ := Loop.run_of_ranked inside _ step root.toList.length
    (root, [], data) start (root.toList.length + 1) (by omega)
  rw [intervalSearch, ran, isTarget]

end Search

/-! ## Well-formed trees -/

/-- Each node's in_max_high is the largest end in its subtree. -/
def MaxHighExact : SearchTree.Tree IntervalNode → Prop
  | .leaf => True
  | .node left n right =>
    n.inMaxHigh.toNat =
        (SearchTree.Tree.node left n right).maxHigh (fun m => m.intervalHigh.toNat) ∧
      MaxHighExact left ∧ MaxHighExact right

instance decidableMaxHighExact : (t : SearchTree.Tree IntervalNode) → Decidable (MaxHighExact t)
  | .leaf => isTrue trivial
  | .node left _ right =>
    have := decidableMaxHighExact left
    have := decidableMaxHighExact right
    inferInstanceAs (Decidable (_ ∧ _ ∧ _))

/-- What searching an interval tree relies on: the nodes are ordered by
extent_compare with no two of one extent, and each knows the largest end in its
subtree. -/
structure Augmented (root : SearchTree.Tree IntervalNode) : Prop where
  ordered : Tree.Ordered IntervalNode.key root
  maxHighExact : MaxHighExact root

/-- A well-formed interval tree: augmented, and each extent starts at or
before its end, as interval_set asserts of every node put in. -/
structure WellFormed (root : SearchTree.Tree IntervalNode) : Prop extends Augmented root where
  valid : ∀ n ∈ root.toList, n.intervalLow ≤ n.intervalHigh

theorem Augmented.lowsSorted {root : SearchTree.Tree IntervalNode} (aug : Augmented root) :
    Tree.LowsSorted (fun n => n.intervalLow.toNat) root :=
  List.Pairwise.imp (fun less => intervalLow_le_of_key_lt less) aug.ordered

theorem Augmented.nodup {root : SearchTree.Tree IntervalNode} (aug : Augmented root) :
    root.toList.Nodup :=
  List.Pairwise.imp (fun less same => ne_of_lt less (congrArg IntervalNode.key same)) aug.ordered

/-- With exact `in_max_high`, the recursive search is the interval search of
`Library.IntervalTree` on the numbers of the extents. -/
theorem searchOrder_eq_intervalSearch {ext : IntervalNodeExtent} {t : SearchTree.Tree IntervalNode}
    (exact : MaxHighExact t) :
    searchOrder ext t = t.intervalSearch (fun n => n.intervalLow.toNat)
      (fun n => n.intervalHigh.toNat) ext.start.toNat ext.stop.toNat := by
  induction t with
  | leaf => rfl
  | node left n right ihLeft ihRight =>
    obtain ⟨here, exactLeft, exactRight⟩ := exact
    rw [Tree.maxHigh_node] at here
    simp only [searchOrder_node, Tree.intervalSearch_node, ihLeft exactLeft, ihRight exactRight,
      UInt64.lt_iff_toNat_lt, intervalLow]
    by_cases below : ext.stop.toNat < n.inExtent.start.toNat
    · simp [below]
    · -- past the first test, interval_may_overlap is the test on in_max_high alone
      have lowBelow : n.inExtent.start.toNat ≤ ext.stop.toNat := by omega
      simp [below, intervalMayOverlap, extentOverlapped, lowBelow, UInt64.le_iff_toNat_le, here,
        intervalLow, intervalHigh]

/-- On an augmented tree the recursive search visits exactly the nodes that
meet the extent. -/
theorem Augmented.mem_searchOrder_iff {root : SearchTree.Tree IntervalNode} (aug : Augmented root)
    (ext : IntervalNodeExtent) {m : IntervalNode} :
    m ∈ searchOrder ext root ↔ m ∈ root.toList ∧ extentOverlapped ext m.inExtent = true := by
  rw [searchOrder_eq_intervalSearch aug.maxHighExact, Tree.mem_intervalSearch aug.lowsSorted,
    extentOverlapped_eq_true, UInt64.le_iff_toNat_le, UInt64.le_iff_toNat_le]
  rfl

theorem Augmented.nodup_searchOrder {root : SearchTree.Tree IntervalNode} (aug : Augmented root)
    (ext : IntervalNodeExtent) : (searchOrder ext root).Nodup := by
  rw [searchOrder_eq_intervalSearch aug.maxHighExact]
  exact Tree.nodup_intervalSearch aug.nodup _ _

/-- interval_overlap_cb reports whether it was called at all. -/
theorem callEach_intervalOverlapCb (visits : List IntervalNode) :
    (callEach intervalOverlapCb visits false).2 = !visits.isEmpty := by
  cases visits with
  | nil => rfl
  | cons _ _ => rfl

theorem Augmented.intervalIsOverlapped_eq {root : SearchTree.Tree IntervalNode}
    (aug : Augmented root) (ext : IntervalNodeExtent) :
    intervalIsOverlapped root ext =
      some (decide (∃ n ∈ root.toList, extentOverlapped ext n.inExtent = true)) := by
  rw [intervalIsOverlapped, intervalSearch_eq_callEach _ aug.lowsSorted, Option.map_some,
    callEach_intervalOverlapCb]
  congr 1
  by_cases found : ∃ n ∈ root.toList, extentOverlapped ext n.inExtent = true
  · obtain ⟨n, inTree, meets⟩ := found
    have reported := (aug.mem_searchOrder_iff ext).mpr ⟨inTree, meets⟩
    have notEmpty : (searchOrder ext root).isEmpty = false :=
      List.isEmpty_eq_false_iff.mpr (List.ne_nil_of_mem reported)
    simp only [notEmpty, Bool.not_false]
    exact (decide_eq_true ⟨n, inTree, meets⟩).symm
  · have empty : searchOrder ext root = [] := by
      rw [List.eq_nil_iff_forall_not_mem]
      exact fun m reported => found ⟨m, (aug.mem_searchOrder_iff ext).mp reported⟩
    simp only [empty, List.isEmpty_nil, Bool.not_true]
    exact (decide_eq_false found).symm

/-- interval_search is exact: on an augmented tree it calls any callback on
exactly the nodes whose extents meet `ext`, each once, until the callback says
stop, and interval_is_overlapped says whether there is one. -/
theorem intervalSearch_exact {root : SearchTree.Tree IntervalNode} (aug : Augmented root)
    (ext : IntervalNodeExtent) :
    ∃ visits : List IntervalNode, visits.Nodup ∧
      (∀ n, n ∈ visits ↔ n ∈ root.toList ∧ extentOverlapped ext n.inExtent = true) ∧
      (∀ (δ : Type) (func : IntervalNode → δ → IntervalIter × δ) (data : δ),
        intervalSearch root ext func data = some (callEach func visits data)) ∧
      intervalIsOverlapped root ext =
        some (decide (∃ n ∈ root.toList, extentOverlapped ext n.inExtent = true)) :=
  ⟨searchOrder ext root, aug.nodup_searchOrder ext, fun _ => aug.mem_searchOrder_iff ext,
    fun _ func data => intervalSearch_eq_callEach func aug.lowsSorted data,
    aug.intervalIsOverlapped_eq ext⟩

/-- A tree of three nodes: [0, 4] and [30, 39] under [10, 19]. -/
def threeNodeTree : SearchTree.Tree IntervalNode :=
  .node (.node .leaf ⟨.red, ⟨0, 4⟩, 4⟩ .leaf) ⟨.black, ⟨10, 19⟩, 39⟩
    (.node .leaf ⟨.red, ⟨30, 39⟩, 39⟩ .leaf)

theorem threeNodeTree_wellFormed : WellFormed threeNodeTree :=
  ⟨⟨by decide, by decide⟩, by decide⟩

theorem intervalSearch_exact_on_threeNodeTree :
    Augmented threeNodeTree ∧
      ∃ visits : List IntervalNode, visits.Nodup ∧
        (∀ n, n ∈ visits ↔ n ∈ threeNodeTree.toList ∧ extentOverlapped ⟨3, 12⟩ n.inExtent = true) ∧
        (∀ (δ : Type) (func : IntervalNode → δ → IntervalIter × δ) (data : δ),
          intervalSearch threeNodeTree ⟨3, 12⟩ func data = some (callEach func visits data)) ∧
        intervalIsOverlapped threeNodeTree ⟨3, 12⟩ =
          some (decide (∃ n ∈ threeNodeTree.toList, extentOverlapped ⟨3, 12⟩ n.inExtent = true)) :=
  ⟨threeNodeTree_wellFormed.toAugmented,
    intervalSearch_exact threeNodeTree_wellFormed.toAugmented ⟨3, 12⟩⟩

/-! ## interval_expand -/

/-- interval_expand_low: only an empty tree lets the start go down, to 0. -/
def intervalExpandLow (root : SearchTree.Tree IntervalNode) (low : UInt64) : UInt64 :=
  match root with
  | .leaf => 0
  | .node _ _ _ => low

/-- The loop of interval_expand_high from `node`, with the end found so far. -/
def expandHighFrom (high : UInt64) : SearchTree.Tree IntervalNode → UInt64 → UInt64
  | .leaf, result => result
  | .node left n right, result =>
    if n.inMaxHigh < high then result
    else if n.intervalLow > high then expandHighFrom high left (n.intervalLow - 1)
    else expandHighFrom high right result

/-- interval_expand_high -/
def intervalExpandHigh (node : SearchTree.Tree IntervalNode) (high : UInt64) : UInt64 :=
  expandHighFrom high node (~~~0)

/-- interval_expand: grow `ext` where no `limiter` stops it; `none` where one
of its two assertions, that neither extent meets a node, fails. -/
def intervalExpand (root : SearchTree.Tree IntervalNode) (ext : IntervalNodeExtent)
    (limiter : Option IntervalNodeExtent) : Option IntervalNodeExtent :=
  (intervalIsOverlapped root ext).bind fun before =>
    if before then none
    else
      let expanded : IntervalNodeExtent :=
        { start := if limiter.all (·.start < ext.start) then intervalExpandLow root ext.start
            else ext.start
          stop := if limiter.all (ext.stop < ·.stop) then intervalExpandHigh root ext.stop
            else ext.stop }
      (intervalIsOverlapped root expanded).bind fun after => if after then none else some expanded

/-- With no start above `high`, the descent keeps the end it has. -/
theorem expandHighFrom_of_none_above {high : UInt64} {t : SearchTree.Tree IntervalNode}
    (result : UInt64) (noneAbove : ∀ m ∈ t.toList, m.intervalLow ≤ high) :
    expandHighFrom high t result = result := by
  induction t generalizing result with
  | leaf => rfl
  | node left n right _ ihRight =>
    have notAbove : ¬ n.intervalLow > high := UInt64.not_lt.mpr (noneAbove n (by simp))
    simp only [expandHighFrom, if_neg notAbove]
    split
    · rfl
    · exact ihRight result (fun m inRight => noneAbove m (by simp [inRight]))

/-- On a well-formed tree the descent of interval_expand_high ends just below
the least start above `high`. -/
theorem expandHighFrom_of_least {high : UInt64} {t : SearchTree.Tree IntervalNode}
    (sorted : Tree.LowsSorted (fun n => n.intervalLow.toNat) t) (exact : MaxHighExact t)
    (valid : ∀ n ∈ t.toList, n.intervalLow ≤ n.intervalHigh) (result : UInt64) {least : UInt64}
    (reached : ∃ m ∈ t.toList, high < m.intervalLow ∧ m.intervalLow = least)
    (isLeast : ∀ m ∈ t.toList, high < m.intervalLow → least ≤ m.intervalLow) :
    expandHighFrom high t result = least - 1 := by
  induction t generalizing result with
  | leaf =>
    obtain ⟨m, inLeaf, -⟩ := reached
    cases inLeaf
  | node left n right ihLeft ihRight =>
    obtain ⟨sortedLeft, sortedRight, belowN, aboveN, -⟩ := Tree.lowsSorted_node_iff.mp sorted
    obtain ⟨nExact, exactLeft, exactRight⟩ := exact
    obtain ⟨w, wIn, wAbove, rfl⟩ := reached
    simp only [UInt64.lt_iff_toNat_lt, UInt64.le_iff_toNat_le] at wAbove isLeast
    have wInTree := wIn
    simp only [Tree.toList_node, List.mem_append, List.mem_cons] at wIn
    simp only [expandHighFrom]
    by_cases pruned : n.inMaxHigh < high
    · -- every end in the subtree is below `high`, and so is every start
      have bounded : w.intervalHigh.toNat ≤ n.inMaxHigh.toNat :=
        nExact ▸ @Tree.le_maxHigh _ (fun m => m.intervalHigh.toNat) _ _ wInTree
      have wValid := UInt64.le_iff_toNat_le.mp (valid w wInTree)
      rw [UInt64.lt_iff_toNat_lt] at pruned
      omega
    · rw [if_neg pruned]
      by_cases nAbove : n.intervalLow > high
      · rw [if_pos nAbove]
        rw [gt_iff_lt, UInt64.lt_iff_toNat_lt] at nAbove
        have wLeast := isLeast n (by simp) nAbove
        by_cases leftAbove : ∃ m ∈ left.toList, high.toNat < m.intervalLow.toNat
        · -- the least start above `high` is in the left subtree too
          obtain ⟨m, mIn, mAbove⟩ := leftAbove
          have witness : ∃ m ∈ left.toList, high < m.intervalLow ∧
              m.intervalLow = w.intervalLow := by
            rcases wIn with inLeft | rfl | inRight
            · exact ⟨w, inLeft, UInt64.lt_iff_toNat_lt.mpr wAbove, rfl⟩
            · have mLow := belowN m mIn
              have mLeast := isLeast m (by simp [mIn]) mAbove
              exact ⟨m, mIn, UInt64.lt_iff_toNat_lt.mpr mAbove, UInt64.toNat_inj.mp (by omega)⟩
            · have mLow := belowN m mIn
              have wLow := aboveN w inRight
              have mLeast := isLeast m (by simp [mIn]) mAbove
              exact ⟨m, mIn, UInt64.lt_iff_toNat_lt.mpr mAbove, UInt64.toNat_inj.mp (by omega)⟩
          exact ihLeft sortedLeft exactLeft (fun m inLeft => valid m (by simp [inLeft])) _ witness
            (fun m inLeft above => UInt64.le_iff_toNat_le.mpr
              (isLeast m (by simp [inLeft]) (UInt64.lt_iff_toNat_lt.mp above)))
        · -- nothing in the left subtree starts above `high`: the node is the least
          simp only [not_exists, not_and, Nat.not_lt] at leftAbove
          rw [expandHighFrom_of_none_above _
            (fun m inLeft => UInt64.le_iff_toNat_le.mpr (leftAbove m inLeft))]
          have sameStart : n.intervalLow = w.intervalLow := by
            rcases wIn with inLeft | rfl | inRight
            · have := leftAbove w inLeft
              omega
            · rfl
            · have wLow := aboveN w inRight
              exact UInt64.toNat_inj.mp (by omega)
          rw [sameStart]
      · -- the node and its left subtree start at or below `high`
        rw [if_neg nAbove]
        rw [gt_iff_lt, UInt64.lt_iff_toNat_lt] at nAbove
        have inRight : w ∈ right.toList := by
          rcases wIn with inLeft | rfl | inRight
          · have := belowN w inLeft
            omega
          · omega
          · exact inRight
        exact ihRight sortedRight exactRight (fun m inRight => valid m (by simp [inRight])) _
          ⟨w, inRight, UInt64.lt_iff_toNat_lt.mpr wAbove, rfl⟩
          (fun m inRight above => UInt64.le_iff_toNat_le.mpr
            (isLeast m (by simp [inRight]) (UInt64.lt_iff_toNat_lt.mp above)))

/-- Among finitely many nodes, one of those that start above `high` starts lowest. -/
theorem exists_least_start_above {t : SearchTree.Tree IntervalNode} {high : UInt64}
    (above : ∃ m ∈ t.toList, high < m.intervalLow) :
    ∃ n ∈ t.toList, high < n.intervalLow ∧
      ∀ m ∈ t.toList, high < m.intervalLow → n.intervalLow ≤ m.intervalLow := by
  classical
  let candidates := (t.toList.filter fun m => high < m.intervalLow).toFinset
  obtain ⟨m, mIn, mAbove⟩ := above
  have nonempty : candidates.Nonempty := ⟨m, by simp [candidates, mIn, mAbove]⟩
  obtain ⟨n, nIn, lowest⟩ := candidates.exists_min_image (fun m => m.intervalLow.toNat) nonempty
  simp only [candidates, List.mem_toFinset, List.mem_filter, decide_eq_true_eq] at nIn lowest
  exact ⟨n, nIn.1, nIn.2, fun m mIn mAbove =>
    UInt64.le_iff_toNat_le.mpr (lowest m ⟨mIn, mAbove⟩)⟩

/-- One node whose start lies above its end, as interval_set never leaves one. -/
def invertedNodeTree : SearchTree.Tree IntervalNode :=
  .node .leaf ⟨.black, ⟨10, 5⟩, 5⟩ .leaf

end Lustre.Ldlm
