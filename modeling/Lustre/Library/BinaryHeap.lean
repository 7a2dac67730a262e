import Mathlib.Order.Defs.Unbundled
import Mathlib.Data.Multiset.Range
import Mathlib.Data.Multiset.MapFold
import Mathlib.Logic.Equiv.Basic

/-!
# Binary heaps laid out level by level

Slot `0` is the root and slot `i > 0` hangs below slot `(i - 1) / 2`.  A heap
of `n` slots is ordered by a relation `r` when every slot from 1 below `n` is
ranked by `r` after its parent.  Sifting moves a hole instead of swapping: a
node `e` waits outside the slots while the nodes on its path move into the
hole one at a time, and `e` is written into the hole at the end.

Two structures say what a sift needs of the slots around its hole: `UpOrder`
for a sift towards the root and `DownOrder` for a sift towards the leaves.
Both extend `Around`, which holds of the hole of every heap that was ordered
before one of its slots was emptied or its node changed rank.  One `move`
lemma says what a round of each sift keeps and one `finish` lemma that the
heap is ordered when the sift stops.  With `r` transitive and total, the
root is ranked at or before every slot (`Ordered.root`).

The slots below `n` as a multiset are `contents`; a round of a sift only
exchanges the hole with another slot, which keeps them.
-/

namespace BinaryHeap

variable {α : Type*}

/-- The slot that slot `i` hangs below. -/
def parent (i : Nat) : Nat := (i - 1) / 2

/-- Slot `c` hangs directly below slot `p`. -/
def IsChild (c p : Nat) : Prop := 0 < c ∧ parent c = p

theorem parent_lt {i : Nat} (pos : 0 < i) : parent i < i := by
  unfold parent
  omega

theorem isChild_iff {c p : Nat} : IsChild c p ↔ c = 2 * p + 1 ∨ c = 2 * p + 2 := by
  unfold IsChild parent
  omega

theorem IsChild.lt {c p : Nat} (child : IsChild c p) : p < c := by
  rcases isChild_iff.1 child with rfl | rfl <;> omega

theorem parent_isChild {i : Nat} (pos : 0 < i) : IsChild i (parent i) := ⟨pos, rfl⟩

section Order

variable (r : α → α → Prop)

/-- Every slot from 1 below `n` is ranked after its parent. -/
def Ordered (slots : Nat → α) (n : Nat) : Prop :=
  ∀ i, 0 < i → i < n → r (slots (parent i)) (slots i)

/-- Every slot from 1 below `n` is ranked after its parent, except where the
slot or its parent is `hole`. -/
def OrderedExcept (slots : Nat → α) (n hole : Nat) : Prop :=
  ∀ i, 0 < i → i < n → i ≠ hole → parent i ≠ hole → r (slots (parent i)) (slots i)

/-- The slots around a hole: ordered away from it, and the hole's parent ranked
at or before the hole's children. -/
structure Around (slots : Nat → α) (n hole : Nat) : Prop where
  except : OrderedExcept r slots n hole
  grand : 0 < hole → ∀ c, IsChild c hole → c < n → r (slots (parent hole)) (slots c)

/-- A hole that `e` may be sifted up from: `e` ranks at or before the hole's
children. -/
structure UpOrder (slots : Nat → α) (n hole : Nat) (e : α) : Prop extends Around r slots n hole where
  below : ∀ c, IsChild c hole → c < n → r e (slots c)

/-- A hole that `e` may be sifted down from: the hole's parent ranks at or
before `e`. -/
structure DownOrder (slots : Nat → α) (n hole : Nat) (e : α) : Prop extends Around r slots n hole where
  above : 0 < hole → r (slots (parent hole)) e

end Order

variable {r : α → α → Prop} {slots : Nat → α} {n hole : Nat} {e : α}

theorem Ordered.mono {m : Nat} (ordered : Ordered r slots n) (le : m ≤ n) : Ordered r slots m :=
  fun i pos inside => ordered i pos (by omega)

/-- Order only looks at the slots below `n`. -/
theorem Ordered.of_agree {slots' : Nat → α} (ordered : Ordered r slots n)
    (agree : ∀ i, i < n → slots' i = slots i) : Ordered r slots' n := by
  intro i pos inside
  rw [agree i inside, agree (parent i) (by have := parent_lt pos; omega)]
  exact ordered i pos inside

/-- The root ranks at or before every slot of an ordered heap. -/
theorem Ordered.root [IsTrans α r] [Std.Total r] (ordered : Ordered r slots n) :
    ∀ i, i < n → r (slots 0) (slots i) := by
  intro i
  -- up the chain of parents, which ends at the root
  induction i using Nat.strongRecOn with
  | _ i ih =>
    intro inside
    rcases Nat.eq_zero_or_pos i with rfl | pos
    · exact refl_of r _
    · have up := parent_lt pos
      exact trans_of r (ih (parent i) up (by omega)) (ordered i pos inside)

/-- A slot of an ordered heap, emptied or given a node of another rank, leaves
the slots around it in place. -/
theorem Ordered.around [IsTrans α r] (ordered : Ordered r slots n) (hole : Nat) : Around r slots n hole where
  except i pos inside _ _ := ordered i pos inside
  grand pos c child inside := by
    have holeInside : hole < n := by have := child.lt; omega
    have childOrdered := ordered c child.1 inside
    rw [child.2] at childOrdered
    exact trans_of r (ordered hole pos holeInside) childOrdered

/-- When only the node in `hole` changes rank, going from `r` to `r'`, the
slots around the hole stay in place under `r'`. -/
theorem Ordered.around_of_agree [IsTrans α r] {r' : α → α → Prop} (ordered : Ordered r slots n)
    (agree : ∀ i j, i < n → j < n → i ≠ hole → j ≠ hole → (r' (slots i) (slots j) ↔ r (slots i) (slots j))) :
    Around r' slots n hole := by
  have around := ordered.around hole
  constructor
  · intro i pos inside notHole parentNotHole
    have up := parent_lt pos
    exact (agree _ _ (by omega) inside parentNotHole notHole).2 (around.except i pos inside notHole parentNotHole)
  · intro pos c child inside
    have up := parent_lt pos
    have down := child.lt
    exact (agree _ _ (by omega) inside (by omega) (by omega)).2 (around.grand pos c child inside)

/-- The slots around a hole do not depend on the node in the hole, nor on the
slots from `m` on. -/
theorem Around.of_agree (around : Around r slots n hole) {slots' : Nat → α} {m : Nat} (le : m ≤ n)
    (agree : ∀ i, i < m → i ≠ hole → slots' i = slots i) : Around r slots' m hole := by
  constructor
  · intro i pos inside notHole parentNotHole
    have up := parent_lt pos
    rw [agree i inside notHole, agree (parent i) (by omega) parentNotHole]
    exact around.except i pos (by omega) notHole parentNotHole
  · intro pos c child inside
    have up := parent_lt pos
    have down := child.lt
    rw [agree c inside (by omega), agree (parent hole) (by omega) (by omega)]
    exact around.grand pos c child (by omega)

/-- Nor does a hole that `e` may be sifted up from. -/
theorem UpOrder.of_agree (order : UpOrder r slots n hole e) {slots' : Nat → α} {m : Nat} (le : m ≤ n)
    (agree : ∀ i, i < m → i ≠ hole → slots' i = slots i) : UpOrder r slots' m hole e where
  toAround := order.toAround.of_agree le agree
  below c child inside := by
    rw [agree c inside (by have := child.lt; omega)]
    exact order.below c child (by omega)

/-- A new last slot can take any node to sift up. -/
theorem Ordered.upOrder_last (ordered : Ordered r slots n) (e : α) : UpOrder r slots (n + 1) n e where
  except i pos inside notHole _ := ordered i pos (by omega)
  grand _ c child inside := absurd inside (by have := child.lt; rcases isChild_iff.1 child with rfl | rfl <;> omega)
  below c child inside := absurd inside (by rcases isChild_iff.1 child with rfl | rfl <;> omega)

/-- A hole whose parent ranks after `e` can take `e` up. -/
theorem Around.up [IsTrans α r] [Std.Total r] (around : Around r slots n hole) (pos : 0 < hole)
    (before : ¬ r (slots (parent hole)) e) : UpOrder r slots n hole e where
  toAround := around
  below c child inside := by
    have eFirst : r e (slots (parent hole)) := (total_of r _ _).resolve_right before
    exact trans_of r eFirst (around.grand pos c child inside)

/-- A hole at the root, or whose parent ranks at or before `e`, can take `e`
down. -/
theorem Around.down (around : Around r slots n hole) (stop : 0 < hole → r (slots (parent hole)) e) :
    DownOrder r slots n hole e :=
  ⟨around, stop⟩

/-! ## Sifting up -/

/-- A round of a sift up: the parent of the hole moves into it, and the hole
moves to the parent. -/
theorem UpOrder.move [IsTrans α r] [Std.Total r] (order : UpOrder r slots n hole e) (pos : 0 < hole)
    (inside : hole < n) (before : ¬ r (slots (parent hole)) e) :
    UpOrder r (Function.update slots hole (slots (parent hole))) n (parent hole) e := by
  have up := parent_lt pos
  -- the parent ranks after `e`, so `e` ranks at or before it
  have eFirst : r e (slots (parent hole)) := (total_of r _ _).resolve_right before
  have parentOrdered : 0 < parent hole → r (slots (parent (parent hole))) (slots (parent hole)) := fun upPos =>
    order.except (parent hole) upPos (by omega) (by omega) (by have := parent_lt upPos; omega)
  refine ⟨⟨?except, ?grand⟩, ?below⟩
  case except =>
    intro i pos' inside' notHole parentNotHole
    by_cases atHole : i = hole
    · exact absurd (congrArg parent atHole) parentNotHole
    · rw [Function.update_of_ne atHole]
      by_cases belowHole : parent i = hole
      · rw [belowHole, Function.update_self]
        exact order.grand pos i ⟨pos', belowHole⟩ inside'
      · rw [Function.update_of_ne belowHole]
        exact order.except i pos' inside' atHole belowHole
  case grand =>
    intro upPos c child inside'
    have grandNe : parent (parent hole) ≠ hole := by have := parent_lt upPos; omega
    rw [Function.update_of_ne grandNe]
    by_cases atHole : c = hole
    · rw [atHole, Function.update_self]
      exact parentOrdered upPos
    · rw [Function.update_of_ne atHole]
      have sibling := order.except c child.1 inside' atHole (by rw [child.2]; omega)
      rw [child.2] at sibling
      exact trans_of r (parentOrdered upPos) sibling
  case below =>
    intro c child inside'
    by_cases atHole : c = hole
    · rw [atHole, Function.update_self]
      exact eFirst
    · rw [Function.update_of_ne atHole]
      have sibling := order.except c child.1 inside' atHole (by rw [child.2]; omega)
      rw [child.2] at sibling
      exact trans_of r eFirst sibling

/-- A sift up that stops, at the root or below a parent ranked at or before
`e`, leaves an ordered heap once `e` is in the hole. -/
theorem UpOrder.finish (order : UpOrder r slots n hole e) (stop : 0 < hole → r (slots (parent hole)) e) :
    Ordered r (Function.update slots hole e) n := by
  intro i pos inside
  by_cases atHole : i = hole
  · subst atHole
    have parentNe : parent i ≠ i := by have := parent_lt pos; omega
    rw [Function.update_self, Function.update_of_ne parentNe]
    exact stop pos
  · rw [Function.update_of_ne atHole]
    by_cases belowHole : parent i = hole
    · rw [belowHole, Function.update_self]
      exact order.below i ⟨pos, belowHole⟩ inside
    · rw [Function.update_of_ne belowHole]
      exact order.except i pos inside atHole belowHole

/-! ## Sifting down -/

/-- A round of a sift down: the child `c` of the hole that ranks at or before
its sibling moves into the hole, and the hole moves to `c`. -/
theorem DownOrder.move [IsTrans α r] [Std.Total r] (order : DownOrder r slots n hole e) {c : Nat}
    (child : IsChild c hole) (inside : c < n) (least : ∀ d, IsChild d hole → d < n → r (slots c) (slots d))
    (before : ¬ r e (slots c)) : DownOrder r (Function.update slots hole (slots c)) n c e := by
  have down := child.lt
  -- the child ranks before `e`
  have childFirst : r (slots c) e := (total_of r _ _).resolve_left before
  refine ⟨⟨?except, ?grand⟩, ?above⟩
  case except =>
    intro i pos inside' notHole parentNotHole
    by_cases atHole : i = hole
    · subst atHole
      have parentNe : parent i ≠ i := by have := parent_lt pos; omega
      rw [Function.update_self, Function.update_of_ne parentNe]
      exact order.grand pos c child inside
    · rw [Function.update_of_ne atHole]
      by_cases belowHole : parent i = hole
      · rw [belowHole, Function.update_self]
        exact least i ⟨pos, belowHole⟩ inside'
      · rw [Function.update_of_ne belowHole]
        exact order.except i pos inside' atHole belowHole
  case grand =>
    intro _ d grandchild inside'
    have deeper := grandchild.lt
    rw [child.2, Function.update_self, Function.update_of_ne (show d ≠ hole by omega)]
    have ordered := order.except d grandchild.1 inside' (by omega) (by rw [grandchild.2]; omega)
    rwa [grandchild.2] at ordered
  case above =>
    intro _
    rw [child.2, Function.update_self]
    exact childFirst

/-- A sift down that stops where every child of the hole ranks at or after `e`
leaves an ordered heap once `e` is in the hole. -/
theorem DownOrder.finish (order : DownOrder r slots n hole e)
    (stop : ∀ c, IsChild c hole → c < n → r e (slots c)) : Ordered r (Function.update slots hole e) n := by
  intro i pos inside
  by_cases atHole : i = hole
  · subst atHole
    have parentNe : parent i ≠ i := by have := parent_lt pos; omega
    rw [Function.update_self, Function.update_of_ne parentNe]
    exact order.above pos
  · rw [Function.update_of_ne atHole]
    by_cases belowHole : parent i = hole
    · rw [belowHole, Function.update_self]
      exact stop i ⟨pos, belowHole⟩ inside
    · rw [Function.update_of_ne belowHole]
      exact order.except i pos inside atHole belowHole

/-! ## Contents -/

/-- The slots below `n`, as a multiset. -/
def contents (slots : Nat → α) (n : Nat) : Multiset α := (Multiset.range n).map slots

/-- Exchanging two slots below `n` keeps the contents. -/
theorem contents_comp_swap (slots : Nat → α) {i j : Nat} (iInside : i < n) (jInside : j < n) :
    contents (slots ∘ Equiv.swap i j) n = contents slots n := by
  unfold contents
  rw [← Multiset.map_map]
  congr 1
  -- the swap permutes the slots below `n`
  rw [Multiset.Nodup.ext ((Multiset.nodup_range n).map (Equiv.injective _)) (Multiset.nodup_range n)]
  intro k
  rw [Multiset.mem_map, Multiset.mem_range]
  constructor
  · rintro ⟨m, mInside, rfl⟩
    rw [Multiset.mem_range] at mInside
    rcases eq_or_ne m i with rfl | notI
    · rw [Equiv.swap_apply_left]
      exact jInside
    rcases eq_or_ne m j with rfl | notJ
    · rw [Equiv.swap_apply_right]
      exact iInside
    rw [Equiv.swap_apply_of_ne_of_ne notI notJ]
    exact mInside
  · intro kInside
    refine ⟨Equiv.swap i j k, ?_, Equiv.swap_apply_self _ _ _⟩
    rw [Multiset.mem_range]
    rcases eq_or_ne k i with rfl | notI
    · rw [Equiv.swap_apply_left]
      exact jInside
    rcases eq_or_ne k j with rfl | notJ
    · rw [Equiv.swap_apply_right]
      exact iInside
    rw [Equiv.swap_apply_of_ne_of_ne notI notJ]
    exact kInside

/-- A round of a sift keeps the contents the heap has once `e` is in the hole. -/
theorem contents_move (slots : Nat → α) (e : α) {hole next : Nat} (holeInside : hole < n) (nextInside : next < n)
    (moved : next ≠ hole) :
    contents (Function.update (Function.update slots hole (slots next)) next e) n =
      contents (Function.update slots hole e) n := by
  have exchanged : Function.update (Function.update slots hole (slots next)) next e =
      Function.update slots hole e ∘ Equiv.swap hole next := by
    funext k
    rcases eq_or_ne k hole with rfl | notHole
    · simp [Function.update_of_ne moved.symm, Function.update_of_ne moved]
    rcases eq_or_ne k next with rfl | notNext
    · simp
    simp [Function.update_of_ne notHole, Function.update_of_ne notNext, Equiv.swap_apply_of_ne_of_ne notHole notNext]
  rw [exchanged, contents_comp_swap _ holeInside nextInside]

/-- A new last slot adds its node. -/
theorem contents_update_last (slots : Nat → α) (n : Nat) (e : α) :
    contents (Function.update slots n e) (n + 1) = contents slots n + {e} := by
  unfold contents
  rw [Multiset.range_succ, Multiset.map_cons, Function.update_self, Multiset.add_comm, Multiset.singleton_add]
  congr 1
  exact Multiset.map_congr rfl fun k inside => Function.update_of_ne (by rw [Multiset.mem_range] at inside; omega) _ _

/-- The slots below `n + 1` are those below `n` and the last. -/
theorem contents_succ (slots : Nat → α) (n : Nat) : contents slots (n + 1) = contents slots n + {slots n} := by
  unfold contents
  rw [Multiset.range_succ, Multiset.map_cons, Multiset.add_comm, Multiset.singleton_add]

/-- Moving the last slot into `hole` and dropping the last slot leaves the
contents without the node of `hole`. -/
theorem contents_replace_last (slots : Nat → α) {hole n : Nat} (holeInside : hole < n) :
    contents (Function.update slots hole (slots n)) n + {slots hole} = contents slots (n + 1) := by
  rw [← contents_update_last, contents_move _ _ (by omega) (Nat.lt_succ_self n) (by omega), Function.update_eq_self]

theorem mem_contents {c : α} : c ∈ contents slots n ↔ ∃ i, i < n ∧ slots i = c := by
  simp [contents]

/-- The slots below `n` are the same for two functions that agree below `n`. -/
theorem contents_congr {slots slots' : Nat → α} (agree : ∀ i, i < n → slots' i = slots i) :
    contents slots' n = contents slots n :=
  Multiset.map_congr rfl fun k inside => agree k (Multiset.mem_range.1 inside)

end BinaryHeap
