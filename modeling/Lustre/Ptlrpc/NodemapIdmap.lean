import Mathlib.Data.Set.Basic
import Mathlib.Data.List.Nodup
import Lustre.Library.SearchTree
import Lustre.Library.Run

/-!
# Nodemap id maps

A nodemap maps the user and group ids of its clients to those of the
filesystem (ptlrpc/nodemap_idmap.c, nodemap_handler.c).  For each id type it
keeps one `struct lu_idmap` per mapping, linked into two red-black trees: the
forward tree `nm_client_to_fs_*map` keyed by the client id and the backward tree
`nm_fs_to_client_*map` keyed by the filesystem id.  `nodemap_map_id` searches the
forward tree to map a client id in and the backward tree to map a filesystem id
out.

What the trees are for is a one-to-one correspondence between client ids and
filesystem ids, `PartialBij`: adding a pair first drops every pair of either id.
The trees always hold the same objects, each once (`linked_of_run`), and as long
as no added pair collides with a different pair of the map, they stand for the
correspondence and `nodemap_map_id` follows it (`represents_of_run`).
`idmap_insert` handles a collision by putting the new object in the place of the
colliding one in both trees, whatever the new object's other id is: the tree it
was not found in stops being a search tree, and ids mapped in it can no longer
be found.
-/

namespace Lustre
namespace Ptlrpc

open SearchTree

/-! ## What the id maps are for -/

/-- A one-to-one correspondence between some `α`s and some `β`s. -/
structure PartialBij (α β : Type*) where
  pairs : Set (α × β)
  left_unique : ∀ {a b b'}, (a, b) ∈ pairs → (a, b') ∈ pairs → b = b'
  right_unique : ∀ {a a' b}, (a, b) ∈ pairs → (a', b) ∈ pairs → a = a'

namespace PartialBij

variable {α β : Type*}

/-- No pair. -/
def empty : PartialBij α β where
  pairs := ∅
  left_unique := fun absent => absent.elim
  right_unique := fun absent => absent.elim

/-- Pair `a` with `b`, after dropping every pair of `a` and every pair of `b`. -/
def add (m : PartialBij α β) (a : α) (b : β) : PartialBij α β where
  pairs := {p | p = (a, b) ∨ (p ∈ m.pairs ∧ p.1 ≠ a ∧ p.2 ≠ b)}
  left_unique := by
    rintro x y y' (same | ⟨kept, other, -⟩) (same' | ⟨kept', other', -⟩)
    · cases same; cases same'; rfl
    · cases same; exact absurd rfl other'
    · cases same'; exact absurd rfl other
    · exact m.left_unique kept kept'
  right_unique := by
    rintro x x' y (same | ⟨kept, -, other⟩) (same' | ⟨kept', -, other'⟩)
    · cases same; cases same'; rfl
    · cases same; exact absurd rfl other'
    · cases same'; exact absurd rfl other
    · exact m.right_unique kept kept'

/-- Drop the pair of `a`. -/
def eraseLeft (m : PartialBij α β) (a : α) : PartialBij α β where
  pairs := {p | p ∈ m.pairs ∧ p.1 ≠ a}
  left_unique := fun kept kept' => m.left_unique kept.1 kept'.1
  right_unique := fun kept kept' => m.right_unique kept.1 kept'.1

@[simp] theorem not_mem_empty (p : α × β) : p ∉ (empty : PartialBij α β).pairs := id

@[simp] theorem mem_add {m : PartialBij α β} {a : α} {b : β} {p : α × β} :
    p ∈ (m.add a b).pairs ↔ p = (a, b) ∨ (p ∈ m.pairs ∧ p.1 ≠ a ∧ p.2 ≠ b) := Iff.rfl

@[simp] theorem mem_eraseLeft {m : PartialBij α β} {a : α} {p : α × β} :
    p ∈ (m.eraseLeft a).pairs ↔ p ∈ m.pairs ∧ p.1 ≠ a := Iff.rfl

/-- `a` and `b` can be paired without dropping another pair: each is unpaired or
paired with the other. -/
def Fits (m : PartialBij α β) (a : α) (b : β) : Prop :=
  (∀ b', (a, b') ∈ m.pairs → b' = b) ∧ ∀ a', (a', b) ∈ m.pairs → a' = a

end PartialBij

/-! ## The model -/

/-- `enum nodemap_id_type`. -/
inductive NodemapIdType
  | uid
  | gid
  deriving DecidableEq

/-- `enum nodemap_tree_type`. -/
inductive NodemapTreeType
  | fsToClient
  | clientToFs
  deriving DecidableEq

/-- `struct lu_idmap`: a client id and a filesystem id.  `ptr` is the address of
the object, by which `rb_replace_node` and `rb_erase` find its nodes. -/
structure LuIdmap where
  ptr : Nat
  idClient : Nat
  idFs : Nat
  deriving DecidableEq

/-- The two trees of one id type: forward, keyed by the client id, and backward,
keyed by the filesystem id. -/
structure IdmapTrees where
  fwd : SearchTree.Tree LuIdmap
  bck : SearchTree.Tree LuIdmap

/-- The fields of `struct lu_nodemap` the id maps use. -/
structure LuNodemap where
  nmId : Nat
  nmClientToFsUidmap : SearchTree.Tree LuIdmap
  nmFsToClientUidmap : SearchTree.Tree LuIdmap
  nmClientToFsGidmap : SearchTree.Tree LuIdmap
  nmFsToClientGidmap : SearchTree.Tree LuIdmap
  nmSquashUid : Nat
  nmSquashGid : Nat
  nmfAllowRootAccess : Bool
  nmfTrustClientIds : Bool

def einval : Int := 22

/-- `is_default_nodemap`. -/
def isDefaultNodemap (nodemap : LuNodemap) : Bool := nodemap.nmId == 0

/-- The trees of an id type, as `idmap_insert` and `idmap_delete` pick them. -/
def LuNodemap.roots (nodemap : LuNodemap) : NodemapIdType → IdmapTrees
  | .uid => ⟨nodemap.nmClientToFsUidmap, nodemap.nmFsToClientUidmap⟩
  | .gid => ⟨nodemap.nmClientToFsGidmap, nodemap.nmFsToClientGidmap⟩

/-- Store the trees of an id type. -/
def LuNodemap.setRoots (nodemap : LuNodemap) : NodemapIdType → IdmapTrees → LuNodemap
  | .uid, trees => { nodemap with
      nmClientToFsUidmap := trees.fwd
      nmFsToClientUidmap := trees.bck }
  | .gid, trees => { nodemap with
      nmClientToFsGidmap := trees.fwd
      nmFsToClientGidmap := trees.bck }

/-- The squash id of an id type. -/
def LuNodemap.squashId (nodemap : LuNodemap) : NodemapIdType → Nat
  | .uid => nodemap.nmSquashUid
  | .gid => nodemap.nmSquashGid

@[simp] theorem LuNodemap.roots_setRoots (nodemap : LuNodemap) (idType : NodemapIdType)
    (trees : IdmapTrees) : (nodemap.setRoots idType trees).roots idType = trees := by
  cases idType <;> rfl

theorem LuNodemap.roots_setRoots_of_ne (nodemap : LuNodemap) {idType other : NodemapIdType}
    (trees : IdmapTrees) (differ : other ≠ idType) :
    (nodemap.setRoots idType trees).roots other = nodemap.roots other := by
  cases idType <;> cases other <;> first | rfl | exact absurd rfl differ

@[simp] theorem LuNodemap.nmId_setRoots (nodemap : LuNodemap) (idType : NodemapIdType)
    (trees : IdmapTrees) : (nodemap.setRoots idType trees).nmId = nodemap.nmId := by
  cases idType <;> rfl

/-- `idmap_insert`: look the client id up in the forward tree and, when it is not
there, the filesystem id in the backward tree.  With no hit the new object is
linked into both trees; with a hit `cur` it takes the place of `cur` in both. -/
def idmapInsert (idType : NodemapIdType) (idmap : LuIdmap) (nodemap : LuNodemap) : LuNodemap :=
  let roots := nodemap.roots idType
  let cur := match roots.fwd.search LuIdmap.idClient idmap.idClient with
    | some cur => some cur
    | none => roots.bck.search LuIdmap.idFs idmap.idFs
  match cur with
  | none => nodemap.setRoots idType
      ⟨roots.fwd.link LuIdmap.idClient idmap, roots.bck.link LuIdmap.idFs idmap⟩
  | some cur => nodemap.setRoots idType
      ⟨roots.fwd.replace (·.ptr == cur.ptr) idmap, roots.bck.replace (·.ptr == cur.ptr) idmap⟩

/-- With neither search hitting, `idmap_insert` links the new object into both trees. -/
theorem idmapInsert_of_not_found {idType : NodemapIdType} {idmap : LuIdmap} {nodemap : LuNodemap}
    (missing : ((nodemap.roots idType).fwd.search LuIdmap.idClient idmap.idClient).or
      ((nodemap.roots idType).bck.search LuIdmap.idFs idmap.idFs) = none) :
    idmapInsert idType idmap nodemap = nodemap.setRoots idType
      ⟨(nodemap.roots idType).fwd.link LuIdmap.idClient idmap,
        (nodemap.roots idType).bck.link LuIdmap.idFs idmap⟩ := by
  obtain ⟨missFwd, missBck⟩ := Option.or_eq_none_iff.mp missing
  simp only [idmapInsert, missFwd, missBck]

/-- With a search hitting `cur`, `idmap_insert` puts the new object in its place. -/
theorem idmapInsert_of_found {idType : NodemapIdType} {idmap cur : LuIdmap} {nodemap : LuNodemap}
    (found : ((nodemap.roots idType).fwd.search LuIdmap.idClient idmap.idClient).or
      ((nodemap.roots idType).bck.search LuIdmap.idFs idmap.idFs) = some cur) :
    idmapInsert idType idmap nodemap = nodemap.setRoots idType
      ⟨(nodemap.roots idType).fwd.replace (·.ptr == cur.ptr) idmap,
        (nodemap.roots idType).bck.replace (·.ptr == cur.ptr) idmap⟩ := by
  rcases Option.or_eq_some_iff.mp found with hitFwd | ⟨missFwd, hitBck⟩
  · simp only [idmapInsert, hitFwd]
  · simp only [idmapInsert, missFwd, hitBck]

/-- `idmap_insert` stores new trees for its id type and nothing else. -/
theorem idmapInsert_eq_setRoots (idType : NodemapIdType) (idmap : LuIdmap) (nodemap : LuNodemap) :
    ∃ trees, idmapInsert idType idmap nodemap = nodemap.setRoots idType trees := by
  cases lookup : ((nodemap.roots idType).fwd.search LuIdmap.idClient idmap.idClient).or
      ((nodemap.roots idType).bck.search LuIdmap.idFs idmap.idFs) with
  | none => exact ⟨_, idmapInsert_of_not_found lookup⟩
  | some cur => exact ⟨_, idmapInsert_of_found lookup⟩

/-- `idmap_delete`: `rb_erase` the object's node from both trees. -/
def idmapDelete (idType : NodemapIdType) (idmap : LuIdmap) (nodemap : LuNodemap) : LuNodemap :=
  let roots := nodemap.roots idType
  nodemap.setRoots idType
    ⟨roots.fwd.erase (·.ptr == idmap.ptr), roots.bck.erase (·.ptr == idmap.ptr)⟩

/-- `idmap_search`: descend the backward tree by filesystem id or the forward
tree by client id. -/
def idmapSearch (nodemap : LuNodemap) (treeType : NodemapTreeType) (idType : NodemapIdType)
    (id : Nat) : Option LuIdmap :=
  match treeType with
  | .fsToClient => (nodemap.roots idType).bck.search LuIdmap.idFs id
  | .clientToFs => (nodemap.roots idType).fwd.search LuIdmap.idClient id

theorem idmapSearch_fsToClient (nodemap : LuNodemap) (idType : NodemapIdType) (id : Nat) :
    idmapSearch nodemap .fsToClient idType id = (nodemap.roots idType).bck.search LuIdmap.idFs id :=
  rfl

theorem idmapSearch_clientToFs (nodemap : LuNodemap) (idType : NodemapIdType) (id : Nat) :
    idmapSearch nodemap .clientToFs idType id = (nodemap.roots idType).fwd.search LuIdmap.idClient id :=
  rfl

/-- A nodemap and the allocator of `lu_idmap` objects: `nextPtr` is the address the
next `idmap_create` returns. -/
structure IdmapState where
  nodemap : LuNodemap
  nextPtr : Nat

/-- `nodemap_add_idmap_helper`: `idmap_create` and `idmap_insert` under the lock. -/
def nodemapAddIdmapHelper (st : IdmapState) (idType : NodemapIdType) (map : Nat × Nat) :
    IdmapState :=
  ⟨idmapInsert idType ⟨st.nextPtr, map.1, map.2⟩ st.nodemap, st.nextPtr + 1⟩

@[simp] theorem nodemapAddIdmapHelper_nodemap (st : IdmapState) (idType : NodemapIdType)
    (map : Nat × Nat) :
    (nodemapAddIdmapHelper st idType map).nodemap =
      idmapInsert idType ⟨st.nextPtr, map.1, map.2⟩ st.nodemap := rfl

@[simp] theorem nodemapAddIdmapHelper_nextPtr (st : IdmapState) (idType : NodemapIdType)
    (map : Nat × Nat) : (nodemapAddIdmapHelper st idType map).nextPtr = st.nextPtr + 1 := rfl

/-- `nodemap_add_idmap` on a nodemap found by name. -/
def nodemapAddIdmap (st : IdmapState) (idType : NodemapIdType) (map : Nat × Nat) :
    Except Int IdmapState :=
  if isDefaultNodemap st.nodemap then .error (-einval)
  else .ok (nodemapAddIdmapHelper st idType map)

theorem nodemapAddIdmap_eq (st : IdmapState) (idType : NodemapIdType) (map : Nat × Nat) :
    nodemapAddIdmap st idType map =
      if isDefaultNodemap st.nodemap then .error (-einval)
      else .ok (nodemapAddIdmapHelper st idType map) := rfl

/-- `nodemap_del_idmap`: find the object by client id in the forward tree and
delete it. -/
def nodemapDelIdmap (st : IdmapState) (idType : NodemapIdType) (map : Nat × Nat) :
    Except Int IdmapState :=
  if isDefaultNodemap st.nodemap then .error (-einval)
  else match idmapSearch st.nodemap .clientToFs idType map.1 with
    | none => .error (-einval)
    | some idmap => .ok { st with nodemap := idmapDelete idType idmap st.nodemap }

theorem nodemapDelIdmap_eq (st : IdmapState) (idType : NodemapIdType) (map : Nat × Nat) :
    nodemapDelIdmap st idType map =
      if isDefaultNodemap st.nodemap then .error (-einval)
      else match idmapSearch st.nodemap .clientToFs idType map.1 with
        | none => .error (-einval)
        | some idmap => .ok { st with nodemap := idmapDelete idType idmap st.nodemap } := rfl

/-- `nodemap_map_id`. -/
def nodemapMapId (nodemapActive : Bool) (nodemap : LuNodemap) (idType : NodemapIdType)
    (treeType : NodemapTreeType) (id : Nat) : Nat :=
  if !nodemapActive then id
  else if id = 0 then (if nodemap.nmfAllowRootAccess then id else nodemap.squashId idType)
  else if nodemap.nmfTrustClientIds then id
  else if isDefaultNodemap nodemap then nodemap.squashId idType
  else match idmapSearch nodemap treeType idType id with
    | none => nodemap.squashId idType
    | some idmap =>
      match treeType with
      | .fsToClient => idmap.idClient
      | .clientToFs => idmap.idFs

/-! ## Runs -/

/-- A request on the id maps of a nodemap: `nodemap_add_idmap` or
`nodemap_del_idmap` (whose filesystem id nothing reads). -/
inductive IdmapEvent
  | add (idType : NodemapIdType) (clientId fsId : Nat)
  | del (idType : NodemapIdType) (clientId : Nat)

/-- One request; a request that fails leaves the state as it was. -/
def IdmapState.step (st : IdmapState) : IdmapEvent → IdmapState
  | .add idType clientId fsId =>
    match nodemapAddIdmap st idType (clientId, fsId) with
    | .ok next => next
    | .error _ => st
  | .del idType clientId =>
    match nodemapDelIdmap st idType (clientId, 0) with
    | .ok next => next
    | .error _ => st

theorem IdmapState.step_add_eq (st : IdmapState) (idType : NodemapIdType) (clientId fsId : Nat) :
    st.step (.add idType clientId fsId) =
      match nodemapAddIdmap st idType (clientId, fsId) with
      | .ok next => next
      | .error _ => st := rfl

theorem IdmapState.step_del_eq (st : IdmapState) (idType : NodemapIdType) (clientId : Nat) :
    st.step (.del idType clientId) =
      match nodemapDelIdmap st idType (clientId, 0) with
      | .ok next => next
      | .error _ => st := rfl

theorem IdmapState.step_add {st : IdmapState} (nonDefault : isDefaultNodemap st.nodemap = false)
    (idType : NodemapIdType) (clientId fsId : Nat) :
    st.step (.add idType clientId fsId) = nodemapAddIdmapHelper st idType (clientId, fsId) := by
  simp [IdmapState.step_add_eq, nodemapAddIdmap_eq, nonDefault]

theorem IdmapState.step_del {st : IdmapState} (nonDefault : isDefaultNodemap st.nodemap = false)
    (idType : NodemapIdType) (clientId : Nat) :
    st.step (.del idType clientId) =
      match idmapSearch st.nodemap .clientToFs idType clientId with
      | none => st
      | some idmap => { st with nodemap := idmapDelete idType idmap st.nodemap } := by
  cases found : idmapSearch st.nodemap .clientToFs idType clientId <;>
    simp [IdmapState.step_del_eq, nodemapDelIdmap_eq, nonDefault, found]

theorem roots_idmapInsert_of_ne {idType other : NodemapIdType} (differ : other ≠ idType)
    (idmap : LuIdmap) (nodemap : LuNodemap) :
    (idmapInsert idType idmap nodemap).roots other = nodemap.roots other := by
  obtain ⟨trees, inserted⟩ := idmapInsert_eq_setRoots idType idmap nodemap
  rw [inserted]
  exact LuNodemap.roots_setRoots_of_ne _ _ differ

theorem roots_idmapDelete_of_ne {idType other : NodemapIdType} (differ : other ≠ idType)
    (idmap : LuIdmap) (nodemap : LuNodemap) :
    (idmapDelete idType idmap nodemap).roots other = nodemap.roots other :=
  LuNodemap.roots_setRoots_of_ne _ _ differ

theorem isDefaultNodemap_setRoots (nodemap : LuNodemap) (idType : NodemapIdType)
    (trees : IdmapTrees) : isDefaultNodemap (nodemap.setRoots idType trees) = isDefaultNodemap nodemap := by
  cases idType <;> rfl

theorem isDefaultNodemap_idmapInsert (idType : NodemapIdType) (idmap : LuIdmap) (nodemap : LuNodemap) :
    isDefaultNodemap (idmapInsert idType idmap nodemap) = isDefaultNodemap nodemap := by
  obtain ⟨trees, inserted⟩ := idmapInsert_eq_setRoots idType idmap nodemap
  rw [inserted, isDefaultNodemap_setRoots]

theorem isDefaultNodemap_idmapDelete (idType : NodemapIdType) (idmap : LuIdmap) (nodemap : LuNodemap) :
    isDefaultNodemap (idmapDelete idType idmap nodemap) = isDefaultNodemap nodemap :=
  isDefaultNodemap_setRoots _ _ _

/-! ## The trees hold the same objects -/

/-- The trees of one id type hold the same objects, each once, all allocated
below `nextPtr`. -/
structure IdmapTrees.Linked (trees : IdmapTrees) (nextPtr : Nat) : Prop where
  sameObjects : trees.fwd.toList.Perm trees.bck.toList
  nodupPtr : (trees.fwd.toList.map LuIdmap.ptr).Nodup
  allocated : ∀ idmap ∈ trees.fwd.toList, idmap.ptr < nextPtr

/-- Every id type of the nodemap has its trees linked. -/
def IdmapState.Linked (st : IdmapState) : Prop :=
  ∀ idType, (st.nodemap.roots idType).Linked st.nextPtr

namespace IdmapTrees.Linked

variable {trees : IdmapTrees} {nextPtr : Nat}

theorem mono (linked : trees.Linked nextPtr) {later : Nat} (le : nextPtr ≤ later) :
    trees.Linked later :=
  ⟨linked.sameObjects, linked.nodupPtr, fun idmap mem => (linked.allocated idmap mem).trans_le le⟩

/-- An object in the tree is the only one with its address. -/
theorem eq_of_ptr (linked : trees.Linked nextPtr) {idmap other : LuIdmap}
    (mem : idmap ∈ trees.fwd.toList) (memOther : other ∈ trees.fwd.toList) (samePtr : other.ptr = idmap.ptr) :
    other = idmap :=
  List.inj_on_of_nodup_map linked.nodupPtr memOther mem samePtr

/-- A fresh object linked into both trees. -/
theorem link (linked : trees.Linked nextPtr) (clientId fsId : Nat) :
    IdmapTrees.Linked ⟨trees.fwd.link LuIdmap.idClient ⟨nextPtr, clientId, fsId⟩,
      trees.bck.link LuIdmap.idFs ⟨nextPtr, clientId, fsId⟩⟩ (nextPtr + 1) := by
  have fresh : nextPtr ∉ trees.fwd.toList.map LuIdmap.ptr := by
    simp only [List.mem_map, not_exists, not_and]
    intro idmap mem samePtr
    exact absurd (linked.allocated idmap mem) (by omega)
  refine ⟨?_, ?_, ?_⟩
  · exact (Tree.toList_link_perm _ _).trans
      ((linked.sameObjects.cons _).trans (Tree.toList_link_perm _ _).symm)
  · rw [((Tree.toList_link_perm _ _).map LuIdmap.ptr).nodup_iff, List.map_cons, List.nodup_cons]
    exact ⟨fresh, linked.nodupPtr⟩
  · intro idmap mem
    rcases Tree.mem_link.mp mem with rfl | old
    · exact Nat.lt_succ_self _
    · exact (linked.allocated idmap old).trans (Nat.lt_succ_self _)

/-- A fresh object put in the place of another in both trees. -/
theorem replace (linked : trees.Linked nextPtr) (cur : LuIdmap) (clientId fsId : Nat) :
    IdmapTrees.Linked ⟨trees.fwd.replace (·.ptr == cur.ptr) ⟨nextPtr, clientId, fsId⟩,
      trees.bck.replace (·.ptr == cur.ptr) ⟨nextPtr, clientId, fsId⟩⟩ (nextPtr + 1) := by
  refine ⟨?_, ?_, ?_⟩
  · simp only [Tree.toList_replace]
    exact linked.sameObjects.map _
  · -- the new address is fresh and takes the place of the one address of `cur`
    simp only [Tree.toList_replace, List.map_map]
    refine List.Nodup.map_on (fun x memX y memY same => ?_) (linked.nodupPtr.of_map _)
    have sameObject : x.ptr = y.ptr → x = y := fun samePtr =>
      List.inj_on_of_nodup_map linked.nodupPtr memX memY samePtr
    have freshX := linked.allocated x memX
    have freshY := linked.allocated y memY
    by_cases pickedX : x.ptr = cur.ptr <;> by_cases pickedY : y.ptr = cur.ptr <;>
      simp [pickedX, pickedY] at same
    · exact sameObject (pickedX.trans pickedY.symm)
    · omega
    · omega
    · exact sameObject same
  · intro idmap mem
    simp only [Tree.toList_replace, List.mem_map] at mem
    obtain ⟨old, memOld, rfl⟩ := mem
    split
    · exact Nat.lt_succ_self _
    · exact (linked.allocated old memOld).trans (Nat.lt_succ_self _)

/-- The object of an address taken out of both trees. -/
theorem erase (linked : trees.Linked nextPtr) (ptr : Nat) :
    IdmapTrees.Linked ⟨trees.fwd.erase (·.ptr == ptr), trees.bck.erase (·.ptr == ptr)⟩ nextPtr := by
  refine ⟨?_, ?_, ?_⟩
  · simp only [Tree.toList_erase]
    exact linked.sameObjects.filter _
  · simp only [Tree.toList_erase]
    exact linked.nodupPtr.sublist (List.filter_sublist.map _)
  · intro idmap mem
    simp only [Tree.toList_erase, List.mem_filter] at mem
    exact linked.allocated idmap mem.1

end IdmapTrees.Linked

namespace IdmapState.Linked

variable {st : IdmapState}

theorem nodemapAddIdmapHelper (linked : st.Linked) (idType : NodemapIdType) (map : Nat × Nat) :
    (Ptlrpc.nodemapAddIdmapHelper st idType map).Linked := by
  intro other
  rw [nodemapAddIdmapHelper_nodemap, nodemapAddIdmapHelper_nextPtr]
  by_cases same : other = idType
  · subst same
    cases lookup : ((st.nodemap.roots other).fwd.search LuIdmap.idClient map.1).or
        ((st.nodemap.roots other).bck.search LuIdmap.idFs map.2) with
    | none =>
      rw [idmapInsert_of_not_found lookup, LuNodemap.roots_setRoots]
      exact (linked other).link map.1 map.2
    | some cur =>
      rw [idmapInsert_of_found lookup, LuNodemap.roots_setRoots]
      exact (linked other).replace _ map.1 map.2
  · -- the trees of the other id type are left as they were
    rw [roots_idmapInsert_of_ne same]
    exact (linked other).mono (Nat.le_succ _)

theorem idmapDelete (linked : st.Linked) (idType : NodemapIdType) (idmap : LuIdmap) :
    IdmapState.Linked { st with nodemap := Ptlrpc.idmapDelete idType idmap st.nodemap } := by
  intro other
  simp only [Ptlrpc.idmapDelete]
  by_cases same : other = idType
  · subst same
    rw [LuNodemap.roots_setRoots]
    exact (linked other).erase idmap.ptr
  · rw [LuNodemap.roots_setRoots_of_ne _ _ same]
    exact linked other

/-- Every request keeps the trees linked. -/
theorem step (linked : st.Linked) : ∀ event, (st.step event).Linked
  | .add idType clientId fsId => by
    by_cases isDefault : isDefaultNodemap st.nodemap = true
    · simpa [IdmapState.step_add_eq, nodemapAddIdmap_eq, isDefault] using linked
    · simpa [IdmapState.step_add_eq, nodemapAddIdmap_eq, isDefault] using linked.nodemapAddIdmapHelper idType _
  | .del idType clientId => by
    by_cases isDefault : isDefaultNodemap st.nodemap = true
    · simpa [IdmapState.step_del_eq, nodemapDelIdmap_eq, isDefault] using linked
    · cases found : idmapSearch st.nodemap .clientToFs idType clientId with
      | none => simpa [IdmapState.step_del_eq, nodemapDelIdmap_eq, isDefault, found] using linked
      | some idmap =>
        simpa [IdmapState.step_del_eq, nodemapDelIdmap_eq, isDefault, found] using linked.idmapDelete idType idmap

end IdmapState.Linked

theorem IdmapState.linked_of_empty {nodemap : LuNodemap}
    (empty : ∀ idType, nodemap.roots idType = ⟨.leaf, .leaf⟩) : IdmapState.Linked ⟨nodemap, 0⟩ := by
  intro idType
  rw [empty idType]
  exact ⟨List.Perm.refl _, List.nodup_nil, fun _ absent => absurd absent List.not_mem_nil⟩

/-- From a nodemap with empty trees, after every run of requests the trees of each
id type hold the same objects, each once. -/
theorem linked_of_run {nodemap : LuNodemap}
    (empty : ∀ idType, nodemap.roots idType = ⟨.leaf, .leaf⟩) (events : List IdmapEvent) :
    (Machine.run IdmapState.step ⟨nodemap, 0⟩ events).Linked :=
  (Machine.Reachable.start.run events).invariant IdmapState.Linked (IdmapState.linked_of_empty empty)
    (fun _ event linked _ => linked.step event)

/-! ## The trees stand for the correspondence -/

/-- The trees of one id type stand for `m`: each is a search tree over its key,
and the pairs of ids of their objects are those of `m`. -/
structure IdmapTrees.Represents (trees : IdmapTrees) (m : PartialBij Nat Nat) : Prop where
  fwdOrdered : trees.fwd.Ordered LuIdmap.idClient
  bckOrdered : trees.bck.Ordered LuIdmap.idFs
  pairs : ∀ c f, (c, f) ∈ m.pairs ↔ ∃ idmap ∈ trees.fwd.toList, idmap.idClient = c ∧ idmap.idFs = f

namespace IdmapTrees.Represents

variable {trees : IdmapTrees} {m : PartialBij Nat Nat} {nextPtr : Nat}

theorem paired (represents : trees.Represents m) {idmap : LuIdmap} (mem : idmap ∈ trees.fwd.toList) :
    (idmap.idClient, idmap.idFs) ∈ m.pairs :=
  (represents.pairs _ _).mpr ⟨idmap, mem, rfl, rfl⟩

/-- The forward search finds the object of a paired client id. -/
theorem search_fwd (represents : trees.Represents m) {c f : Nat} (isPaired : (c, f) ∈ m.pairs) :
    ∃ idmap ∈ trees.fwd.toList, trees.fwd.search LuIdmap.idClient c = some idmap ∧
      idmap.idClient = c ∧ idmap.idFs = f := by
  obtain ⟨idmap, mem, rfl, rfl⟩ := (represents.pairs c f).mp isPaired
  exact ⟨idmap, mem, represents.fwdOrdered.search_of_mem mem, rfl, rfl⟩

/-- The backward search finds the object of a paired filesystem id. -/
theorem search_bck (represents : trees.Represents m) (linked : trees.Linked nextPtr) {c f : Nat}
    (isPaired : (c, f) ∈ m.pairs) :
    ∃ idmap, trees.bck.search LuIdmap.idFs f = some idmap ∧ idmap.idClient = c ∧ idmap.idFs = f := by
  obtain ⟨idmap, mem, rfl, rfl⟩ := (represents.pairs c f).mp isPaired
  exact ⟨idmap, represents.bckOrdered.search_of_mem (linked.sameObjects.subset mem), rfl, rfl⟩

theorem search_fwd_eq_none (represents : trees.Represents m) {c : Nat}
    (unpaired : ∀ f, (c, f) ∉ m.pairs) : trees.fwd.search LuIdmap.idClient c = none :=
  Tree.search_eq_none fun idmap mem same => unpaired idmap.idFs (same ▸ represents.paired mem)

theorem search_bck_eq_none (represents : trees.Represents m) (linked : trees.Linked nextPtr) {f : Nat}
    (unpaired : ∀ c, (c, f) ∉ m.pairs) : trees.bck.search LuIdmap.idFs f = none :=
  Tree.search_eq_none fun idmap mem same =>
    unpaired idmap.idClient (same ▸ represents.paired (linked.sameObjects.symm.subset mem))

/-- Dropping the pair of an unpaired id changes nothing. -/
theorem eraseLeft_of_unpaired (represents : trees.Represents m) {c : Nat}
    (unpaired : ∀ f, (c, f) ∉ m.pairs) : trees.Represents (m.eraseLeft c) := by
  refine ⟨represents.fwdOrdered, represents.bckOrdered, fun c' f => ?_⟩
  rw [PartialBij.mem_eraseLeft, ← represents.pairs]
  exact ⟨And.left, fun kept => ⟨kept, fun same => unpaired f (same ▸ kept)⟩⟩

/-- Linking an object of two unpaired ids adds their pair. -/
theorem link (represents : trees.Represents m) (linked : trees.Linked nextPtr) {c f : Nat}
    (clientFree : ∀ f', (c, f') ∉ m.pairs) (fsFree : ∀ c', (c', f) ∉ m.pairs) (ptr : Nat) :
    IdmapTrees.Represents ⟨trees.fwd.link LuIdmap.idClient ⟨ptr, c, f⟩,
      trees.bck.link LuIdmap.idFs ⟨ptr, c, f⟩⟩ (m.add c f) := by
  refine ⟨represents.fwdOrdered.link fun idmap mem same => ?_,
    represents.bckOrdered.link fun idmap mem same => ?_, fun c' f' => ?_⟩
  · have sameClient : idmap.idClient = c := same
    exact clientFree idmap.idFs (sameClient ▸ represents.paired mem)
  · have sameFs : idmap.idFs = f := same
    exact fsFree idmap.idClient (sameFs ▸ represents.paired (linked.sameObjects.symm.subset mem))
  · simp only [PartialBij.mem_add, Prod.mk.injEq, Tree.mem_link]
    constructor
    · rintro (⟨rfl, rfl⟩ | ⟨kept, -, -⟩)
      · exact ⟨_, .inl rfl, rfl, rfl⟩
      · obtain ⟨idmap, mem, same⟩ := (represents.pairs c' f').mp kept
        exact ⟨idmap, .inr mem, same⟩
    · rintro ⟨idmap, rfl | mem, rfl, rfl⟩
      · exact .inl ⟨rfl, rfl⟩
      · have kept := represents.paired mem
        refine .inr ⟨kept, fun same => clientFree _ (same ▸ kept), fun same => fsFree _ (same ▸ kept)⟩

/-- Putting an object of the same two ids in the place of one keeps the pairs. -/
theorem replace (represents : trees.Represents m) (linked : trees.Linked nextPtr) {cur : LuIdmap}
    (present : cur ∈ trees.fwd.toList) (ptr : Nat) :
    IdmapTrees.Represents ⟨trees.fwd.replace (·.ptr == cur.ptr) ⟨ptr, cur.idClient, cur.idFs⟩,
      trees.bck.replace (·.ptr == cur.ptr) ⟨ptr, cur.idClient, cur.idFs⟩⟩
      (m.add cur.idClient cur.idFs) := by
  -- only `cur` has its address, and the new object has its ids
  have onlyCur : ∀ z ∈ trees.fwd.toList, (z.ptr == cur.ptr) = true → z = cur := fun z mem picked =>
    linked.eq_of_ptr present mem (by simpa using picked)
  have sameIds : ∀ z ∈ trees.fwd.toList,
      (if (z.ptr == cur.ptr) = true then (⟨ptr, cur.idClient, cur.idFs⟩ : LuIdmap) else z).idClient =
        z.idClient ∧
      (if (z.ptr == cur.ptr) = true then (⟨ptr, cur.idClient, cur.idFs⟩ : LuIdmap) else z).idFs =
        z.idFs := by
    intro z mem
    split
    · obtain rfl := onlyCur z mem ‹_›
      exact ⟨rfl, rfl⟩
    · exact ⟨rfl, rfl⟩
  refine ⟨represents.fwdOrdered.replace fun z mem picked => ?_,
    represents.bckOrdered.replace fun z mem picked => ?_, fun c f => ?_⟩
  · rw [onlyCur z mem picked]
  · rw [onlyCur z (linked.sameObjects.symm.subset mem) picked]
  · have curPaired := represents.paired present
    have dropsNothing : (c, f) ∈ (m.add cur.idClient cur.idFs).pairs ↔ (c, f) ∈ m.pairs := by
      simp only [PartialBij.mem_add, Prod.mk.injEq]
      constructor
      · rintro (⟨rfl, rfl⟩ | ⟨kept, -, -⟩)
        · exact curPaired
        · exact kept
      · intro kept
        by_cases sameClient : c = cur.idClient
        · subst sameClient
          exact .inl ⟨rfl, m.left_unique kept curPaired⟩
        · refine .inr ⟨kept, sameClient, fun sameFs => sameClient ?_⟩
          subst sameFs
          exact m.right_unique kept curPaired
    rw [dropsNothing, represents.pairs, Tree.toList_replace]
    simp only [List.mem_map]
    constructor
    · rintro ⟨idmap, mem, rfl, rfl⟩
      exact ⟨_, ⟨idmap, mem, rfl⟩, (sameIds idmap mem).1, (sameIds idmap mem).2⟩
    · rintro ⟨_, ⟨idmap, mem, rfl⟩, rfl, rfl⟩
      exact ⟨idmap, mem, (sameIds idmap mem).1.symm, (sameIds idmap mem).2.symm⟩

/-- Erasing the object of a client id drops the pair of that id. -/
theorem erase (represents : trees.Represents m) (linked : trees.Linked nextPtr) {idmap : LuIdmap}
    (present : idmap ∈ trees.fwd.toList) :
    IdmapTrees.Represents ⟨trees.fwd.erase (·.ptr == idmap.ptr), trees.bck.erase (·.ptr == idmap.ptr)⟩
      (m.eraseLeft idmap.idClient) := by
  refine ⟨represents.fwdOrdered.erase _, represents.bckOrdered.erase _, fun c f => ?_⟩
  simp only [PartialBij.mem_eraseLeft, represents.pairs, Tree.toList_erase, List.mem_filter]
  constructor
  · rintro ⟨⟨other, mem, rfl, rfl⟩, otherClient⟩
    refine ⟨other, ⟨mem, ?_⟩, rfl, rfl⟩
    simp only [Bool.not_eq_eq_eq_not, Bool.not_true, beq_eq_false_iff_ne, ne_eq]
    intro samePtr
    exact otherClient (by rw [linked.eq_of_ptr present mem samePtr])
  · rintro ⟨other, ⟨mem, kept⟩, rfl, rfl⟩
    refine ⟨⟨other, mem, rfl, rfl⟩, fun sameClient => ?_⟩
    have same := represents.fwdOrdered.eq_of_key_eq mem present sameClient
    simp [same] at kept

end IdmapTrees.Represents

/-! ## Runs that follow the correspondence -/

/-- What the id maps of a nodemap are meant to be: a correspondence per id type. -/
abbrev IdMaps := NodemapIdType → PartialBij Nat Nat

/-- A request as it acts on the correspondences. -/
def IdMaps.step (maps : IdMaps) : IdmapEvent → IdMaps
  | .add idType clientId fsId => Function.update maps idType ((maps idType).add clientId fsId)
  | .del idType clientId => Function.update maps idType ((maps idType).eraseLeft clientId)

theorem IdMaps.step_add (maps : IdMaps) (idType : NodemapIdType) (clientId fsId : Nat) :
    maps.step (.add idType clientId fsId) =
      Function.update maps idType ((maps idType).add clientId fsId) := rfl

theorem IdMaps.step_del (maps : IdMaps) (idType : NodemapIdType) (clientId : Nat) :
    maps.step (.del idType clientId) =
      Function.update maps idType ((maps idType).eraseLeft clientId) := rfl

/-- A request that adds no pair colliding with a different pair. -/
def IdmapEvent.Fits (maps : IdMaps) : IdmapEvent → Prop
  | .add idType clientId fsId => (maps idType).Fits clientId fsId
  | .del _ _ => True

/-- The nodemap and the correspondences, each taking the same requests. -/
def pairedStep (state : IdmapState × IdMaps) (event : IdmapEvent) : IdmapState × IdMaps :=
  (state.1.step event, state.2.step event)

/-- A nodemap that is not the default one, with linked trees that stand for the
correspondences. -/
structure Stands (state : IdmapState × IdMaps) : Prop where
  nonDefault : isDefaultNodemap state.1.nodemap = false
  linked : state.1.Linked
  represents : ∀ idType, (state.1.nodemap.roots idType).Represents (state.2 idType)

/-- `idmap_insert` of a pair that fits the correspondence stands for the pair added. -/
theorem IdmapTrees.Represents.idmapInsert {nodemap : LuNodemap} {idType : NodemapIdType}
    {m : PartialBij Nat Nat} {nextPtr c f : Nat}
    (represents : (nodemap.roots idType).Represents m) (linked : (nodemap.roots idType).Linked nextPtr)
    (fits : m.Fits c f) :
    ((Ptlrpc.idmapInsert idType ⟨nextPtr, c, f⟩ nodemap).roots idType).Represents (m.add c f) := by
  by_cases isPaired : (c, f) ∈ m.pairs
  · -- the forward search hits the object of the very same pair
    obtain ⟨cur, present, found, rfl, rfl⟩ := represents.search_fwd isPaired
    rw [idmapInsert_of_found (show _ = some cur by simp [found]), LuNodemap.roots_setRoots]
    exact represents.replace linked present nextPtr
  · -- neither id is paired: both searches miss
    have clientFree : ∀ f', (c, f') ∉ m.pairs := fun f' paired' =>
      isPaired (fits.1 f' paired' ▸ paired')
    have fsFree : ∀ c', (c', f) ∉ m.pairs := fun c' paired' =>
      isPaired (fits.2 c' paired' ▸ paired')
    rw [idmapInsert_of_not_found (by simp [represents.search_fwd_eq_none clientFree,
      represents.search_bck_eq_none linked fsFree]), LuNodemap.roots_setRoots]
    exact represents.link linked clientFree fsFree nextPtr

/-- Every request that fits keeps the nodemap standing for the correspondences. -/
theorem Stands.step {state : IdmapState × IdMaps} (stands : Stands state) :
    ∀ event, event.Fits state.2 → Stands (pairedStep state event)
  | .add idType c f, fits => by
    obtain ⟨st, maps⟩ := state
    have added := IdmapState.step_add stands.nonDefault idType c f
    refine ⟨?_, stands.linked.step _, fun other => ?_⟩
    · simp only [pairedStep, added, nodemapAddIdmapHelper_nodemap, isDefaultNodemap_idmapInsert]
      exact stands.nonDefault
    · simp only [pairedStep, added, IdMaps.step_add, nodemapAddIdmapHelper_nodemap]
      by_cases same : other = idType
      · subst same
        rw [Function.update_self]
        exact (stands.represents other).idmapInsert (stands.linked other) fits
      · rw [Function.update_of_ne same, roots_idmapInsert_of_ne same]
        exact stands.represents other
  | .del idType c, _ => by
    obtain ⟨st, maps⟩ := state
    have deleted := IdmapState.step_del stands.nonDefault idType c
    refine ⟨?_, stands.linked.step _, fun other => ?_⟩
    · simp only [pairedStep, deleted]
      split
      · exact stands.nonDefault
      · simpa [isDefaultNodemap_idmapDelete] using stands.nonDefault
    · simp only [pairedStep, deleted, IdMaps.step_del]
      by_cases same : other = idType
      · subst same
        rw [Function.update_self]
        cases found : idmapSearch st.nodemap .clientToFs other c with
        | none =>
          -- no object of the client id: nothing is deleted, and nothing is to be
          have unpaired : ∀ f, (c, f) ∉ (maps other).pairs := fun f isPaired => by
            obtain ⟨_, -, hit, -⟩ := (stands.represents other).search_fwd isPaired
            simp [idmapSearch_clientToFs, hit] at found
          exact (stands.represents other).eraseLeft_of_unpaired unpaired
        | some idmap =>
          obtain ⟨present, rfl⟩ := Tree.search_spec found
          simp only [idmapDelete, LuNodemap.roots_setRoots]
          exact (stands.represents other).erase (stands.linked other) present
      · rw [Function.update_of_ne same]
        split
        · exact stands.represents other
        · rw [roots_idmapDelete_of_ne same]
          exact stands.represents other

/-- A nodemap other than the default one, with no id maps yet, squashing to 99. -/
def freshNodemap : LuNodemap := ⟨1, .leaf, .leaf, .leaf, .leaf, 99, 99, false, false⟩

/-- From a nodemap other than the default one with empty trees, on every run whose
added pairs collide with no other pair the nodemap stands for the correspondences
the requests build. -/
theorem stands_of_run {nodemap : LuNodemap} (nonDefault : isDefaultNodemap nodemap = false)
    (empty : ∀ idType, nodemap.roots idType = ⟨.leaf, .leaf⟩) {state : IdmapState × IdMaps}
    (reachable : Machine.Reachable pairedStep (fun state event => event.Fits state.2)
      (⟨nodemap, 0⟩, fun _ => PartialBij.empty) state) :
    Stands state := by
  refine reachable.invariant Stands ⟨nonDefault, IdmapState.linked_of_empty empty, fun idType => ?_⟩
    (fun _ event stands fits => stands.step event fits)
  rw [empty idType]
  exact ⟨List.Pairwise.nil, List.Pairwise.nil, by simp⟩

/-! ## Mapping ids -/

section MapId

variable {nodemap : LuNodemap} {idType : NodemapIdType} {m : PartialBij Nat Nat} {nextPtr : Nat}

/-- Past its first checks, `nodemap_map_id` answers from the search. -/
theorem nodemapMapId_of_search (nonDefault : isDefaultNodemap nodemap = false)
    (untrusted : nodemap.nmfTrustClientIds = false) (treeType : NodemapTreeType) {id : Nat} (nonzero : id ≠ 0) :
    nodemapMapId true nodemap idType treeType id =
      match idmapSearch nodemap treeType idType id with
      | none => nodemap.squashId idType
      | some idmap =>
        match treeType with
        | .fsToClient => idmap.idClient
        | .clientToFs => idmap.idFs := by
  simp [nodemapMapId, nonzero, untrusted, nonDefault]

/-- On trees that stand for a correspondence, an active nodemap that does not trust
client ids maps a nonzero client id to its filesystem id, and one with none to the
squash id. -/
theorem IdmapTrees.Represents.nodemapMapId_clientToFs (represents : (nodemap.roots idType).Represents m)
    (nonDefault : isDefaultNodemap nodemap = false) (untrusted : nodemap.nmfTrustClientIds = false)
    {c : Nat} (nonzero : c ≠ 0) :
    (∀ f, (c, f) ∈ m.pairs → nodemapMapId true nodemap idType .clientToFs c = f) ∧
      ((∀ f, (c, f) ∉ m.pairs) → nodemapMapId true nodemap idType .clientToFs c = nodemap.squashId idType) := by
  rw [nodemapMapId_of_search nonDefault untrusted _ nonzero]
  refine ⟨fun f isPaired => ?_, fun unpaired => ?_⟩
  · obtain ⟨idmap, -, found, -, rfl⟩ := represents.search_fwd isPaired
    simp [idmapSearch_clientToFs, found]
  · simp [idmapSearch_clientToFs, represents.search_fwd_eq_none unpaired]

/-- On trees that stand for a correspondence, an active nodemap that does not trust
client ids maps a nonzero filesystem id back to its client id, and one with none to
the squash id. -/
theorem IdmapTrees.Represents.nodemapMapId_fsToClient (represents : (nodemap.roots idType).Represents m)
    (linked : (nodemap.roots idType).Linked nextPtr)
    (nonDefault : isDefaultNodemap nodemap = false) (untrusted : nodemap.nmfTrustClientIds = false)
    {f : Nat} (nonzero : f ≠ 0) :
    (∀ c, (c, f) ∈ m.pairs → nodemapMapId true nodemap idType .fsToClient f = c) ∧
      ((∀ c, (c, f) ∉ m.pairs) → nodemapMapId true nodemap idType .fsToClient f = nodemap.squashId idType) := by
  rw [nodemapMapId_of_search nonDefault untrusted _ nonzero]
  refine ⟨fun c isPaired => ?_, fun unpaired => ?_⟩
  · obtain ⟨idmap, found, rfl, -⟩ := represents.search_bck linked isPaired
    simp [idmapSearch_fsToClient, found]
  · simp [idmapSearch_fsToClient, represents.search_bck_eq_none linked unpaired]

/-- The requests change only the trees: whether client ids are trusted and the
squash ids stay as they were. -/
theorem IdmapState.step_settings (st : IdmapState) (event : IdmapEvent) :
    (st.step event).nodemap.nmfTrustClientIds = st.nodemap.nmfTrustClientIds ∧
      (st.step event).nodemap.squashId = st.nodemap.squashId := by
  have kept : ∀ idType trees, (st.nodemap.setRoots idType trees).nmfTrustClientIds =
      st.nodemap.nmfTrustClientIds ∧ (st.nodemap.setRoots idType trees).squashId = st.nodemap.squashId := by
    intro idType trees
    cases idType <;> exact ⟨rfl, funext fun other => by cases other <;> rfl⟩
  cases event with
  | add idType c f =>
    by_cases isDefault : isDefaultNodemap st.nodemap
    · simp [IdmapState.step_add_eq, nodemapAddIdmap_eq, isDefault]
    · rw [IdmapState.step_add (by simpa using isDefault)]
      obtain ⟨trees, inserted⟩ := idmapInsert_eq_setRoots idType ⟨st.nextPtr, c, f⟩ st.nodemap
      rw [nodemapAddIdmapHelper_nodemap, inserted]
      exact kept _ _
  | del idType c =>
    by_cases isDefault : isDefaultNodemap st.nodemap
    · simp [IdmapState.step_del_eq, nodemapDelIdmap_eq, isDefault]
    · rw [IdmapState.step_del (by simpa using isDefault)]
      split
      · exact ⟨rfl, rfl⟩
      · exact kept _ _

/-- From a nodemap other than the default one, with empty trees, that does not
trust client ids: on every run whose added pairs collide with no other pair,
`nodemap_map_id` maps a nonzero client id to the filesystem id the requests
paired it with and that filesystem id back to it, and a nonzero client id the
requests left unpaired to the nodemap's squash id. -/
theorem nodemapMapId_of_run (nonDefault : isDefaultNodemap nodemap = false)
    (empty : ∀ idType, nodemap.roots idType = ⟨.leaf, .leaf⟩) (untrusted : nodemap.nmfTrustClientIds = false)
    {state : IdmapState × IdMaps}
    (reachable : Machine.Reachable pairedStep (fun state event => event.Fits state.2)
      (⟨nodemap, 0⟩, fun _ => PartialBij.empty) state)
    (idType : NodemapIdType) {c f : Nat} (clientNonzero : c ≠ 0) (fsNonzero : f ≠ 0) :
    ((c, f) ∈ (state.2 idType).pairs →
        nodemapMapId true state.1.nodemap idType .clientToFs c = f ∧
          nodemapMapId true state.1.nodemap idType .fsToClient f = c) ∧
      ((∀ f', (c, f') ∉ (state.2 idType).pairs) →
        nodemapMapId true state.1.nodemap idType .clientToFs c = nodemap.squashId idType) := by
  have stands := stands_of_run nonDefault empty reachable
  -- the flags the trees do not hold are those of the starting nodemap
  have settings : state.1.nodemap.nmfTrustClientIds = false ∧
      state.1.nodemap.squashId = nodemap.squashId :=
    reachable.invariant
      (fun state => state.1.nodemap.nmfTrustClientIds = false ∧ state.1.nodemap.squashId = nodemap.squashId)
      ⟨untrusted, rfl⟩ fun before event holds _ => by
        obtain ⟨trust, squash⟩ := IdmapState.step_settings before.1 event
        exact ⟨trust.trans holds.1, squash.trans holds.2⟩
  obtain ⟨forward, unpaired⟩ :=
    (stands.represents idType).nodemapMapId_clientToFs stands.nonDefault settings.1 clientNonzero
  obtain ⟨backward, -⟩ := (stands.represents idType).nodemapMapId_fsToClient (stands.linked idType)
    stands.nonDefault settings.1 fsNonzero
  refine ⟨fun paired => ⟨forward f paired, backward c paired⟩, fun none => ?_⟩
  rw [unpaired none, settings.2]

theorem nodemapMapId_of_run_two_uids :
    let state := Machine.run pairedStep (⟨freshNodemap, 0⟩, fun _ => PartialBij.empty)
      [.add .uid 1 10, .add .uid 2 20]
    ((1, 10) ∈ (state.2 .uid).pairs →
        nodemapMapId true state.1.nodemap .uid .clientToFs 1 = 10 ∧
          nodemapMapId true state.1.nodemap .uid .fsToClient 10 = 1) ∧
      ((∀ f', (1, f') ∉ (state.2 .uid).pairs) →
        nodemapMapId true state.1.nodemap .uid .clientToFs 1 = freshNodemap.squashId .uid) :=
  nodemapMapId_of_run (show isDefaultNodemap freshNodemap = false from rfl)
    (fun idType => by cases idType <;> rfl) rfl
    ((Machine.Reachable.start.step (IdmapEvent.add .uid 1 10)
        (by simp [IdmapEvent.Fits, PartialBij.Fits])).step
      (IdmapEvent.add .uid 2 20)
        (by simp [pairedStep, IdMaps.step_add, IdmapEvent.Fits, PartialBij.Fits]))
    .uid (by decide) (by decide)

end MapId

/-! ## A collision -/

/-- Map client uid 1 to 10 and 2 to 20, then client uid 1 to 30. -/
def collidingAdds : List IdmapEvent := [.add .uid 1 10, .add .uid 2 20, .add .uid 1 30]

/-- The third request finds client uid 1 in the forward tree, and `idmap_insert`
puts the new object, of filesystem uid 30, in the place of the old one, of
filesystem uid 10, in the backward tree too: at its root, above the object of
filesystem uid 20 on its right.  The backward tree is no longer a search tree,
and mapping filesystem uid 20 out, which the correspondence pairs with client
uid 2, gives the squash uid. -/
theorem idmapInsert_collision_breaks_backward_tree :
    ¬ ((Machine.run IdmapState.step ⟨freshNodemap, 0⟩ collidingAdds).nodemap.roots .uid).bck.Ordered
        LuIdmap.idFs ∧
      (2, 20) ∈ ((Machine.run IdMaps.step (fun _ => PartialBij.empty) collidingAdds) .uid).pairs ∧
      nodemapMapId true (Machine.run IdmapState.step ⟨freshNodemap, 0⟩ collidingAdds).nodemap .uid
        .fsToClient 20 = 99 := by
  refine ⟨by decide, ?_, by decide⟩
  simp [collidingAdds, IdMaps.step_add]

end Ptlrpc
end Lustre
