import Mathlib.Logic.Function.Basic
import Lustre.Library.Forest
import Lustre.Library.Loop

/-!
# Directory ancestry and rename on a metadata target

A rename that moves a directory must not move it below itself, or the
namespace gets a cycle cut off from the root.  The metadata target (MDT)
checks this locally: `mdt_reint_rename_internal` asks `mdt_is_subdir` whether
the moved directory is an ancestor of the target directory, and
`mdd_rename_order` asks the same question of the two parents to choose a
lock order.  Both walk up the parent links in `mdd_is_parent`: a
directory's parent is the single record of its link EA when that FID is
sane, and the `..` entry otherwise (`mdd_parent_fid`).

The walk stops as soon as it meets the root, before it compares the parent
with the FID it looks for.  So the root itself is never reported as an
ancestor, and when the walk reaches the root `mdd_is_subdir` reports the
zero FID, which `mdt_is_subdir` then takes for a match.  On a tree the walk
ends within the depth of the directory, and apart from these two FIDs it
answers exactly whether one directory lies above another; a rename accepted
by these checks keeps the tree.  On parent links that form a cycle the walk
goes round for ever.
-/

namespace Lustre
namespace Mdd

open Relation

/-! ## FIDs -/

/-- `struct lu_fid`. -/
structure LuFid where
  /-- `f_seq`. -/
  fSeq : UInt64
  /-- `f_oid`. -/
  fOid : UInt32
  /-- `f_ver`. -/
  fVer : UInt32
  deriving DecidableEq, Repr

/-- The FID `fid_zero` leaves: every field zero. -/
def LuFid.zero : LuFid := ⟨0, 0, 0⟩

/-- `FID_SEQ_OST_MDT0`. -/
def fidSeqOstMdt0 : UInt64 := 0

theorem fidSeqOstMdt0_eq : fidSeqOstMdt0 = 0 := rfl

/-- `FID_SEQ_RSVD`. -/
def fidSeqRsvd : UInt64 := 11

/-- `FID_SEQ_IGIF`. -/
def fidSeqIgif : UInt64 := 12

/-- `FID_SEQ_IGIF_MAX`. -/
def fidSeqIgifMax : UInt64 := 0x0ffffffff

/-- `FID_SEQ_IDIF`. -/
def fidSeqIdif : UInt64 := 0x100000000

/-- `FID_SEQ_IDIF_MAX`. -/
def fidSeqIdifMax : UInt64 := 0x1ffffffff

/-- `FID_SEQ_START`. -/
def fidSeqStart : UInt64 := 0x200000000

/-- `fid_seq_is_rsvd`. -/
def fidSeqIsRsvd (seq : UInt64) : Bool := seq > fidSeqOstMdt0 && seq ≤ fidSeqRsvd

/-- `fid_seq_is_igif`. -/
def fidSeqIsIgif (seq : UInt64) : Bool := seq ≥ fidSeqIgif && seq ≤ fidSeqIgifMax

/-- `fid_seq_is_idif`. -/
def fidSeqIsIdif (seq : UInt64) : Bool := seq ≥ fidSeqIdif && seq ≤ fidSeqIdifMax

/-- `fid_is_sane`. -/
def fidIsSane (fid : LuFid) : Bool :=
  (fid.fSeq ≥ fidSeqStart && fid.fVer == 0) || fidSeqIsIgif fid.fSeq ||
    fidSeqIsIdif fid.fSeq || fidSeqIsRsvd fid.fSeq

/-! ## Return codes -/

/-- `ENOENT`. -/
def enoent : Int32 := 2

/-- `EIO`. -/
def eio : Int32 := 5

/-- `EINVAL`. -/
def einval : Int32 := 22

/-- `EREMOTE`. -/
def eremote : Int32 := 66

/-- `MDD_RN_SAME` of `enum rename_order`. -/
def mddRnSame : Int32 := 0

/-- `MDD_RN_SRCTGT`: lock the source parent first. -/
def mddRnSrctgt : Int32 := 1

/-- `MDD_RN_TGTSRC`: lock the target parent first. -/
def mddRnTgtsrc : Int32 := 2

/-! ## The namespace -/

/-- What the ancestry code reads of one object. -/
structure MddObject where
  /-- `S_ISDIR(mdd_object_type(obj))`. -/
  isDir : Bool
  /-- The parent FIDs of the records of the object's link EA, in order;
  empty when there is none or it cannot be read. -/
  links : List LuFid
  /-- What `__mdd_lookup` of `..` in the object returns. -/
  dotdot : Except Int32 LuFid

/-- The device: its root, its local root and its objects by FID, `none`
where `mdd_object_exists` fails. -/
structure MddDevice where
  /-- `mdd_root_fid`. -/
  mddRootFid : LuFid
  /-- `mdd_local_root_fid`. -/
  mddLocalRootFid : LuFid
  /-- The objects. -/
  objects : LuFid → Option MddObject

/-- `mdd_parent_fid`: the one record of the link EA, if its FID is sane,
otherwise the `..` entry. -/
def mddParentFid (obj : MddObject) : Except Int32 LuFid :=
  match obj.links with
  | [pfid] => if fidIsSane pfid then .ok pfid else obj.dotdot
  | _ => obj.dotdot

/-- `mdd_is_root`: the version of the FID is not compared. -/
def mddIsRoot (mdd : MddDevice) (fid : LuFid) : Bool :=
  mdd.mddRootFid.fSeq == fid.fSeq && mdd.mddRootFid.fOid == fid.fOid

/-- How a walk up the parent links ends. -/
inductive WalkEnd
  /-- It returns this code. -/
  | rc (code : Int32)
  /-- An `LASSERT` fails. -/
  | assertion
  deriving DecidableEq, Repr

/-- One round of the `for (;;)` loop of `mdd_is_parent` at the object `p1`:
leave with a code, or go on to the parent object. -/
def isParentBody (mdd : MddDevice) (lf : LuFid) (p1 : MddObject) : WalkEnd ⊕ MddObject :=
  -- `mdd_parent_fid` asserts that it is given a directory
  if !p1.isDir then .inl .assertion
  else
    match mddParentFid p1 with
    | .error rc => .inl (.rc rc)
    | .ok pfid =>
      if mddIsRoot mdd pfid then .inl (.rc 0)
      else if pfid = mdd.mddLocalRootFid then .inl (.rc 0)
      else if pfid = lf then .inl (.rc 1)
      else
        match mdd.objects pfid with
        | none => .inl (.rc (-einval))
        | some parent => .inr parent

/-- `mdd_is_parent`: 1 when `lf` is found above `p1`, 0 when the root is
found first, with at most `fuel` rounds of the loop. -/
def mddIsParent (mdd : MddDevice) (p1Fid : LuFid) (p1 : MddObject) (lf : LuFid) (fuel : Nat) :
    Option WalkEnd :=
  if p1Fid = lf then some .assertion
  else if mddIsRoot mdd p1Fid then some (.rc 0)
  else Loop.run (isParentBody mdd lf) fuel p1

/-- What `mdd_is_subdir` makes of the answer of `mdd_is_parent`: the return
code and `sfid`, which holds `fid` when it was found, the zero FID when the
root was, and is left alone otherwise. -/
def isSubdirReply (fid sfid : LuFid) : WalkEnd → WalkEnd × LuFid
  | .rc rc => if rc = 0 then (.rc 0, LuFid.zero) else if rc = 1 then (.rc 0, fid) else (.rc rc, sfid)
  | .assertion => (.assertion, sfid)

/-- `mdd_is_subdir`. -/
def mddIsSubdir (mdd : MddDevice) (moFid : LuFid) (mo : MddObject) (fid sfid : LuFid)
    (fuel : Nat) : Option (WalkEnd × LuFid) :=
  if !mo.isDir then some (.rc 0, sfid)
  else (mddIsParent mdd moFid mo fid fuel).map (isSubdirReply fid sfid)

/-- What `mdt_is_subdir` makes of the answer of `mdd_is_subdir`: `-EINVAL`
when `sfid` is `fid`, and `-EIO` in place of an error `-EINVAL`. -/
def mdtSubdirReply (fid : LuFid) : WalkEnd × LuFid → WalkEnd
  | (.rc rc, sfid) =>
    if rc < 0 then .rc (if rc = -einval then -eio else rc)
    else if sfid = fid then .rc (-einval)
    else .rc rc
  | (.assertion, _) => .assertion

/-- `mdt_is_subdir`: `-EINVAL` when `fid` is found above `dir`. -/
def mdtIsSubdir (mdd : MddDevice) (dirFid fid : LuFid) (fuel : Nat) : Option WalkEnd :=
  if dirFid = fid then some (.rc 0)
  else
    match mdd.objects dirFid with
    | none => some (.rc (-enoent))
    | some dir => (mddIsSubdir mdd dirFid dir fid dirFid fuel).map (mdtSubdirReply fid)

/-- What `mdd_rename_order` makes of the answer of `mdd_is_parent`. -/
def renameOrderReply : WalkEnd → WalkEnd
  | .rc rc =>
    let rc := if rc = -eremote then 0 else rc
    if rc = 1 then .rc mddRnTgtsrc else if rc = 0 then .rc mddRnSrctgt else .rc rc
  | .assertion => .assertion

/-- `mdd_rename_order`; the two parents are the same object exactly when
their FIDs are equal. -/
def mddRenameOrder (mdd : MddDevice) (srcFid : LuFid) (src : MddObject) (tgtFid : LuFid)
    (fuel : Nat) : Option WalkEnd :=
  if srcFid = tgtFid then some (.rc mddRnSame)
  else if mdd.mddRootFid = srcFid then some (.rc mddRnSrctgt)
  else if mdd.mddRootFid = tgtFid then some (.rc mddRnTgtsrc)
  else (mddIsParent mdd srcFid src tgtFid fuel).map renameOrderReply

/-- The checks of `mdt_reint_rename_internal` on the FIDs of a rename of the
entry `old` of the source directory `src` into the target directory `tgt`:
0 when the rename goes on to `mdo_rename`. -/
def mdtRenameCheck (mdd : MddDevice) (src tgt old : LuFid) (fuel : Nat) : Option WalkEnd :=
  -- `reverse`: is the source directory below the target directory?
  let reverse := if src = tgt then some (.rc 0) else mdtIsSubdir mdd src tgt fuel
  reverse.bind fun
    | .assertion => some .assertion
    | .rc rc =>
      if rc ≠ 0 ∧ rc ≠ -einval then some (.rc rc)
      else if old = src ∨ old = tgt then some (.rc (-einval))
      else if src = tgt then some (.rc 0)
      else mdtIsSubdir mdd tgt old fuel

/-- The directory moved into `tgt` by `mdd_rename`: its `..` entry names
`tgt`, and so does its renamed link EA record. -/
def movedObject (tgt : LuFid) (obj : MddObject) : MddObject :=
  { obj with links := [tgt], dotdot := .ok tgt }

/-- The objects after `mdd_rename` moved the directory `old` into `tgt`. -/
def MddDevice.moveDir (mdd : MddDevice) (old tgt : LuFid) : MddDevice :=
  { mdd with objects := Function.update mdd.objects old ((mdd.objects old).map (movedObject tgt)) }

/-! ## Trees

The parent links are what `mdd_parent_fid` finds for every existing
directory but the root.  The namespace is a tree when the root is the only
object that `mdd_is_root` accepts, the local root is not part of it, every
directory but the root has an existing parent directory, and every
directory reaches the root. -/

/-- `parent` is what `mdd_parent_fid` finds for the existing directory
`dir`, which is not the root. -/
def MddDevice.ParentLink (mdd : MddDevice) (dir parent : LuFid) : Prop :=
  dir ≠ mdd.mddRootFid ∧ ∃ obj, mdd.objects dir = some obj ∧ obj.isDir = true ∧
    mddParentFid obj = .ok parent

/-- `anc` lies above `dir`. -/
def MddDevice.ProperAncestor (mdd : MddDevice) (anc dir : LuFid) : Prop :=
  TransGen mdd.ParentLink dir anc

/-- The directories form a tree under the root. -/
structure MddDevice.IsTree (mdd : MddDevice) : Prop where
  rootUnique : ∀ fid obj, mdd.objects fid = some obj → mddIsRoot mdd fid = true →
    fid = mdd.mddRootFid
  localRootOutside : mdd.objects mdd.mddLocalRootFid = none
  parentExists : ∀ dir obj, mdd.objects dir = some obj → obj.isDir = true →
    dir ≠ mdd.mddRootFid → ∃ parent pobj, mddParentFid obj = .ok parent ∧
      mdd.objects parent = some pobj ∧ pobj.isDir = true
  reachesRoot : ∀ dir obj, mdd.objects dir = some obj → obj.isDir = true →
    ReflTransGen mdd.ParentLink dir mdd.mddRootFid

@[simp] theorem mddIsRoot_rootFid (mdd : MddDevice) : mddIsRoot mdd mdd.mddRootFid = true := by
  simp [mddIsRoot]

theorem MddDevice.parentLink_functional (mdd : MddDevice) : Forest.Functional mdd.ParentLink := by
  rintro dir p q ⟨-, obj, found, -, parentP⟩ ⟨-, obj', found', -, parentQ⟩
  rw [found, Option.some.injEq] at found'
  subst found'
  rw [parentP, Except.ok.injEq] at parentQ
  exact parentQ

theorem MddDevice.not_parentLink_root (mdd : MddDevice) (parent : LuFid) :
    ¬ mdd.ParentLink mdd.mddRootFid parent := fun link => link.1 rfl

theorem MddDevice.not_properAncestor_root (mdd : MddDevice) (anc : LuFid) :
    ¬ mdd.ProperAncestor anc mdd.mddRootFid := by
  intro above
  obtain ⟨b, first, -⟩ := TransGen.head'_iff.mp above
  exact mdd.not_parentLink_root b first

/-- Only the root is both an object and accepted by `mdd_is_root`. -/
theorem MddDevice.IsTree.mddIsRoot_eq_false {mdd : MddDevice} (tree : mdd.IsTree)
    {fid : LuFid} {obj : MddObject} (found : mdd.objects fid = some obj)
    (notRoot : fid ≠ mdd.mddRootFid) : mddIsRoot mdd fid = false := by
  cases isRoot : mddIsRoot mdd fid with
  | false => rfl
  | true => exact absurd (tree.rootUnique fid obj found isRoot) notRoot

/-- Every directory but the root lies below the root. -/
theorem MddDevice.IsTree.root_properAncestor {mdd : MddDevice} (tree : mdd.IsTree)
    {dir : LuFid} {obj : MddObject} (found : mdd.objects dir = some obj) (isDir : obj.isDir = true)
    (notRoot : dir ≠ mdd.mddRootFid) : mdd.ProperAncestor mdd.mddRootFid dir := by
  rcases reflTransGen_iff_eq_or_transGen.mp (tree.reachesRoot dir obj found isDir) with same | below
  · exact absurd same.symm notRoot
  · exact below

/-! ## The walk of `mdd_is_parent` -/

/-- `lf` lies above `dir` and is not taken for the root. -/
def MddDevice.AboveBelowRoot (mdd : MddDevice) (lf dir : LuFid) : Prop :=
  mdd.ProperAncestor lf dir ∧ mddIsRoot mdd lf = false

/-- On a tree, the loop of `mdd_is_parent` from a directory other than the
root ends: with 1 when `lf` lies above it and is not taken for the root,
with 0 otherwise.  The induction follows the path to the root. -/
theorem MddDevice.IsTree.isParent_ends {mdd : MddDevice} (tree : mdd.IsTree) (lf : LuFid)
    {dir : LuFid} {obj : MddObject} (found : mdd.objects dir = some obj) (isDir : obj.isDir = true)
    (notRoot : dir ≠ mdd.mddRootFid) :
    (Loop.Ends (Loop.run (isParentBody mdd lf) · obj) (.rc 1) ∧ mdd.AboveBelowRoot lf dir) ∨
      (Loop.Ends (Loop.run (isParentBody mdd lf) · obj) (.rc 0) ∧ ¬ mdd.AboveBelowRoot lf dir) := by
  have path := tree.reachesRoot dir obj found isDir
  induction path using ReflTransGen.head_induction_on generalizing obj with
  | refl => exact absurd rfl notRoot
  | head link rest ih =>
    rename_i d p
    obtain ⟨-, obj', found', -, parentIs⟩ := id link
    rw [found, Option.some.injEq] at found'
    subst found'
    -- the parent exists and is a directory
    obtain ⟨p', pobj, parentIs', foundP, isDirP⟩ := tree.parentExists d obj found isDir notRoot
    rw [parentIs, Except.ok.injEq] at parentIs'
    subst parentIs'
    have notLocal : p ≠ mdd.mddLocalRootFid := by
      rintro rfl
      rw [tree.localRootOutside] at foundP
      cases foundP
    have above : ∀ lf', mdd.ProperAncestor lf' d ↔ lf' = p ∨ mdd.ProperAncestor lf' p :=
      fun _ => Forest.transGen_iff_of_functional mdd.parentLink_functional link
    by_cases rootP : mddIsRoot mdd p = true
    · -- the root comes first: 0, and nothing but the root lies above
      have pIsRoot := tree.rootUnique p pobj foundP rootP
      refine Or.inr ⟨Loop.ends_of_leave (by simp [isParentBody, isDir, parentIs, rootP]), ?_⟩
      rintro ⟨aboveLf, notRootLf⟩
      rcases (above lf).mp aboveLf with rfl | beyond
      · rw [rootP] at notRootLf
        cases notRootLf
      · exact mdd.not_properAncestor_root lf (pIsRoot ▸ beyond)
    · rw [Bool.not_eq_true] at rootP
      by_cases atLf : p = lf
      · -- the parent is `lf`: 1
        subst atLf
        refine Or.inl ⟨Loop.ends_of_leave ?_, TransGen.single link, rootP⟩
        simp [isParentBody, isDir, parentIs, rootP, notLocal]
      · -- on to the parent, which answers the same question
        have step : isParentBody mdd lf obj = .inr pobj := by
          simp [isParentBody, isDir, parentIs, rootP, notLocal, atLf, foundP]
        have pNotRoot : p ≠ mdd.mddRootFid := by
          rintro rfl
          rw [mddIsRoot_rootFid] at rootP
          cases rootP
        have same : mdd.AboveBelowRoot lf d ↔ mdd.AboveBelowRoot lf p := by
          simp only [MddDevice.AboveBelowRoot, above lf, Ne.symm atLf, false_or]
        rcases ih foundP isDirP pNotRoot with ⟨ends, isAbove⟩ | ⟨ends, notAbove⟩
        · exact Or.inl ⟨Loop.ends_of_next step ends, same.mpr isAbove⟩
        · exact Or.inr ⟨Loop.ends_of_next step ends, fun isAbove => notAbove (same.mp isAbove)⟩

/-- `mdd_is_parent` on a tree, from any directory. -/
theorem MddDevice.IsTree.mddIsParent_ends {mdd : MddDevice} (tree : mdd.IsTree) {dir lf : LuFid}
    {obj : MddObject} (found : mdd.objects dir = some obj) (isDir : obj.isDir = true)
    (notLf : dir ≠ lf) :
    (Loop.Ends (mddIsParent mdd dir obj lf) (.rc 1) ∧ mdd.AboveBelowRoot lf dir) ∨
      (Loop.Ends (mddIsParent mdd dir obj lf) (.rc 0) ∧ ¬ mdd.AboveBelowRoot lf dir) := by
  by_cases atRoot : dir = mdd.mddRootFid
  · -- the root has nothing above it
    subst atRoot
    have atOnce : mddIsParent mdd mdd.mddRootFid obj lf = fun _ => some (.rc 0) := by
      funext fuel
      simp [mddIsParent, notLf]
    rw [atOnce]
    exact Or.inr ⟨Loop.ends_const _, fun isAbove => mdd.not_properAncestor_root lf isAbove.1⟩
  · have walk : mddIsParent mdd dir obj lf = (Loop.run (isParentBody mdd lf) · obj) := by
      funext fuel
      simp [mddIsParent, notLf, tree.mddIsRoot_eq_false found atRoot]
    rw [walk]
    exact tree.isParent_ends lf found isDir atRoot

/-! ## `mdt_is_subdir` and `mdd_rename_order` on a tree -/

/-- `fid` is reported as lying above `dir`: it does, or it is the zero FID
that `mdd_is_subdir` leaves when the walk meets the root. -/
def MddDevice.ReportedAbove (mdd : MddDevice) (fid dir : LuFid) : Prop :=
  mdd.ProperAncestor fid dir ∨ fid = LuFid.zero

/-- On a tree, `mdt_is_subdir` ends with `-EINVAL` exactly when `fid`, not
taken for the root, lies above `dir` or is the zero FID, and with 0
otherwise. -/
theorem MddDevice.IsTree.mdtIsSubdir_ends {mdd : MddDevice} (tree : mdd.IsTree) {dir fid : LuFid}
    {obj : MddObject} (found : mdd.objects dir = some obj) (isDir : obj.isDir = true)
    (notDir : fid ≠ dir) (notRootFid : mddIsRoot mdd fid = false) :
    (Loop.Ends (mdtIsSubdir mdd dir fid) (.rc (-einval)) ∧ mdd.ReportedAbove fid dir) ∨
      (Loop.Ends (mdtIsSubdir mdd dir fid) (.rc 0) ∧ ¬ mdd.ReportedAbove fid dir) := by
  have walk : mdtIsSubdir mdd dir fid = fun fuel =>
      ((mddIsParent mdd dir obj fid fuel).map (isSubdirReply fid dir)).map (mdtSubdirReply fid) := by
    funext fuel
    simp [mdtIsSubdir, mddIsSubdir, Ne.symm notDir, found, isDir]
  rw [walk]
  rcases tree.mddIsParent_ends found isDir (Ne.symm notDir) with ⟨ends, isAbove⟩ | ⟨ends, notAbove⟩
  · -- found: `sfid` is `fid`
    have reply : mdtSubdirReply fid (isSubdirReply fid dir (.rc 1)) = .rc (-einval) := by
      simp [isSubdirReply, mdtSubdirReply]
    exact Or.inl ⟨reply ▸ (ends.map _).map _, Or.inl isAbove.1⟩
  · -- the root first: `sfid` is the zero FID
    have notAncestor : ¬ mdd.ProperAncestor fid dir := fun isAbove => notAbove ⟨isAbove, notRootFid⟩
    by_cases zero : LuFid.zero = fid
    · have reply : mdtSubdirReply fid (isSubdirReply fid dir (.rc 0)) = .rc (-einval) := by
        simp [isSubdirReply, mdtSubdirReply, zero]
      exact Or.inl ⟨reply ▸ (ends.map _).map _, Or.inr zero.symm⟩
    · have reply : mdtSubdirReply fid (isSubdirReply fid dir (.rc 0)) = .rc 0 := by
        simp [isSubdirReply, mdtSubdirReply, zero]
      refine Or.inr ⟨reply ▸ (ends.map _).map _, ?_⟩
      rintro (isAbove | isZero)
      · exact notAncestor isAbove
      · exact zero isZero.symm

/-- On a tree, `mdd_rename_order` of two different directories ends with
`MDD_RN_TGTSRC` exactly when the target parent lies above the source
parent. -/
theorem MddDevice.IsTree.mddRenameOrder_ends {mdd : MddDevice} (tree : mdd.IsTree)
    {src tgt : LuFid} {srcObj tgtObj : MddObject} (foundSrc : mdd.objects src = some srcObj)
    (srcDir : srcObj.isDir = true) (foundTgt : mdd.objects tgt = some tgtObj)
    (different : src ≠ tgt) :
    (Loop.Ends (mddRenameOrder mdd src srcObj tgt) (.rc mddRnTgtsrc) ∧
        mdd.ProperAncestor tgt src) ∨
      (Loop.Ends (mddRenameOrder mdd src srcObj tgt) (.rc mddRnSrctgt) ∧
        ¬ mdd.ProperAncestor tgt src) := by
  by_cases srcRoot : mdd.mddRootFid = src
  · have atOnce : mddRenameOrder mdd src srcObj tgt = fun _ => some (.rc mddRnSrctgt) := by
      funext fuel
      simp [mddRenameOrder, different, srcRoot]
    rw [atOnce, ← srcRoot]
    exact Or.inr ⟨Loop.ends_const _, mdd.not_properAncestor_root tgt⟩
  by_cases tgtRoot : mdd.mddRootFid = tgt
  · have atOnce : mddRenameOrder mdd src srcObj tgt = fun _ => some (.rc mddRnTgtsrc) := by
      funext fuel
      simp [mddRenameOrder, different, tgtRoot, Ne.symm different]
    rw [atOnce, ← tgtRoot]
    exact Or.inl ⟨Loop.ends_const _, tree.root_properAncestor foundSrc srcDir (Ne.symm srcRoot)⟩
  have walk : mddRenameOrder mdd src srcObj tgt = fun fuel =>
      (mddIsParent mdd src srcObj tgt fuel).map renameOrderReply := by
    funext fuel
    simp [mddRenameOrder, different, srcRoot, tgtRoot]
  rw [walk]
  -- the target is no other root, so being found means lying above
  have tgtNotRoot := tree.mddIsRoot_eq_false foundTgt (Ne.symm tgtRoot)
  rcases tree.mddIsParent_ends foundSrc srcDir different with ⟨ends, isAbove⟩ | ⟨ends, notAbove⟩
  · exact Or.inl ⟨ends.map renameOrderReply, isAbove.1⟩
  · exact Or.inr ⟨ends.map renameOrderReply, fun isAbove => notAbove ⟨isAbove, tgtNotRoot⟩⟩

/-! ## A rename keeps the tree -/

/-- A rename that passed the checks of `mdt_reint_rename_internal` moves
neither directory, and between two directories `mdt_is_subdir` found the
moved entry not above the target. -/
theorem mdtRenameCheck_eq_zero {mdd : MddDevice} {src tgt old : LuFid} {fuel : Nat}
    (done : mdtRenameCheck mdd src tgt old fuel = some (.rc 0)) :
    old ≠ src ∧ old ≠ tgt ∧ (src = tgt ∨ mdtIsSubdir mdd tgt old fuel = some (.rc 0)) := by
  unfold mdtRenameCheck at done
  obtain ⟨reverse, -, rest⟩ := Option.bind_eq_some_iff.mp done
  cases reverse with
  | assertion => cases rest
  | rc rc =>
    dsimp only at rest
    split at rest
    next failed =>
      -- the error of the first check is passed on, and it is not 0
      rw [Option.some.injEq, WalkEnd.rc.injEq] at rest
      exact absurd rest failed.1
    split at rest
    next => simp [einval] at rest
    next named =>
      have moves : old ≠ src ∧ old ≠ tgt := not_or.mp named
      split at rest
      next same => exact ⟨moves.1, moves.2, Or.inl same⟩
      next => exact ⟨moves.1, moves.2, Or.inr rest⟩

@[simp] theorem movedObject_isDir (tgt : LuFid) (obj : MddObject) :
    (movedObject tgt obj).isDir = obj.isDir := rfl

/-- The moved directory's parent is the target, whether or not its FID is
sane: the link EA and `..` agree. -/
@[simp] theorem mddParentFid_movedObject (tgt : LuFid) (obj : MddObject) :
    mddParentFid (movedObject tgt obj) = .ok tgt := by
  simp [mddParentFid, movedObject]

@[simp] theorem moveDir_mddRootFid (mdd : MddDevice) (old tgt : LuFid) :
    (mdd.moveDir old tgt).mddRootFid = mdd.mddRootFid := rfl

@[simp] theorem moveDir_mddLocalRootFid (mdd : MddDevice) (old tgt : LuFid) :
    (mdd.moveDir old tgt).mddLocalRootFid = mdd.mddLocalRootFid := rfl

@[simp] theorem moveDir_mddIsRoot (mdd : MddDevice) (old tgt : LuFid) :
    mddIsRoot (mdd.moveDir old tgt) = mddIsRoot mdd := rfl

theorem moveDir_objects_self (mdd : MddDevice) (old tgt : LuFid) :
    (mdd.moveDir old tgt).objects old = (mdd.objects old).map (movedObject tgt) := by
  simp [MddDevice.moveDir]

theorem moveDir_objects_of_ne (mdd : MddDevice) {old fid : LuFid} (tgt : LuFid) (other : fid ≠ old) :
    (mdd.moveDir old tgt).objects fid = mdd.objects fid := by
  simp [MddDevice.moveDir, other]

/-- The move changes no object's existence or type. -/
theorem moveDir_objects_eq_some {mdd : MddDevice} {old tgt fid : LuFid} {obj : MddObject}
    (found : (mdd.moveDir old tgt).objects fid = some obj) :
    ∃ obj₀, mdd.objects fid = some obj₀ ∧ obj₀.isDir = obj.isDir := by
  by_cases moved : fid = old
  · subst moved
    rw [moveDir_objects_self, Option.map_eq_some_iff] at found
    obtain ⟨obj₀, found₀, rfl⟩ := found
    exact ⟨obj₀, found₀, rfl⟩
  · rw [moveDir_objects_of_ne mdd tgt moved] at found
    exact ⟨obj, found, rfl⟩

theorem moveDir_objects_of_eq_some {mdd : MddDevice} {old tgt fid : LuFid} {obj : MddObject}
    (found : mdd.objects fid = some obj) :
    ∃ obj', (mdd.moveDir old tgt).objects fid = some obj' ∧ obj'.isDir = obj.isDir := by
  by_cases moved : fid = old
  · subst moved
    exact ⟨movedObject tgt obj, by rw [moveDir_objects_self, found]; rfl, rfl⟩
  · exact ⟨obj, by rw [moveDir_objects_of_ne mdd tgt moved, found], rfl⟩

/-- The parent links after the move are those of `Forest.rehang`. -/
theorem parentLink_moveDir_of_rehang {mdd : MddDevice} {old tgt : LuFid} {oldObj : MddObject}
    (foundOld : mdd.objects old = some oldObj) (oldDir : oldObj.isDir = true)
    (oldNotRoot : old ≠ mdd.mddRootFid) {a b : LuFid}
    (link : Forest.rehang mdd.ParentLink old tgt a b) : (mdd.moveDir old tgt).ParentLink a b := by
  rcases link with ⟨other, notRoot, obj, found, isDir, parent⟩ | ⟨rfl, rfl⟩
  · exact ⟨notRoot, obj, by rw [moveDir_objects_of_ne mdd tgt other, found], isDir, parent⟩
  · refine ⟨oldNotRoot, movedObject b oldObj, ?_, oldDir, mddParentFid_movedObject b oldObj⟩
    rw [moveDir_objects_self, foundOld]
    rfl

/-- The entry moved by a rename that the checks accepted does not lie above
the target directory.  Between two directories this is the answer of
`mdt_is_subdir`; within one directory it is because the tree has no
cycle. -/
theorem MddDevice.IsTree.not_below_moved {mdd : MddDevice} (tree : mdd.IsTree)
    {src tgt old : LuFid} {tgtObj : MddObject} (oldLink : mdd.ParentLink old src)
    (foundTgt : mdd.objects tgt = some tgtObj) (tgtDir : tgtObj.isDir = true)
    (checked : Loop.Ends (mdtRenameCheck mdd src tgt old) (.rc 0)) :
    ¬ ReflTransGen mdd.ParentLink tgt old := by
  obtain ⟨bound, after⟩ := checked
  obtain ⟨-, oldObj, foundOld, oldDir, -⟩ := id oldLink
  by_cases same : src = tgt
  · -- from `old` up to its parent and back down to `old`: a cycle
    subst same
    intro back
    exact Forest.not_transGen_self mdd.parentLink_functional
      (tree.reachesRoot old oldObj foundOld oldDir) mdd.not_parentLink_root
      (TransGen.head' oldLink back)
  · have oldNotRoot := tree.mddIsRoot_eq_false foundOld oldLink.1
    obtain ⟨-, oldNeTgt, -⟩ := mdtRenameCheck_eq_zero (after bound (Nat.le_refl _))
    rcases tree.mdtIsSubdir_ends foundTgt tgtDir oldNeTgt oldNotRoot with
      ⟨⟨bound', invalid⟩, -⟩ | ⟨-, notAbove⟩
    · -- the check said `-EINVAL` at every large fuel, so it cannot have passed
      obtain ⟨-, -, same' | passed⟩ :=
        mdtRenameCheck_eq_zero (after (bound + bound') (Nat.le_add_right _ _))
      · exact absurd same' same
      · rw [invalid (bound + bound') (Nat.le_add_left _ _)] at passed
        simp [einval] at passed
    · rintro back
      rcases reflTransGen_iff_eq_or_transGen.mp back with atOld | above
      · exact oldNeTgt atOld
      · exact notAbove (Or.inl above)

/-- A rename of the directory `old` out of `src` into the directory `tgt`
that the checks of `mdt_reint_rename_internal` accepted leaves a tree. -/
theorem MddDevice.IsTree.moveDir {mdd : MddDevice} (tree : mdd.IsTree)
    {src tgt old : LuFid} {tgtObj : MddObject} (oldLink : mdd.ParentLink old src)
    (foundTgt : mdd.objects tgt = some tgtObj) (tgtDir : tgtObj.isDir = true)
    (checked : Loop.Ends (mdtRenameCheck mdd src tgt old) (.rc 0)) :
    (mdd.moveDir old tgt).IsTree := by
  obtain ⟨oldNotRoot, oldObj, foundOld, oldDir, -⟩ := id oldLink
  have outside := tree.not_below_moved oldLink foundTgt tgtDir checked
  constructor
  case rootUnique =>
    intro fid obj found isRoot
    obtain ⟨obj₀, found₀, -⟩ := moveDir_objects_eq_some found
    exact tree.rootUnique fid obj₀ found₀ isRoot
  case localRootOutside =>
    by_cases moved : mdd.mddLocalRootFid = old
    · rw [moveDir_mddLocalRootFid, moved, moveDir_objects_self, ← moved, tree.localRootOutside]
      rfl
    · rw [moveDir_mddLocalRootFid, moveDir_objects_of_ne mdd tgt moved, tree.localRootOutside]
  case parentExists =>
    intro dir obj found isDir notRoot
    by_cases moved : dir = old
    · -- the moved directory's parent is now the target
      subst moved
      rw [moveDir_objects_self, foundOld, Option.map_some, Option.some.injEq] at found
      subst found
      obtain ⟨tgtObj', foundTgt', tgtDir'⟩ : ∃ obj', (mdd.moveDir dir tgt).objects tgt = some obj' ∧
          obj'.isDir = tgtObj.isDir := moveDir_objects_of_eq_some foundTgt
      exact ⟨tgt, tgtObj', mddParentFid_movedObject tgt oldObj, foundTgt', tgtDir'.trans tgtDir⟩
    · rw [moveDir_objects_of_ne mdd tgt moved] at found
      obtain ⟨p, pobj, parent, foundP, pDir⟩ := tree.parentExists dir obj found isDir notRoot
      obtain ⟨pobj', foundP', pDir'⟩ : ∃ obj', (mdd.moveDir old tgt).objects p = some obj' ∧
          obj'.isDir = pobj.isDir := moveDir_objects_of_eq_some foundP
      exact ⟨p, pobj', parent, foundP', pDir'.trans pDir⟩
  case reachesRoot =>
    intro dir obj found isDir
    obtain ⟨obj₀, found₀, sameDir⟩ := moveDir_objects_eq_some found
    have reaches := tree.reachesRoot dir obj₀ found₀ (sameDir.trans isDir)
    have tgtReaches := tree.reachesRoot tgt tgtObj foundTgt tgtDir
    exact ReflTransGen.mono (fun _ _ => parentLink_moveDir_of_rehang foundOld oldDir oldNotRoot) _ _
      (Forest.reaches_rehang reaches tgtReaches outside)

/-! ## What the checks answer on a tree -/

/-- On a tree, for `fid` neither taken for the root nor the zero FID,
`mdt_is_subdir` says `-EINVAL` exactly when `fid` lies above `dir`, and 0
exactly when it does not. -/
theorem MddDevice.IsTree.mdtIsSubdir_iff {mdd : MddDevice} (tree : mdd.IsTree) {dir fid : LuFid}
    {obj : MddObject} (found : mdd.objects dir = some obj) (isDir : obj.isDir = true)
    (notDir : fid ≠ dir) (notRootFid : mddIsRoot mdd fid = false) (nonzero : fid ≠ LuFid.zero) :
    (Loop.Ends (mdtIsSubdir mdd dir fid) (.rc (-einval)) ↔ mdd.ProperAncestor fid dir) ∧
      (Loop.Ends (mdtIsSubdir mdd dir fid) (.rc 0) ↔ ¬ mdd.ProperAncestor fid dir) := by
  have answers := Loop.ends_iff_of_cases (by decide)
    (tree.mdtIsSubdir_ends found isDir notDir notRootFid)
  simpa only [MddDevice.ReportedAbove, nonzero, or_false] using answers

/-- On a tree, `mdd_rename_order` says `MDD_RN_TGTSRC` exactly when the
target parent lies above the source parent. -/
theorem MddDevice.IsTree.mddRenameOrder_iff {mdd : MddDevice} (tree : mdd.IsTree)
    {src tgt : LuFid} {srcObj tgtObj : MddObject} (foundSrc : mdd.objects src = some srcObj)
    (srcDir : srcObj.isDir = true) (foundTgt : mdd.objects tgt = some tgtObj) :
    Loop.Ends (mddRenameOrder mdd src srcObj tgt) (.rc mddRnTgtsrc) ↔ mdd.ProperAncestor tgt src := by
  by_cases same : src = tgt
  · -- one directory: `MDD_RN_SAME`, and no directory lies above itself
    subst same
    have atOnce : mddRenameOrder mdd src srcObj src = fun _ => some (.rc mddRnSame) := by
      funext fuel
      simp [mddRenameOrder]
    rw [atOnce]
    refine iff_of_false (fun ends => ?_) (Forest.not_transGen_self mdd.parentLink_functional
      (tree.reachesRoot src srcObj foundSrc srcDir) mdd.not_parentLink_root)
    have order := (Loop.ends_const _).unique ends
    simp [mddRnSame, mddRnTgtsrc] at order
  · exact (Loop.ends_iff_of_cases (by decide)
      (tree.mddRenameOrder_ends foundSrc srcDir foundTgt same)).1

/-- On a tree, `mdd_is_parent` returns, from every object. -/
theorem MddDevice.IsTree.mddIsParent_returns {mdd : MddDevice} (tree : mdd.IsTree) {dir lf : LuFid}
    {obj : MddObject} (found : mdd.objects dir = some obj) :
    ∃ result, Loop.Ends (mddIsParent mdd dir obj lf) result := by
  by_cases atLf : dir = lf
  · have atOnce : mddIsParent mdd dir obj lf = fun _ => some .assertion := by
      funext fuel
      simp [mddIsParent, atLf]
    exact ⟨.assertion, atOnce ▸ Loop.ends_const _⟩
  cases isDir : obj.isDir with
  | true =>
    rcases tree.mddIsParent_ends found isDir atLf with ⟨ends, -⟩ | ⟨ends, -⟩
    · exact ⟨_, ends⟩
    · exact ⟨_, ends⟩
  | false =>
    -- `mdd_parent_fid` asserts at once, unless the root answers first
    by_cases atRoot : mddIsRoot mdd dir = true
    · have atOnce : mddIsParent mdd dir obj lf = fun _ => some (.rc 0) := by
        funext fuel
        simp [mddIsParent, atLf, atRoot]
      exact ⟨.rc 0, atOnce ▸ Loop.ends_const _⟩
    · have walk : mddIsParent mdd dir obj lf = (Loop.run (isParentBody mdd lf) · obj) := by
        funext fuel
        simp [mddIsParent, atLf, atRoot]
      exact ⟨.assertion, walk ▸ Loop.ends_of_leave (by simp [isParentBody, isDir])⟩

/-! ## Parent links that go round -/

/-- Where the parent links go round a set of directories that holds no FID
`mdd_is_root` accepts, not the local root and not `lf`, the loop of
`mdd_is_parent` from one of them never leaves. -/
theorem mddIsParent_eq_none_of_cycle {mdd : MddDevice} {lf : LuFid} (cycle : LuFid → Prop)
    (goesRound : ∀ d, cycle d → mddIsRoot mdd d = false ∧ d ≠ mdd.mddLocalRootFid ∧ d ≠ lf ∧
      ∃ obj p, mdd.objects d = some obj ∧ obj.isDir = true ∧ mddParentFid obj = .ok p ∧ cycle p)
    {dir : LuFid} {obj : MddObject} (onCycle : cycle dir) (found : mdd.objects dir = some obj)
    (fuel : Nat) : mddIsParent mdd dir obj lf fuel = none := by
  obtain ⟨notRoot, -, notLf, -⟩ := goesRound dir onCycle
  simp only [mddIsParent, notLf, notRoot, if_false, Bool.false_eq_true]
  -- the loop state stays an object of the cycle
  refine Loop.run_eq_none_of_closed (fun o => ∃ d, cycle d ∧ mdd.objects d = some o) ?_ fuel obj
    ⟨dir, onCycle, found⟩
  rintro o ⟨d, onD, foundD⟩
  obtain ⟨-, -, -, obj', p, foundD', isDir, parent, onP⟩ := goesRound d onD
  rw [foundD, Option.some.injEq] at foundD'
  subst foundD'
  obtain ⟨pNotRoot, pNotLocal, pNotLf, pobj, -, foundP, -⟩ := goesRound p onP
  refine ⟨pobj, ?_, p, onP, foundP⟩
  simp [isParentBody, isDir, parent, pNotRoot, pNotLocal, pNotLf, foundP]

/-! ## Two namespaces -/

/-- The root FID, in `FID_SEQ_ROOT`. -/
def rootFid : LuFid := ⟨0x200000007, 1, 0⟩

/-- A local root FID, in `FID_SEQ_LOCAL_FILE`. -/
def localRootFid : LuFid := ⟨0x200000001, 1, 0⟩

/-- A directory FID in `FID_SEQ_NORMAL`. -/
def dirA : LuFid := ⟨0x200000400, 1, 0⟩

/-- Another directory FID in `FID_SEQ_NORMAL`. -/
def dirB : LuFid := ⟨0x200000400, 2, 0⟩

/-- The root directory: no link EA, and `..` is itself. -/
def rootObject : MddObject := { isDir := true, links := [], dotdot := .ok rootFid }

/-- A directory whose link EA and `..` both name `parent`. -/
def childOf (parent : LuFid) : MddObject := { isDir := true, links := [parent], dotdot := .ok parent }

/-- The root with the one directory `A` in it. -/
def oneDir : MddDevice where
  mddRootFid := rootFid
  mddLocalRootFid := localRootFid
  objects fid := if fid = rootFid then some rootObject else if fid = dirA then some (childOf rootFid)
    else none

/-- Directories `A` and `B`, each recorded as the other's parent. -/
def twoCycle : MddDevice where
  mddRootFid := rootFid
  mddLocalRootFid := localRootFid
  objects fid := if fid = rootFid then some rootObject else if fid = dirA then some (childOf dirB)
    else if fid = dirB then some (childOf dirA) else none

theorem oneDir_parentLink_dirA : oneDir.ParentLink dirA rootFid :=
  ⟨by decide, childOf rootFid, rfl, rfl, rfl⟩

theorem oneDir_isTree : oneDir.IsTree where
  rootUnique fid obj found isRoot := by
    simp only [oneDir] at found isRoot ⊢
    split at found
    next atRoot => exact atRoot
    split at found
    next atA =>
      subst atA
      cases isRoot
    next => cases found
  localRootOutside := rfl
  parentExists dir obj found isDir notRoot := by
    simp only [oneDir] at found notRoot
    split at found
    next atRoot => exact absurd atRoot notRoot
    split at found
    next atA =>
      subst atA
      cases found
      exact ⟨rootFid, rootObject, rfl, rfl, rfl⟩
    next => cases found
  reachesRoot dir obj found isDir := by
    simp only [oneDir] at found
    split at found
    next atRoot => exact atRoot ▸ ReflTransGen.refl
    split at found
    next atA => exact atA ▸ ReflTransGen.single oneDir_parentLink_dirA
    next => cases found

/-- The parent links of `twoCycle` go round `A` and `B`, which are neither
the root nor the local root. -/
theorem twoCycle_goesRound (d : LuFid) (onCycle : d ∈ [dirA, dirB]) :
    mddIsRoot twoCycle d = false ∧ d ≠ twoCycle.mddLocalRootFid ∧ d ≠ rootFid ∧
      ∃ obj p, twoCycle.objects d = some obj ∧ obj.isDir = true ∧ mddParentFid obj = .ok p ∧
        p ∈ [dirA, dirB] := by
  simp only [List.mem_cons, List.not_mem_nil, or_false] at onCycle
  rcases onCycle with rfl | rfl
  · exact ⟨rfl, by decide, by decide, childOf dirB, dirB, rfl, rfl, rfl, by simp⟩
  · exact ⟨rfl, by decide, by decide, childOf dirA, dirA, rfl, rfl, rfl, by simp⟩

/-- On the tree `oneDir`, `mdt_is_subdir` answers 0 for the root, which lies
above `A`, and `-EINVAL` for the zero FID, which does not; on the parent
links of `twoCycle`, `mdd_is_parent` from `A` never returns. -/
theorem mdtIsSubdir_misses_root :
    oneDir.IsTree ∧ oneDir.ProperAncestor rootFid dirA ∧
      Loop.Ends (mdtIsSubdir oneDir dirA rootFid) (.rc 0) ∧
      ¬ oneDir.ProperAncestor LuFid.zero dirA ∧
      Loop.Ends (mdtIsSubdir oneDir dirA LuFid.zero) (.rc (-einval)) ∧
      ∀ fuel, mddIsParent twoCycle dirA (childOf dirB) rootFid fuel = none := by
  refine ⟨oneDir_isTree, TransGen.single oneDir_parentLink_dirA, ⟨1, fun fuel enough => ?_⟩,
    fun above => ?_, ⟨1, fun fuel enough => ?_⟩,
    mddIsParent_eq_none_of_cycle (· ∈ [dirA, dirB]) twoCycle_goesRound (by simp) rfl⟩
  · -- one round: the parent of `A` is the root, and the walk stops there
    obtain ⟨fuel, rfl⟩ : ∃ rest, fuel = rest + 1 := ⟨fuel - 1, by omega⟩
    rfl
  · rcases (Forest.transGen_iff_of_functional oneDir.parentLink_functional
      oneDir_parentLink_dirA).mp above with isRoot | aboveRoot
    · cases isRoot
    · exact oneDir.not_properAncestor_root _ aboveRoot
  · obtain ⟨fuel, rfl⟩ : ∃ rest, fuel = rest + 1 := ⟨fuel - 1, by omega⟩
    rfl

/-! ## The checks of a directory rename -/

/-- What the ancestry checks of the MDT guarantee.  On a tree,
`mdt_is_subdir` answers whether a FID, neither taken for the root nor the
zero FID, lies above a directory, and `mdd_rename_order` whether the target
parent lies above the source parent; a rename of a directory that the checks
of `mdt_reint_rename_internal` accept leaves a tree; and `mdd_is_parent`
returns on a tree, while on parent links that go round directories other
than the root, the local root and `lf` it never returns. -/
theorem rename_keeps_tree :
    (∀ (mdd : MddDevice) (dir fid : LuFid) (obj : MddObject), mdd.IsTree →
      mdd.objects dir = some obj → obj.isDir = true → fid ≠ dir →
      mddIsRoot mdd fid = false → fid ≠ LuFid.zero →
      (Loop.Ends (mdtIsSubdir mdd dir fid) (.rc (-einval)) ↔ mdd.ProperAncestor fid dir) ∧
        (Loop.Ends (mdtIsSubdir mdd dir fid) (.rc 0) ↔ ¬ mdd.ProperAncestor fid dir)) ∧
    (∀ (mdd : MddDevice) (src tgt : LuFid) (srcObj tgtObj : MddObject), mdd.IsTree →
      mdd.objects src = some srcObj → srcObj.isDir = true → mdd.objects tgt = some tgtObj →
      (Loop.Ends (mddRenameOrder mdd src srcObj tgt) (.rc mddRnTgtsrc) ↔
        mdd.ProperAncestor tgt src)) ∧
    (∀ (mdd : MddDevice) (src tgt old : LuFid) (tgtObj : MddObject), mdd.IsTree →
      mdd.ParentLink old src → mdd.objects tgt = some tgtObj → tgtObj.isDir = true →
      Loop.Ends (mdtRenameCheck mdd src tgt old) (.rc 0) → (mdd.moveDir old tgt).IsTree) ∧
    (∀ (mdd : MddDevice) (dir lf : LuFid) (obj : MddObject), mdd.IsTree →
      mdd.objects dir = some obj → ∃ result, Loop.Ends (mddIsParent mdd dir obj lf) result) ∧
    (∀ (mdd : MddDevice) (lf : LuFid) (cycle : LuFid → Prop),
      (∀ d, cycle d → mddIsRoot mdd d = false ∧ d ≠ mdd.mddLocalRootFid ∧ d ≠ lf ∧
        ∃ obj p, mdd.objects d = some obj ∧ obj.isDir = true ∧ mddParentFid obj = .ok p ∧
          cycle p) →
      ∀ (dir : LuFid) (obj : MddObject), cycle dir → mdd.objects dir = some obj →
        ∀ fuel, mddIsParent mdd dir obj lf fuel = none) := by
  refine ⟨?subdir, ?order, ?rename, ?returns, ?cycle⟩
  case subdir =>
    intro mdd dir fid obj tree found isDir notDir notRoot nonzero
    exact tree.mdtIsSubdir_iff found isDir notDir notRoot nonzero
  case order =>
    intro mdd src tgt srcObj tgtObj tree foundSrc srcDir foundTgt
    exact tree.mddRenameOrder_iff foundSrc srcDir foundTgt
  case rename =>
    intro mdd src tgt old tgtObj tree oldLink foundTgt tgtDir checked
    exact tree.moveDir oldLink foundTgt tgtDir checked
  case returns =>
    intro mdd dir lf obj tree found
    exact tree.mddIsParent_returns found
  case cycle =>
    intro mdd lf cycle goesRound dir obj onCycle found fuel
    exact mddIsParent_eq_none_of_cycle cycle goesRound onCycle found fuel

/-- Each part at `oneDir`, with `A` renamed within the root, and at
`twoCycle`. -/
theorem rename_keeps_tree_oneDir :
    ((Loop.Ends (mdtIsSubdir oneDir dirA dirB) (.rc (-einval)) ↔ oneDir.ProperAncestor dirB dirA) ∧
      (Loop.Ends (mdtIsSubdir oneDir dirA dirB) (.rc 0) ↔ ¬ oneDir.ProperAncestor dirB dirA)) ∧
    (Loop.Ends (mddRenameOrder oneDir dirA (childOf rootFid) rootFid) (.rc mddRnTgtsrc) ↔
      oneDir.ProperAncestor rootFid dirA) ∧
    (oneDir.moveDir dirA rootFid).IsTree ∧
    (∃ result, Loop.Ends (mddIsParent oneDir dirA (childOf rootFid) rootFid) result) ∧
    (∀ fuel, mddIsParent twoCycle dirA (childOf dirB) rootFid fuel = none) :=
  ⟨rename_keeps_tree.1 oneDir dirA dirB (childOf rootFid) oneDir_isTree rfl rfl (by decide) rfl
      (by decide),
    rename_keeps_tree.2.1 oneDir dirA rootFid (childOf rootFid) rootObject oneDir_isTree rfl rfl rfl,
    rename_keeps_tree.2.2.1 oneDir rootFid rootFid dirA rootObject oneDir_isTree
      oneDir_parentLink_dirA rfl rfl ⟨0, fun _ _ => rfl⟩,
    rename_keeps_tree.2.2.2.1 oneDir dirA rootFid (childOf rootFid) oneDir_isTree rfl,
    rename_keeps_tree.2.2.2.2 twoCycle rootFid (· ∈ [dirA, dirB]) twoCycle_goesRound dirA
      (childOf dirB) (by simp) rfl⟩

end Mdd
end Lustre
