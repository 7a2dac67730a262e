import Lustre.Ldlm.ExtentLock

/-!
# Matching a granted extent lock (ldlm/ldlm_lock.c)

`ldlm_lock_match` looks for a lock that already covers a new request.  On an
extent resource `search_itree` asks the interval tree of each mode of the
request's mask for the nodes that overlap the requested extent, and
`lock_matches` checks the locks of their groups one by one.  The first lock
that matches is given a reference and narrows the mode of the request to its
own, so that the trees after it are passed over although the loop goes on.
`search_queue` is the plain walk of a queue with `lock_matches`.

`MatchesRequest` is what `lock_matches` asks of a lock.  When the trees index
the granted locks, `searchItree_agrees_with_scan` shows that the tree search
finds a lock exactly when the walk of the granted queue does, that the lock it
finds matches, and that it is the one lock given a reference.
-/

namespace Lustre.Ldlm

/-! ## lock_matches -/

def ldlmFlCbpending : UInt64 := 0x400000000

def ldlmFlLocalOnly : UInt64 := 0x2000000000

def ldlmFlFailed : UInt64 := 0x4000000000

def ldlmFlLocal : UInt64 := 0x10000000000

def ldlmFlExcl : UInt64 := 0x80000000000000

/-- LDLM_FL_GONE_MASK -/
def ldlmFlGoneMask : UInt64 := ldlmFlDestroyed ||| ldlmFlFailed

/-- LDLM_GID_ANY -/
def ldlmGidAny : UInt64 := ~~~0

/-- struct lock_match_data, with the lock it points to by handle.  `taken`
records the references lock_matches takes, in order: the lock's handle, and
whether it was ldlm_lock_addref_internal_nolock (`true`) or the LDLM_LOCK_GET
of a test (`false`). -/
structure LockMatchData where
  lmdOld : Option Nat
  lmdLock : Option LdlmLock
  lmdMode : Nat
  lmdPolicy : LdlmExtent
  lmdFlags : UInt64
  lmdUnref : Bool
  taken : List (Nat × Bool)

/-- The data ldlm_lock_match starts from for a request given by its fields. -/
def lockMatchData (flags : UInt64) (policy : LdlmExtent) (mode : Nat) (unref : Bool) :
    LockMatchData :=
  ⟨none, none, mode, policy, flags, unref, []⟩

/-- What lock_matches leaves when a lock matches: a reference on it, the mode
narrowed to its own, and the lock found. -/
def LockMatchData.take (data : LockMatchData) (lock : LdlmLock) : LockMatchData :=
  { data with lmdMode := lock.lReqMode.bits, lmdLock := some lock,
              taken := data.taken ++ [(lock.lHandle, decide (data.lmdFlags &&& ldlmFlTestLock = 0))] }

/-- lock_matches on a lock of an extent resource. -/
def lockMatches (lock : LdlmLock) (data : LockMatchData) : IntervalIter × LockMatchData :=
  let lpol := lock.lPolicyExtent
  if data.lmdOld = some lock.lHandle then (.stop, data)
  else if lock.hasFlag ldlmFlExcl then (.cont, data)
  else if lock.hasFlag ldlmFlCbpending ∧ data.lmdFlags &&& ldlmFlCbpending = 0 then (.cont, data)
  else if !data.lmdUnref ∧ lock.hasFlag ldlmFlCbpending ∧ lock.lReaders = 0 ∧ lock.lWriters = 0 then
    (.cont, data)
  else if lock.lReqMode.bits &&& data.lmdMode = 0 then (.cont, data)
  else if lpol.start > data.lmdPolicy.start ∨ lpol.stop < data.lmdPolicy.stop then (.cont, data)
  else if lock.lReqMode = .group ∧ data.lmdPolicy.gid ≠ ldlmGidAny ∧
      lpol.gid ≠ data.lmdPolicy.gid then (.cont, data)
  else if !data.lmdUnref ∧ lock.lFlags &&& ldlmFlGoneMask ≠ 0 then (.cont, data)
  else if decide (data.lmdFlags &&& ldlmFlLocalOnly ≠ 0) ≠ lock.hasFlag ldlmFlLocal then
    (.cont, data)
  else (.stop, data.take lock)

/-- What lock_matches asks of a lock, for a request without `lmd_old`. -/
def MatchesRequest (data : LockMatchData) (lock : LdlmLock) : Prop :=
  lock.hasFlag ldlmFlExcl = false ∧
    (lock.hasFlag ldlmFlCbpending = true → data.lmdFlags &&& ldlmFlCbpending ≠ 0 ∧
      (data.lmdUnref = true ∨ lock.lReaders ≠ 0 ∨ lock.lWriters ≠ 0)) ∧
    lock.lReqMode.bits &&& data.lmdMode ≠ 0 ∧
    lock.lPolicyExtent.start ≤ data.lmdPolicy.start ∧
    data.lmdPolicy.stop ≤ lock.lPolicyExtent.stop ∧
    (lock.lReqMode = .group →
      data.lmdPolicy.gid = ldlmGidAny ∨ lock.lPolicyExtent.gid = data.lmdPolicy.gid) ∧
    (data.lmdUnref = true ∨ lock.lFlags &&& ldlmFlGoneMask = 0) ∧
    (data.lmdFlags &&& ldlmFlLocalOnly ≠ 0 ↔ lock.hasFlag ldlmFlLocal = true)

section Matches

variable {data : LockMatchData} {lock : LdlmLock}

theorem lockMatches_of_matches (noOld : data.lmdOld = none) (matching : MatchesRequest data lock) :
    lockMatches lock data = (.stop, data.take lock) := by
  obtain ⟨notExcl, pending, mode, startLe, stopGe, gid, notGone, localSide⟩ := matching
  have notPending : ¬ (lock.hasFlag ldlmFlCbpending = true ∧ data.lmdFlags &&& ldlmFlCbpending = 0) :=
    fun ⟨flagged, unset⟩ => (pending flagged).1 unset
  have notIdle : ¬ ((!data.lmdUnref) = true ∧ lock.hasFlag ldlmFlCbpending = true ∧
      lock.lReaders = 0 ∧ lock.lWriters = 0) := by
    rintro ⟨keep, flagged, noReaders, noWriters⟩
    rcases (pending flagged).2 with unref | readers | writers
    · simp [unref] at keep
    · exact readers noReaders
    · exact writers noWriters
  have notGroup : ¬ (lock.lReqMode = .group ∧ data.lmdPolicy.gid ≠ ldlmGidAny ∧
      lock.lPolicyExtent.gid ≠ data.lmdPolicy.gid) := by
    rintro ⟨isGroup, notAny, otherGid⟩
    rcases gid isGroup with any | same
    · exact notAny any
    · exact otherGid same
  have present : ¬ ((!data.lmdUnref) = true ∧ lock.lFlags &&& ldlmFlGoneMask ≠ 0) := by
    rintro ⟨keep, gone⟩
    rcases notGone with unref | clear
    · simp [unref] at keep
    · exact gone clear
  have sameLocal : decide (data.lmdFlags &&& ldlmFlLocalOnly ≠ 0) = lock.hasFlag ldlmFlLocal := by
    cases flagged : lock.hasFlag ldlmFlLocal <;> simp_all
  simp only [lockMatches, noOld, reduceCtorEq, if_false, notExcl, Bool.false_eq_true, notPending,
    notIdle, mode, notGroup, present, sameLocal, ne_eq, not_true_eq_false, UInt64.not_lt.mpr startLe,
    UInt64.not_lt.mpr stopGe, or_self]

theorem lockMatches_of_not_matches (noOld : data.lmdOld = none)
    (differs : ¬ MatchesRequest data lock) : lockMatches lock data = (.cont, data) := by
  unfold lockMatches
  simp only [noOld, reduceCtorEq, if_false]
  split_ifs with excl pending idle mode extent group gone localSide
  all_goals try rfl
  -- every test passed: the lock matches after all
  refine absurd ⟨?_, ?_, mode, ?_, ?_, ?_, ?_, ?_⟩ differs
  · simpa using excl
  · intro flagged
    refine ⟨fun unset => pending ⟨flagged, unset⟩, ?_⟩
    by_contra none
    simp only [not_or, not_not] at none
    exact idle ⟨by simpa using none.1, flagged, none.2.1, none.2.2⟩
  · exact UInt64.not_lt.mp (fun above => extent (.inl above))
  · exact UInt64.not_lt.mp (fun below => extent (.inr below))
  · intro isGroup
    by_contra neither
    simp only [not_or] at neither
    exact group ⟨isGroup, neither.1, neither.2⟩
  · by_contra neither
    simp only [not_or] at neither
    exact gone ⟨by simpa using neither.1, neither.2⟩
  · revert localSide
    cases lock.hasFlag ldlmFlLocal <;> simp

end Matches

/-! ## The walks -/

/-- The walk of a list of locks with lock_matches that itree_overlap_cb and
search_queue both make, up to the first `INTERVAL_ITER_STOP`. -/
def matchEach (data : LockMatchData) : List LdlmLock → IntervalIter × LockMatchData
  | [] => (.cont, data)
  | lock :: rest =>
    match lockMatches lock data with
    | (.stop, data) => (.stop, data)
    | (.cont, data) => matchEach data rest

/-- itree_overlap_cb: the walk of the group of a node. -/
def itreeOverlapCb (res : LdlmResource) (mode : LdlmMode) (node : IntervalNode)
    (data : LockMatchData) : IntervalIter × LockMatchData :=
  matchEach data (intervalGroup res mode node)

/-- search_queue: the lock found by the walk of a queue, and the data left. -/
def searchQueue (queue : List LdlmLock) (data : LockMatchData) : Option LdlmLock × LockMatchData :=
  match matchEach data queue with
  | (.stop, data) => (data.lmdLock, data)
  | (.cont, data) => (none, data)

/-- One round of the loop of search_itree, at `lr_itree[idx]`. -/
def searchItreeStep (res : LdlmResource) (ext : IntervalNodeExtent) (data : LockMatchData)
    (idx : Nat) : Option LockMatchData :=
  (res.lrItree[idx]?).bind fun tree =>
    match tree.litRoot with
    | .leaf => some data
    | .node left root right =>
      if tree.litMode.bits &&& data.lmdMode = 0 then some data
      else (intervalSearch (.node left root right) ext (itreeOverlapCb res tree.litMode) data).map
        (·.2)

/-- search_itree: the data after the loop over the trees; the lock it returns
is `lmdLock`. -/
def searchItree (res : LdlmResource) (data : LockMatchData) : Option LockMatchData :=
  let ext : IntervalNodeExtent := ⟨data.lmdPolicy.start, data.lmdPolicy.stop⟩
  (List.range lckModeNum).foldlM (searchItreeStep res ext) data

section Walks

variable {data : LockMatchData}

/-- The walk of a list of locks either finds no matching lock and leaves the
data as it was, or stops at a matching lock with the data lock_matches leaves. -/
theorem matchEach_cases (noOld : data.lmdOld = none) (locks : List LdlmLock) :
    (matchEach data locks = (.cont, data) ∧ ∀ lock ∈ locks, ¬ MatchesRequest data lock) ∨
      ∃ lock ∈ locks, MatchesRequest data lock ∧ matchEach data locks = (.stop, data.take lock) := by
  induction locks with
  | nil => exact .inl ⟨rfl, by simp⟩
  | cons lock rest ih =>
    by_cases matching : MatchesRequest data lock
    · right
      refine ⟨lock, List.mem_cons_self, matching, ?_⟩
      simp [matchEach, lockMatches_of_matches noOld matching]
    · have wentOn : matchEach data (lock :: rest) = matchEach data rest := by
        simp [matchEach, lockMatches_of_not_matches noOld matching]
      rcases ih with ⟨walked, noneMatch⟩ | ⟨found, mem, foundMatches, walked⟩
      · left
        refine ⟨wentOn.trans walked, ?_⟩
        intro other mem
        rcases List.mem_cons.mp mem with rfl | later
        · exact matching
        · exact noneMatch other later
      · right
        exact ⟨found, List.mem_cons_of_mem lock mem, foundMatches, wentOn.trans walked⟩

/-- search_queue finds a lock exactly when one of the queue matches. -/
theorem searchQueue_isSome_iff (noOld : data.lmdOld = none) (queue : List LdlmLock) :
    (searchQueue queue data).1.isSome ↔ ∃ lock ∈ queue, MatchesRequest data lock := by
  rcases matchEach_cases noOld queue with ⟨walked, noneMatch⟩ | ⟨lock, mem, matching, walked⟩
  · simp only [searchQueue, walked, Option.isSome_none, Bool.false_eq_true, false_iff]
    exact fun ⟨lock, mem, matching⟩ => noneMatch lock mem matching
  · simp only [searchQueue, walked, LockMatchData.take, Option.isSome_some, true_iff]
    exact ⟨lock, mem, matching⟩

/-- A walk that went on found no matching lock. -/
theorem not_matches_of_matchEach_cont (noOld : data.lmdOld = none) {locks : List LdlmLock}
    (wentOn : (matchEach data locks).1 = .cont) : ∀ lock ∈ locks, ¬ MatchesRequest data lock := by
  rcases matchEach_cases noOld locks with ⟨-, noneMatch⟩ | ⟨_, _, _, walked⟩
  · exact noneMatch
  · simp [walked] at wentOn

end Walks

/-! ## search_itree over trees that index the granted locks -/

section Itree

variable {res : LdlmResource} {data : LockMatchData}

/-- A granted lock that matches lies in the group of a node of its mode's
tree, and that node meets the requested extent. -/
theorem exists_node_of_matches {mode : LdlmMode} {tree : LdlmIntervalTree}
    (granted : ∀ lock ∈ res.lrGranted, lock.lGrantedMode = some lock.lReqMode)
    (indexes : ItreeIndexes res mode tree) (ordered : data.lmdPolicy.start ≤ data.lmdPolicy.stop)
    {lock : LdlmLock} (mem : lock ∈ res.lrGranted) (ofMode : lock.lReqMode = mode)
    (matching : MatchesRequest data lock) :
    ∃ node ∈ tree.litRoot.toList,
      extentOverlapped ⟨data.lmdPolicy.start, data.lmdPolicy.stop⟩ node.inExtent = true ∧
        lock ∈ intervalGroup res mode node := by
  obtain ⟨node, inTree, low, high⟩ := indexes.2.2.2.2 lock mem ofMode
  obtain ⟨-, -, -, startLe, stopGe, -⟩ := matching
  refine ⟨node, inTree, ?_, ?_⟩
  · rw [extentOverlapped_eq_true]
    constructor
    · show data.lmdPolicy.start ≤ node.intervalHigh
      rw [high]
      exact UInt64.le_trans ordered stopGe
    · show node.intervalLow ≤ data.lmdPolicy.stop
      rw [low]
      exact UInt64.le_trans startLe ordered
  · simp only [intervalGroup, List.mem_filter, decide_eq_true_eq]
    exact ⟨mem, by rw [granted lock mem, ofMode], low.symm, high.symm⟩

/-- The round of search_itree at the tree of a mode, on data no lock has
matched yet: it leaves the data as it was when no granted lock of the mode
matches, and otherwise takes a matching one. -/
theorem searchItreeStep_cases (noOld : data.lmdOld = none)
    (ordered : data.lmdPolicy.start ≤ data.lmdPolicy.stop)
    (granted : ∀ lock ∈ res.lrGranted, lock.lGrantedMode = some lock.lReqMode)
    {mode : LdlmMode} {tree : LdlmIntervalTree} (atIndex : res.lrItree[mode.toIndex]? = some tree)
    (indexes : ItreeIndexes res mode tree) :
    let ext : IntervalNodeExtent := ⟨data.lmdPolicy.start, data.lmdPolicy.stop⟩
    (searchItreeStep res ext data mode.toIndex = some data ∧
        ∀ lock ∈ res.lrGranted, lock.lReqMode = mode → ¬ MatchesRequest data lock) ∨
      ∃ lock ∈ res.lrGranted, lock.lReqMode = mode ∧ MatchesRequest data lock ∧
        searchItreeStep res ext data mode.toIndex = some (data.take lock) := by
  intro ext
  have isMode : tree.litMode = mode := indexes.1
  -- an empty tree, or one whose mode is not asked for, holds no matching lock
  match root : tree.litRoot with
  | .leaf =>
    left
    refine ⟨by simp [searchItreeStep, atIndex, root], ?_⟩
    intro lock mem ofMode matching
    obtain ⟨node, inTree, -⟩ := exists_node_of_matches granted indexes ordered mem ofMode matching
    simp [root] at inTree
  | .node left top right =>
    by_cases masked : tree.litMode.bits &&& data.lmdMode = 0
    · left
      refine ⟨by simp [searchItreeStep, atIndex, root, masked], ?_⟩
      intro lock mem ofMode matching
      exact matching.2.2.1 (by rw [ofMode, ← isMode]; exact masked)
    · have aug := indexes.2.2.1.toAugmented
      rw [root] at aug
      have searched : searchItreeStep res ext data mode.toIndex =
          some (callEach (itreeOverlapCb res mode) (searchOrder ext (.node left top right)) data).2 := by
        rw [isMode] at masked
        simp only [searchItreeStep, atIndex, root, Option.bind_some, isMode]
        rw [if_neg masked, intervalSearch_eq_callEach _ aug.lowsSorted, Option.map_some]
      have each : ∀ n ∈ searchOrder ext (.node left top right),
          (itreeOverlapCb res mode n data).1 = .cont → (itreeOverlapCb res mode n data).2 = data := by
        intro n _ wentOn
        rcases matchEach_cases noOld (intervalGroup res mode n) with ⟨walked, -⟩ | ⟨_, _, _, walked⟩
        · simp [itreeOverlapCb, walked]
        · simp [itreeOverlapCb, walked] at wentOn
      rcases callEach_cont_or_stop _ _ data each with ⟨walked, wentOn⟩ | ⟨n, visited, stopped, walked⟩
      · -- every node that meets the extent was walked without a match
        left
        refine ⟨by rw [searched, walked], ?_⟩
        intro lock mem ofMode matching
        obtain ⟨node, inTree, meets, inGroup⟩ := exists_node_of_matches granted indexes ordered mem ofMode matching
        rw [root] at inTree
        have visited := (aug.mem_searchOrder_iff ext).mpr ⟨inTree, meets⟩
        exact not_matches_of_matchEach_cont noOld (wentOn node visited) lock inGroup matching
      · -- the walk stopped in the group of a node
        right
        rcases matchEach_cases noOld (intervalGroup res mode n) with
          ⟨groupWalked, -⟩ | ⟨lock, inGroup, matching, groupWalked⟩
        · simp [itreeOverlapCb, groupWalked] at stopped
        · simp only [intervalGroup, List.mem_filter, decide_eq_true_eq] at inGroup
          obtain ⟨mem, grantedMode, -⟩ := inGroup
          have ofMode : lock.lReqMode = mode := by
            rw [granted lock mem] at grantedMode
            exact Option.some.inj grantedMode
          refine ⟨lock, mem, ofMode, matching, ?_⟩
          rw [searched, walked]
          simp [itreeOverlapCb, groupWalked]

/-- Once a lock of one mode has matched, the trees of the other modes are
passed over. -/
theorem searchItreeStep_of_taken {ext : IntervalNodeExtent} {lock : LdlmLock} {idx : Nat}
    {tree : LdlmIntervalTree} (atIndex : res.lrItree[idx]? = some tree)
    (otherMode : tree.litMode ≠ lock.lReqMode) :
    searchItreeStep res ext (data.take lock) idx = some (data.take lock) := by
  have masked : tree.litMode.bits &&& (data.take lock).lmdMode = 0 :=
    LdlmMode.bits_and_bits_eq_zero otherMode
  unfold searchItreeStep
  rw [atIndex, Option.bind_some]
  split
  · rfl
  · rw [if_pos masked]

end Itree

section Loop

variable {res : LdlmResource} {data : LockMatchData}

/-- Once a lock has matched, the rest of the loop passes over the trees of
the other modes. -/
theorem foldlM_searchItreeStep_of_taken {ext : IntervalNodeExtent} {lock : LdlmLock}
    (indexed : ∀ mode : LdlmMode, ∃ tree, res.lrItree[mode.toIndex]? = some tree ∧
      ItreeIndexes res mode tree)
    (idxs : List Nat) (below : ∀ i ∈ idxs, i < lckModeNum)
    (others : ∀ i ∈ idxs, i ≠ lock.lReqMode.toIndex) :
    idxs.foldlM (searchItreeStep res ext) (data.take lock) = some (data.take lock) := by
  induction idxs with
  | nil => rfl
  | cons i rest ih =>
    obtain ⟨mode, rfl⟩ := LdlmMode.exists_toIndex_eq (below _ List.mem_cons_self)
    obtain ⟨tree, atIndex, indexes⟩ := indexed mode
    have otherMode : tree.litMode ≠ lock.lReqMode := by
      rw [indexes.1]
      intro same
      exact others _ List.mem_cons_self (by rw [same])
    simp only [List.foldlM_cons, searchItreeStep_of_taken atIndex otherMode, Option.bind_eq_bind,
      Option.bind_some]
    exact ih (fun i mem => below i (List.mem_cons_of_mem _ mem))
      (fun i mem => others i (List.mem_cons_of_mem _ mem))

/-- The loop of search_itree over distinct tree indexes, from data no lock
has matched yet: either no granted lock of their modes matches and the data is
left as it was, or one of them matched and is the only one taken. -/
theorem foldlM_searchItreeStep_cases (noOld : data.lmdOld = none)
    (ordered : data.lmdPolicy.start ≤ data.lmdPolicy.stop)
    (granted : ∀ lock ∈ res.lrGranted, lock.lGrantedMode = some lock.lReqMode)
    (indexed : ∀ mode : LdlmMode, ∃ tree, res.lrItree[mode.toIndex]? = some tree ∧
      ItreeIndexes res mode tree)
    (idxs : List Nat) (nodup : idxs.Nodup) (below : ∀ i ∈ idxs, i < lckModeNum) :
    (idxs.foldlM (searchItreeStep res ⟨data.lmdPolicy.start, data.lmdPolicy.stop⟩) data = some data ∧
        ∀ lock ∈ res.lrGranted, lock.lReqMode.toIndex ∈ idxs → ¬ MatchesRequest data lock) ∨
      ∃ lock ∈ res.lrGranted, lock.lReqMode.toIndex ∈ idxs ∧ MatchesRequest data lock ∧
        idxs.foldlM (searchItreeStep res ⟨data.lmdPolicy.start, data.lmdPolicy.stop⟩) data =
          some (data.take lock) := by
  induction idxs with
  | nil => exact .inl ⟨rfl, by simp⟩
  | cons i rest ih =>
    obtain ⟨mode, rfl⟩ := LdlmMode.exists_toIndex_eq (below _ List.mem_cons_self)
    obtain ⟨tree, atIndex, indexes⟩ := indexed mode
    have restBelow := fun i mem => below i (List.mem_cons_of_mem mode.toIndex mem)
    rcases searchItreeStep_cases noOld ordered granted atIndex indexes with
      ⟨missed, noneMatch⟩ | ⟨lock, mem, ofMode, matching, took⟩
    · -- no lock of this mode matches: the rest of the loop decides
      have wentOn :
          (mode.toIndex :: rest).foldlM
              (searchItreeStep res ⟨data.lmdPolicy.start, data.lmdPolicy.stop⟩) data =
            rest.foldlM (searchItreeStep res ⟨data.lmdPolicy.start, data.lmdPolicy.stop⟩) data := by
        simp only [List.foldlM_cons, missed, Option.bind_eq_bind, Option.bind_some]
      rcases ih (List.nodup_cons.mp nodup).2 restBelow with
        ⟨walked, restNone⟩ | ⟨lock, mem, inRest, matching, walked⟩
      · left
        refine ⟨wentOn.trans walked, ?_⟩
        intro lock mem inIdxs matching
        rcases List.mem_cons.mp inIdxs with same | later
        · exact noneMatch lock mem (LdlmMode.toIndex_injective same) matching
        · exact restNone lock mem later matching
      · right
        exact ⟨lock, mem, List.mem_cons_of_mem _ inRest, matching, wentOn.trans walked⟩
    · -- a lock of this mode matched: the trees after it are passed over
      right
      refine ⟨lock, mem, by rw [ofMode]; exact List.mem_cons_self, matching, ?_⟩
      simp only [List.foldlM_cons, took, Option.bind_eq_bind, Option.bind_some]
      apply foldlM_searchItreeStep_of_taken indexed rest restBelow
      intro j inRest same
      rw [ofMode] at same
      exact (List.nodup_cons.mp nodup).1 (same ▸ inRest)

end Loop

/-- search_itree agrees with the walk of the granted queue: on a resource
whose trees index its granted locks, for every request without `lmd_old`
whose extent starts at or before its end, it finds a lock exactly when some
granted lock matches (and so exactly when search_queue finds one), the lock it
finds matches, its mode is the one left in the request, and it is the only
lock given a reference; when it finds none, the request is left as it was. -/
theorem searchItree_agrees_with_scan {res : LdlmResource}
    (granted : ∀ lock ∈ res.lrGranted, lock.lGrantedMode = some lock.lReqMode)
    (indexed : ∀ mode : LdlmMode, ∃ tree, res.lrItree[mode.toIndex]? = some tree ∧
      ItreeIndexes res mode tree)
    (flags : UInt64) (policy : LdlmExtent) (mode : Nat) (unref : Bool)
    (ordered : policy.start ≤ policy.stop) :
    let data := lockMatchData flags policy mode unref
    ∃ found, searchItree res data = some found ∧
      (found.lmdLock.isSome ↔ ∃ lock ∈ res.lrGranted, MatchesRequest data lock) ∧
      ((searchQueue res.lrGranted data).1.isSome ↔ found.lmdLock.isSome) ∧
      (∀ lock, found.lmdLock = some lock → lock ∈ res.lrGranted ∧ MatchesRequest data lock ∧
        found.lmdMode = lock.lReqMode.bits ∧
        found.taken = [(lock.lHandle, decide (flags &&& ldlmFlTestLock = 0))]) ∧
      (found.lmdLock = none → found = data) := by
  intro data
  have noOld : data.lmdOld = none := rfl
  have scan := searchQueue_isSome_iff noOld res.lrGranted
  rcases foldlM_searchItreeStep_cases noOld ordered granted indexed (List.range lckModeNum)
      List.nodup_range (fun i mem => List.mem_range.mp mem) with
    ⟨missed, noneMatch⟩ | ⟨lock, mem, -, matching, took⟩
  · -- no granted lock matches: nothing is found and nothing taken
    have noMatch : ¬ ∃ lock ∈ res.lrGranted, MatchesRequest data lock :=
      fun ⟨lock, mem, matching⟩ =>
        noneMatch lock mem (List.mem_range.mpr (LdlmMode.toIndex_lt_lckModeNum _)) matching
    refine ⟨data, missed, ?_, ?_, ?_, fun _ => rfl⟩
    · simpa [data, lockMatchData] using noMatch
    · rw [scan]
      simpa [data, lockMatchData] using noMatch
    · intro lock found
      simp [data, lockMatchData] at found
  · -- the one lock taken is the one found
    refine ⟨data.take lock, took, ?_, ?_, ?_, ?_⟩
    · simpa [LockMatchData.take] using ⟨lock, mem, matching⟩
    · rw [scan]
      simpa [LockMatchData.take] using ⟨lock, mem, matching⟩
    · intro found same
      simp only [LockMatchData.take, Option.some.injEq] at same
      subst same
      exact ⟨mem, matching, rfl, rfl⟩
    · simp [LockMatchData.take]


/-- A request for PW or PR (the mask 6) on `[4096, 5000]` against the granted
GROUP and PR locks of `groupAndReadResource`. -/
theorem searchItree_agrees_with_scan_on_groupAndRead :
    (4096 : UInt64) ≤ 5000 ∧
      ∃ found, searchItree groupAndReadResource (lockMatchData 0 ⟨4096, 5000, 0⟩ 6 false) =
          some found ∧
        (found.lmdLock.isSome ↔ ∃ lock ∈ groupAndReadResource.lrGranted,
          MatchesRequest (lockMatchData 0 ⟨4096, 5000, 0⟩ 6 false) lock) ∧
        ((searchQueue groupAndReadResource.lrGranted
          (lockMatchData 0 ⟨4096, 5000, 0⟩ 6 false)).1.isSome ↔ found.lmdLock.isSome) ∧
        (∀ lock, found.lmdLock = some lock → lock ∈ groupAndReadResource.lrGranted ∧
          MatchesRequest (lockMatchData 0 ⟨4096, 5000, 0⟩ 6 false) lock ∧
          found.lmdMode = lock.lReqMode.bits ∧
          found.taken = [(lock.lHandle, decide ((0 : UInt64) &&& ldlmFlTestLock = 0))]) ∧
        (found.lmdLock = none → found = lockMatchData 0 ⟨4096, 5000, 0⟩ 6 false) :=
  ⟨by decide, searchItree_agrees_with_scan grantSafe_groupAndReadResource.granted
    grantSafe_groupAndReadResource.indexed 0 ⟨4096, 5000, 0⟩ 6 false (by decide)⟩

/-- The PR lock of handle 3 is the one found. -/
example : (searchItree groupAndReadResource (lockMatchData 0 ⟨4096, 5000, 0⟩ 6 false)).map
    (fun found => (found.lmdLock.map (·.lHandle), found.lmdMode, found.taken)) =
      some (some 3, 4, [(3, true)]) := by
  decide

end Lustre.Ldlm
